import NearKit.ClientHistories
import NearKit.Tickets

/-!
# The nonce sequence of a key

Any operations of one client in flight together. The nonces of the manager are tickets:
each transaction that leaves the client spends one, so no two transactions for a key
carry the same nonce. A delegate action takes its nonce from its own access-key fetch.
-/
namespace NearKit
open Borsh

/-! ## The calls of a client -/

/-- An operation on transactions that a user of the client starts. -/
inductive ClientCall where
  | send (t : TransactionSend)
  | sign (b : TransactionBuilder)
  | build (b : TransactionBuilder)
  | delegate (b : TransactionBuilder) (options : DelegateOptions)
  deriving DecidableEq

inductive ClientResult where
  | sent (r : Exit SendResponse)
  | signed (r : Exit SignedTransaction)
  | built (r : Exit Transaction)
  | delegated (r : Exit DelegateResult)
  deriving DecidableEq

namespace ClientCall

def builder : ClientCall → TransactionBuilder
  | send t => t.builder
  | sign b | build b | delegate b _ => b

def process [Crates] : ClientCall → Process Request Answer ClientResult
  | send t => t.intoFuture.map .sent
  | sign b => b.sign.map .signed
  | build b => b.build.map .built
  | delegate b options => (b.delegate options).map .delegated

end ClientCall

/-- The nonce of a transaction with the key it counts for. -/
def Transaction.ticket (network : Network) (tx : Transaction) : NonceKey × Nonce :=
  ((network, tx.signerId, tx.publicKey), tx.nonce)

/-- The ticket of the transaction that `sign` or `build` returns. -/
def ClientResult.ticket (network : Network) : ClientResult → Option (NonceKey × Nonce)
  | signed (.ok tx) => some (tx.transaction.ticket network)
  | built (.ok tx) => some (tx.ticket network)
  | _ => none

variable {ι : Type}

/-- The transactions that leave the client: every one submitted by a send, and those
that `sign` and `build` return. -/
def transactionPayload (calls : ι → ClientCall) :
    ClientOccurrence ι ClientResult → Option (NonceKey × Nonce)
  | .asked i _ (.sendTx tx _) _ => some (tx.transaction.ticket (calls i).builder.url)
  | .returned i r => r.ticket (calls i).builder.url
  | _ => none

/-- The delegate actions that leave the client. -/
def delegatePayload (calls : ι → ClientCall) :
    ClientOccurrence ι ClientResult → Option (NonceKey × Nonce)
  | .returned i (.delegated (.ok d)) =>
    let action := d.signedDelegateAction.delegateAction
    some (((calls i).builder.url, action.senderId, action.publicKey), action.nonce)
  | _ => none

def payload (calls : ι → ClientCall) (e : ClientOccurrence ι ClientResult) :
    Option (NonceKey × Nonce) :=
  (transactionPayload calls e).or (delegatePayload calls e)

/-! ## Delegate actions -/

/-- Records the exchanges themselves, and forbids allocations and submissions. -/
def bystander : Monitor Request Answer (List (Exchange Request Answer)) where
  start := []
  allows _
    | .nextNonce .. => False
    | .sendTx .. => False
    | _ => True
  next xs q a := ⟨q, a⟩ :: xs

/-- The nonce of a delegate action that was not given one is the successor of the one
that the call itself has fetched for its key. -/
def DelegateNonce (options : DelegateOptions) (xs : List (Exchange Request Answer))
    (d : DelegateResult) : Prop :=
  let action := d.signedDelegateAction.delegateAction
  options.nonce = none → ∃ accessKey : AccessKeyView,
    ⟨.viewAccessKey action.senderId action.publicKey .optimistic, .ok accessKey⟩ ∈ xs ∧
    action.nonce = accessKey.nonce + 1

namespace TransactionBuilder
variable [Crates] (b : TransactionBuilder) (options : DelegateOptions)

private theorem signDelegate_obeys (key : SigningKey) (senderId : AccountId) (nonce : Nonce)
    (maxBlockHeight : UInt64) (xs : List (Exchange Request Answer))
    (h : options.nonce = none → ∃ accessKey : AccessKeyView,
      ⟨.viewAccessKey senderId key.publicKey .optimistic, .ok accessKey⟩ ∈ xs ∧
      nonce = accessKey.nonce + 1) :
    (b.signDelegate key senderId nonce maxBlockHeight).Obeys bystander
      (fun xs r => ∀ d, r = .ok d → DelegateNonce options xs d) xs := by
  unfold signDelegate
  simp only
  split
  · exact nofun
  · refine ⟨trivial, fun signature => ?_⟩
    cases signature with
    | error e => exact nofun
    | ok signature =>
      simp only
      split
      · exact nofun
      · intro d hd hnone
        cases hd
        obtain ⟨accessKey, hmem, hnonce⟩ := h hnone
        exact ⟨accessKey, List.mem_cons_of_mem _ hmem, hnonce⟩

private theorem delegateAt_obeys (key : SigningKey) (senderId : AccountId) (nonce : Nonce)
    (xs : List (Exchange Request Answer))
    (h : options.nonce = none → ∃ accessKey : AccessKeyView,
      ⟨.viewAccessKey senderId key.publicKey .optimistic, .ok accessKey⟩ ∈ xs ∧
      nonce = accessKey.nonce + 1) :
    (b.delegateAt options key senderId nonce).Obeys bystander
      (fun xs r => ∀ d, r = .ok d → DelegateNonce options xs d) xs := by
  unfold delegateAt
  cases options.maxBlockHeight with
  | some height => exact signDelegate_obeys b options key senderId nonce height xs h
  | none =>
    refine ⟨trivial, fun status => ?_⟩
    cases status with
    | error e => exact nofun
    | ok latestBlockHeight =>
      apply signDelegate_obeys
      intro hnone
      obtain ⟨accessKey, hmem, hnonce⟩ := h hnone
      exact ⟨accessKey, List.mem_cons_of_mem _ hmem, hnonce⟩

theorem delegate_obeys : (b.delegate options).Obeys bystander
    (fun xs r => ∀ d, r = .ok d → DelegateNonce options xs d) [] := by
  by_cases ha : b.actions.isEmpty
  · rw [delegate, if_pos ha]
    exact nofun
  · by_cases hd : b.actions.any Action.isDelegate
    · rw [delegate, if_neg ha, if_pos hd]
      exact nofun
    · cases hs : b.effectiveSigner with
      | none =>
        rw [delegate, if_neg ha, if_neg hd, hs]
        exact nofun
      | some signer =>
        rw [delegate, if_neg ha, if_neg hd, hs]
        refine ⟨trivial, fun key => ?_⟩
        cases hn : options.nonce with
        | some n =>
          simp only
          apply delegateAt_obeys
          intro hnone
          rw [hn] at hnone
          cases hnone
        | none =>
          simp only
          refine ⟨trivial, fun view => ?_⟩
          cases view with
          | error e => exact nofun
          | ok accessKey =>
            apply delegateAt_obeys
            intro _
            exact ⟨accessKey, List.mem_cons_self, rfl⟩

end TransactionBuilder

/-! ## Transactions -/

/-- The nonce an attempt has been given and not yet used up. -/
def Phase.ticket (network : Network) : Phase → Option (NonceKey × Nonce)
  | allocated tx => some (tx.ticket network)
  | signed tx => some (tx.transaction.ticket network)
  | _ => none

section
variable [Crates] {b : TransactionBuilder} {phase : Phase} {q : Request} (network : Network)

omit [Crates] in
theorem ticket_nextPhase_sendTx (tx tx' : SignedTransaction) (status : TxExecutionStatus)
    (a : Answer (.sendTx tx' status)) :
    (b.nextPhase (.signed tx) (.sendTx tx' status) a).ticket network = none := by
  cases a with
  | ok response => rfl
  | error e =>
    cases e with
    | invalidTx e => cases e <;> rfl
    | _ => rfl

theorem ticket_nextPhase (ha : b.Allows phase q) (a : Answer q)
    (hq : ∀ network id key chain, q ≠ .nextNonce network id key chain) :
    (b.nextPhase phase q a).ticket network = phase.ticket network ∨
      (b.nextPhase phase q a).ticket network = none := by
  cases phase with
  | idle carried =>
    cases q with
    | key | publicKey => exact .inl rfl
    | _ => exact False.elim ha
  | claimed carried publicKey =>
    cases q with
    | viewAccessKey => cases a <;> exact .inl rfl
    | _ => exact False.elim ha
  | fetched carried publicKey accessKey =>
    cases q with
    | nextNonce network id key chain => exact absurd rfl (hq network id key chain)
    | _ => exact False.elim ha
  | allocated tx =>
    cases q with
    | sign =>
      cases a with
      | error e => exact .inr rfl
      | ok signature => exact .inl rfl
    | _ => exact False.elim ha
  | signed tx =>
    cases q with
    | sendTx tx' status => exact .inr (ticket_nextPhase_sendTx network tx tx' status a)
    | _ => exact False.elim ha
  | stopped => exact False.elim ha

end

namespace ClientCall
variable [Crates]

def isDelegate : ClientCall → Bool
  | delegate .. => true
  | _ => false

/-- A call other than `delegate` makes one attempt after the other and returns the
transaction of its last one. -/
theorem process_obeys {c : ClientCall} (hc : c.isDelegate = false) :
    c.process.Obeys c.builder.attempts
      (fun phase r => ∀ x, r.ticket c.builder.url = some x → phase.ticket c.builder.url = some x)
      (.idle none) := by
  cases c with
  | send t =>
    apply Process.Obeys.map
    apply t.intoFuture_obeys.imp
    intro phase r _ x hx
    cases hx
  | sign b =>
    apply Process.Obeys.map
    apply b.sign_obeys.imp
    intro phase r h x hx
    cases r with
    | ok tx =>
      rw [h tx rfl]
      exact hx
    | err e => cases hx
    | panic => cases hx
  | build b =>
    apply Process.Obeys.map
    apply b.build_obeys.imp
    intro phase r h x hx
    cases r with
    | ok tx =>
      rw [h tx rfl]
      exact hx
    | err e => cases hx
    | panic => cases hx
  | delegate b options => cases hc

theorem delegate_process_obeys (b : TransactionBuilder) (options : DelegateOptions) :
    (delegate b options).process.Obeys bystander
      (fun xs r => ∃ r', r = .delegated r' ∧ ∀ d, r' = .ok d → DelegateNonce options xs d) [] := by
  apply Process.Obeys.map
  apply (b.delegate_obeys options).imp
  intro xs r h
  exact ⟨r, rfl, h⟩

/-- The nonce that a call has been given and not yet used up. -/
def ticket (c : ClientCall) (xs : List (Exchange Request Answer)) : Option (NonceKey × Nonce) :=
  if c.isDelegate then none else (c.builder.attempts.after xs).ticket c.builder.url

end ClientCall

theorem ClientCall.ticket_eq [Crates] {c : ClientCall} (hc : c.isDelegate = false)
    (xs : List (Exchange Request Answer)) :
    c.ticket xs = (c.builder.attempts.after xs).ticket c.builder.url :=
  if_neg (Bool.not_eq_true _ ▸ hc)

/-- The nonces of a history as tickets: the manager issues them, the calls hold them and
the transactions that leave the client spend them. -/
def tickets [Crates] [DecidableEq ι] (calls : ι → ClientCall)
    (es : List (ClientOccurrence ι ClientResult))
    (ps : ι → Option (Process Request Answer ClientResult)) : Tickets.State ι (NonceKey × Nonce) where
  issued := es.filterMap allocation
  held i := (ps i).bind fun _ => (calls i).ticket (exchangesOf i es)
  spent := es.filterMap (transactionPayload calls)

section
variable [Crates] [DecidableEq ι] {calls : ι → ClientCall}
variable {es : List (ClientOccurrence ι ClientResult)} {m₀ m : NonceManager}
variable {ps : ι → Option (Process Request Answer ClientResult)}

theorem tickets_held_asked {i : ι} {q : Request} {a : Answer q}
    {p : Process Request Answer ClientResult} :
    (tickets calls (.asked i m q a :: es) (Function.update ps i (some p))).held =
      Function.update (tickets calls es ps).held i
        ((calls i).ticket (⟨q, a⟩ :: exchangesOf i es)) := by
  funext j
  by_cases hj : j = i
  · subst hj
    simp only [tickets, Function.update_self, exchangesOf_asked_self]
    rfl
  · simp only [tickets, Function.update_of_ne hj, exchangesOf_asked_of_ne (Ne.symm hj)]

private theorem tickets_held_returned {i : ι} {r : ClientResult} :
    (tickets calls (.returned i r :: es) (Function.update ps i none)).held =
      Function.update (tickets calls es ps).held i none := by
  funext j
  by_cases hj : j = i
  · subst hj
    simp only [tickets, Function.update_self]
    rfl
  · simp only [tickets, Function.update_of_ne hj]
    rfl

theorem tickets_held_of_waiting {i : ι} {p : Process Request Answer ClientResult}
    (hps : ps i = some p) :
    (tickets calls es ps).held i = (calls i).ticket (exchangesOf i es) := by
  simp only [tickets, hps]
  rfl

/-- An answered request of a delegating call moves no ticket. -/
theorem tickets_step_delegate {i : ι} {q : Request} {a : Answer q}
    {p p' : Process Request Answer ClientResult} (hps : ps i = some p)
    (hc : (calls i).isDelegate = true) (ha : bystander.allows [] q) :
    Tickets.Step (tickets calls es ps)
      (tickets calls (.asked i m q a :: es) (Function.update ps i (some p'))) := by
  have hnone : ∀ xs, (calls i).ticket xs = none := fun xs => if_pos hc
  have hheld : Function.update (tickets calls es ps).held i
      ((calls i).ticket (⟨q, a⟩ :: exchangesOf i es)) = (tickets calls es ps).held := by
    rw [Function.update_eq_self_iff, tickets_held_of_waiting hps, hnone, hnone]
  refine .skip ?_ (tickets_held_asked.trans hheld) ?_
  · cases q with
    | nextNonce => exact False.elim ha
    | _ => rfl
  · cases q with
    | sendTx => exact False.elim ha
    | _ => rfl

/-- A request that neither allocates nor submits keeps or drops the ticket of its call. -/
theorem tickets_step_other {i : ι} {q : Request} {a : Answer q}
    {p p' : Process Request Answer ClientResult} (hps : ps i = some p)
    (hc : (calls i).isDelegate = false)
    (ha : (calls i).builder.Allows ((calls i).builder.attempts.after (exchangesOf i es)) q)
    (hq : ∀ network id key chain, q ≠ .nextNonce network id key chain)
    (hissued : allocation (.asked i m q a : ClientOccurrence ι ClientResult) = none)
    (hspent : transactionPayload calls (.asked i m q a) = none) :
    Tickets.Step (tickets calls es ps)
      (tickets calls (.asked i m q a :: es) (Function.update ps i (some p'))) := by
  have hissued' : (.asked i m q a :: es).filterMap allocation = es.filterMap allocation :=
    List.filterMap_cons_none hissued
  have hspent' : (.asked i m q a :: es).filterMap (transactionPayload calls) =
      es.filterMap (transactionPayload calls) := List.filterMap_cons_none hspent
  rcases ticket_nextPhase (calls i).builder.url ha a hq with hkeep | hdrop
  · refine .skip hissued' ?_ hspent'
    rw [tickets_held_asked, Function.update_eq_self_iff, tickets_held_of_waiting hps,
      ClientCall.ticket_eq hc, ClientCall.ticket_eq hc]
    exact hkeep
  · refine .drop i hissued' ?_ hspent'
    rw [tickets_held_asked, ClientCall.ticket_eq hc]
    exact congrArg _ hdrop

/-- An answered request of any other call takes, spends, keeps or drops a ticket. -/
theorem tickets_step_attempt {i : ι} {q : Request} {a : Answer q}
    {p p' : Process Request Answer ClientResult} (hps : ps i = some p)
    (hc : (calls i).isDelegate = false)
    (ha : (calls i).builder.Allows ((calls i).builder.attempts.after (exchangesOf i es)) q)
    (hfresh : ∀ x, allocation (.asked i m q a : ClientOccurrence ι ClientResult) = some x →
      x ∉ es.filterMap allocation) :
    Tickets.Step (tickets calls es ps)
      (tickets calls (.asked i m q a :: es) (Function.update ps i (some p'))) := by
  cases q with
  | nextNonce network id key chain =>
    obtain ⟨carried, accessKey, hphase, rfl, -, -⟩ := ha.nextNonce_inv
    refine .take i (((calls i).builder.url, id, key), a) (hfresh _ rfl) rfl ?_ rfl
    have hnext : ((calls i).builder.nextPhase ((calls i).builder.attempts.after (exchangesOf i es))
        (.nextNonce (calls i).builder.url id key chain) a).ticket (calls i).builder.url =
        some (((calls i).builder.url, id, key), a) := by
      rw [hphase]
      rfl
    rw [tickets_held_asked, ClientCall.ticket_eq hc]
    exact congrArg _ hnext
  | sendTx tx status =>
    have hphase := ha.sendTx_inv
    refine .spend i (tx.transaction.ticket (calls i).builder.url) ?_ rfl ?_ rfl
    · rw [tickets_held_of_waiting hps, ClientCall.ticket_eq hc, hphase]
      rfl
    · have hnext : ((calls i).builder.nextPhase
          ((calls i).builder.attempts.after (exchangesOf i es)) (.sendTx tx status) a).ticket
          (calls i).builder.url = none := by
        rw [hphase]
        exact ticket_nextPhase_sendTx _ tx tx status a
      rw [tickets_held_asked, ClientCall.ticket_eq hc]
      exact congrArg _ hnext
  | _ => exact tickets_step_other hps hc ha nofun rfl rfl

private theorem tickets_step_returned {i : ι} {r : ClientResult}
    (hr : ∀ x, r.ticket (calls i).builder.url = some x → (tickets calls es ps).held i = some x) :
    Tickets.Step (tickets calls es ps)
      (tickets calls (.returned i r :: es) (Function.update ps i none)) := by
  cases hx : r.ticket (calls i).builder.url with
  | none => exact .drop i rfl tickets_held_returned (List.filterMap_cons_none hx)
  | some x =>
    exact .spend i x (hr x hx) rfl tickets_held_returned (List.filterMap_cons_some hx)

private theorem tickets_init : tickets calls [] (fun i => some (calls i).process) =
    ⟨[], fun _ => none, []⟩ := by
  have hheld : ∀ i, (calls i).ticket [] = none := by
    intro i
    unfold ClientCall.ticket
    split
    · rfl
    · rfl
  simp only [tickets, List.filterMap_nil, Option.bind_some, exchangesOf, hheld]

/-- Every interleaving of calls is a run of the ticket dispenser. -/
theorem tickets_sound (run : Interleaving clientHandler (fun i => (calls i).process) m₀ es m ps)
    (hb : Along CountersBelow es) : Tickets.Sound (tickets calls es ps) := by
  induction run with
  | init =>
    rw [tickets_init]
    exact Tickets.sound_init
  | @asked es m m' ps i q a resume run waiting step ih =>
    apply (ih hb.2).step
    have hserved := (Interleaving.asked run waiting step).served.2
    cases hc : (calls i).isDelegate with
    | true =>
      cases hcall : calls i with
      | delegate b options =>
        have hobeys := ClientCall.delegate_process_obeys b options
        rw [← hcall] at hobeys
        exact tickets_step_delegate waiting hc ((run.guards hobeys).1 _ waiting).1
      | send | sign | build =>
        rw [hcall] at hc
        cases hc
    | false =>
      have ha := ((run.guards (ClientCall.process_obeys hc)).1 _ waiting).1
      apply tickets_step_attempt waiting hc ha
      intro x hx
      exact allocation_fresh hserved.2 hb.2 hserved.1 hb.1 hx
  | @returned es m ps i r run finished ih =>
    apply (ih hb.2).step
    apply tickets_step_returned
    intro x hx
    rw [tickets_held_of_waiting finished]
    cases hc : (calls i).isDelegate with
    | true =>
      cases hcall : calls i with
      | delegate b options =>
        have hobeys := ClientCall.delegate_process_obeys b options
        rw [← hcall] at hobeys
        obtain ⟨r', rfl, -⟩ := (run.guards hobeys).1 _ finished
        cases hx
      | send | sign | build =>
        rw [hcall] at hc
        cases hc
    | false =>
      rw [ClientCall.ticket_eq hc]
      exact (run.guards (ClientCall.process_obeys hc)).1 _ finished x hx

omit [Crates] in
private theorem DelegateNonce.mono {options : DelegateOptions}
    {xs ys : List (Exchange Request Answer)} {d : DelegateResult} (h : DelegateNonce options xs d)
    (hsub : xs ⊆ ys) :
    DelegateNonce options ys d := by
  intro hnone
  obtain ⟨accessKey, hmem, hnonce⟩ := h hnone
  exact ⟨accessKey, hsub hmem, hnonce⟩

/-- In every interleaving of `send`, `sign`, `build` and `delegate` calls of one client:
no two transactions for a key carry the same nonce. A delegate action without a given
nonce carries the successor of the access-key nonce that its own call has fetched, and so
the nonce of a transaction exactly if the manager's base for that was the same. -/
theorem payload_nonces (run : Interleaving clientHandler (fun i => (calls i).process) m₀ es m ps)
    (hb : Along CountersBelow es) :
    (es.filterMap (transactionPayload calls)).Nodup ∧
    ∀ i b options d, calls i = .delegate b options → options.nonce = none →
      .returned i (.delegated (.ok d)) ∈ es → ∃ accessKey : AccessKeyView,
        ⟨.viewAccessKey d.signedDelegateAction.delegateAction.senderId
          d.signedDelegateAction.delegateAction.publicKey .optimistic, .ok accessKey⟩ ∈
            exchangesOf i es ∧
        d.signedDelegateAction.delegateAction.nonce = accessKey.nonce + 1 ∧
        ∀ x ∈ es.filterMap (transactionPayload calls), ∃ j m chain,
          .asked j m (.nextNonce x.1.1 x.1.2.1 x.1.2.2 chain) x.2 ∈ es ∧
          (x.2 = d.signedDelegateAction.delegateAction.nonce ↔
            m.base x.1 chain = accessKey.nonce) := by
  have hsound := tickets_sound run hb
  refine ⟨hsound.nodup, ?_⟩
  intro i b options d hcall hnone hmem
  have hobeys := ClientCall.delegate_process_obeys b options
  rw [← hcall] at hobeys
  have hrecorded : (calls i).process.Obeys (.recording bystander.allows) _ [] := hobeys
  obtain ⟨xs, hsub, r', heq, hr'⟩ := (run.recorded hrecorded).2 _ hmem
  cases heq
  have hdelegate := (hr' d rfl).mono hsub
  obtain ⟨accessKey, hfetch, hnonce⟩ := hdelegate hnone
  refine ⟨accessKey, hfetch, hnonce, ?_⟩
  intro x hx
  have hissued := allocated_of_mem (hsound.issued_of_spent x hx)
  obtain ⟨j, m', chain, hasked, hbase⟩ := exists_base_of_allocated run.served.2 hissued
  refine ⟨j, m', chain, hasked, ?_⟩
  rw [hbase, hnonce]
  exact UInt64.add_left_inj 1

end

/-! ## Samples -/

def collidingCalls : Bool → ClientCall
  | true => .build (.sample 2)
  | false => .delegate (.sample 2) ⟨some 100, none, none⟩

theorem exists_collidingRun : ∃ es m ps,
    Interleaving clientHandler (fun i => (@ClientCall.process Crates.accepting (collidingCalls i)))
      .new es m ps ∧
    Along CountersBelow es ∧
    es.filterMap (payload collidingCalls) =
      [(("testnet", .alice, .sample 0), 6), (("testnet", .alice, .sample 0), 6)] := by
  let _ := Crates.accepting
  let action : DelegateAction := ⟨.alice, .bob, [.transfer ⟨1⟩], 6, 100, .sample 0⟩
  obtain ⟨bytes, hbytes⟩ := (Format.delegateAction.lawful.fits_iff action).mp (by decide)
  obtain ⟨text, htext⟩ :=
    (Format.signedDelegateAction.lawful.fits_iff ⟨action, .zero⟩).mp (by decide)
  have hhash : action.getHash = .ok (.zeros 32) := by
    unfold DelegateAction.getHash DelegateAction.serializeForSigning Codec.toVec
    rw [hbytes]
    rfl
  have hpayload : (action.sign .zero).toBase64 = .ok (Base64.encode text) := by
    unfold DelegateAction.sign SignedDelegateAction.toBase64 SignedDelegateAction.toBytes Codec.toVec
    rw [htext]
    rfl
  let r := NonceManager.new.next "testnet" .alice (.sample 0) 5
  have run₀ : Interleaving clientHandler (fun i => (collidingCalls i).process) .new [] .new
    fun i => some (collidingCalls i).process := .init
  obtain ⟨ps₁, run₁, hps₁, hne₁⟩ := run₀.ask (i := true) rfl rfl (PublicKey.sample 0) rfl
  obtain ⟨ps₂, run₂, hps₂, hne₂⟩ := run₁.ask hps₁ rfl (Except.ok (AccessKeyView.sample 5)) rfl
  obtain ⟨ps₃, run₃, hps₃, hne₃⟩ := run₂.ask hps₂ rfl r.1 (rfl : (r.1, r.2) = r)
  have hdelegate : ps₃ false = some (collidingCalls false).process := by
    rw [hne₃ false Bool.false_ne_true, hne₂ false Bool.false_ne_true, hne₁ false Bool.false_ne_true]
  obtain ⟨ps₄, run₄, hps₄, hne₄⟩ := run₃.ask hdelegate rfl (⟨.sample 0, 0⟩ : SigningKey) rfl
  obtain ⟨ps₅, run₅, hps₅, hne₅⟩ := run₄.ask hps₄ rfl (Except.ok (AccessKeyView.sample 5)) rfl
  have hsign : ps₅ false = some ((TransactionBuilder.signDelegate (.sample 2) ⟨.sample 0, 0⟩ .alice 6
      100).map ClientResult.delegated) := hps₅
  have haction : action = ⟨.alice, (TransactionBuilder.sample 2).receiverId,
      (TransactionBuilder.sample 2).actions.filterMap NonDelegateAction.fromAction, 6, 100,
      (.sample 0)⟩ := by decide
  rw [TransactionBuilder.signDelegate_eq haction hhash] at hsign
  obtain ⟨ps₆, run₆, hps₆, hne₆⟩ := run₅.ask hsign rfl (Except.ok Signature.zero) rfl
  simp only [hpayload] at hps₆
  have run₇ := Interleaving.returned run₆ hps₆
  have hbuild : Function.update ps₆ false none true = ps₃ true := by
    rw [Function.update_of_ne Bool.false_ne_true.symm, hne₆ true Bool.false_ne_true.symm,
      hne₅ true Bool.false_ne_true.symm, hne₄ true Bool.false_ne_true.symm]
  have run₈ := Interleaving.returned run₇ (hbuild.trans hps₃)
  have hbelow : NonceManager.new.Below ("testnet", .alice, .sample 0) 5 := by decide
  exact ⟨_, _, _, run₈, ⟨trivial, trivial, trivial, trivial, trivial, hbelow, trivial, trivial,
    trivial⟩, rfl⟩

theorem payload_nonces_sample : ∃ es m ps,
    Interleaving clientHandler (fun i => (@ClientCall.process Crates.accepting (collidingCalls i)))
      .new es m ps ∧
    (es.filterMap (payload collidingCalls)).length = 2 ∧
    (es.filterMap (transactionPayload collidingCalls)).Nodup := by
  let _ := Crates.accepting
  obtain ⟨es, m, ps, run, hb, hpayloads⟩ := exists_collidingRun
  refine ⟨es, m, ps, run, ?_, (payload_nonces run hb).1⟩
  rw [hpayloads]
  rfl

/-- A `build` and a `delegate` in flight together give out the same nonce. -/
theorem delegate_repeats_nonce : ∃ es m ps,
    Interleaving clientHandler (fun i => (@ClientCall.process Crates.accepting (collidingCalls i)))
      .new es m ps ∧
    Along CountersBelow es ∧ ¬ (es.filterMap (payload collidingCalls)).Nodup := by
  obtain ⟨es, m, ps, run, hb, hpayloads⟩ := exists_collidingRun
  refine ⟨es, m, ps, run, hb, ?_⟩
  rw [hpayloads]
  decide

end NearKit
