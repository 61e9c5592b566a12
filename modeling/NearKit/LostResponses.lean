import NearKit.ClientHistories
import NearKit.RpcCalls

/-!
# Lost responses

A send against a node that executes a transaction only if its nonce is new for the key.
Any response may be lost. The RPC client resends the same bytes and the send signs anew
after a rejection, so often as it has retries; no second transaction of a send is executed
as long as the rejections are of transactions that were not.
-/
namespace NearKit

/-! ## The node -/

/-- The current nonce of each key on the node, the manager of the client, and the
transactions executed, newest first, with the process that submitted each. -/
structure World (ι : Type) where
  nonces : AccountId → PublicKey → Nonce
  manager : NonceManager
  executed : List (ι × SignedTransaction)

namespace World
variable {ι : Type}

/-- The nonce on the node of the key that signs the transaction. -/
def current (w : World ι) (tx : SignedTransaction) : Nonce :=
  w.nonces tx.transaction.signerId tx.transaction.publicKey

def execute (w : World ι) (i : ι) (tx : SignedTransaction) : World ι where
  nonces id key :=
    if id = tx.transaction.signerId ∧ key = tx.transaction.publicKey then tx.transaction.nonce
    else w.nonces id key
  manager := w.manager
  executed := (i, tx) :: w.executed

/-- The transactions of process `i` that the node has executed. -/
def executedBy [DecidableEq ι] (w : World ι) (i : ι) : List SignedTransaction :=
  w.executed.filterMap fun e => if e.1 = i then some e.2 else none

/-- Other clients use keys of the node. -/
structure Raises (w w' : World ι) : Prop where
  nonces : ∀ id key, w.nonces id key ≤ w'.nonces id key
  manager : w'.manager = w.manager
  executed : w'.executed = w.executed

/-- A response lost on its way, as the client sees it. -/
def Lost (a : Except RpcError RawTransactionResponse) : Prop :=
  ∃ e, a = .error e ∧ e.isRetryable = true

/-- What the node does with a transaction submitted by `i`, and what the client is told. -/
inductive Submitted (w : World ι) (i : ι) (tx : SignedTransaction) :
    Except RpcError RawTransactionResponse → World ι → Prop where
  | executed {a : Except RpcError RawTransactionResponse}
      (fresh : w.current tx < tx.transaction.nonce) (response : (∃ r, a = .ok r) ∨ Lost a) :
      Submitted w i tx a (w.execute i tx)
  | invalidNonce {a : Except RpcError RawTransactionResponse}
      (stale : ¬ w.current tx < tx.transaction.nonce)
      (response : a = .error (.invalidTx (.invalidNonce (w.current tx) tx.transaction.nonce)) ∨
        Lost a) : Submitted w i tx a w
  | refused {a : Except RpcError RawTransactionResponse}
      (fresh : w.current tx < tx.transaction.nonce)
      (response : ∀ akNonce txNonce, a ≠ .error (.invalidTx (.invalidNonce akNonce txNonce))) :
      Submitted w i tx a w

end World

/-- The client answers nonce requests from its manager and the node every attempt to
submit, after the other clients have had their turn. Every other answer is free. -/
def nodeHandler {ι : Type} (i : ι) (w : World ι) :
    (q : WireRequest) → WireAnswer q → World ι → Prop
  | .client (.nextNonce network id key chain), nonce, w' =>
    (nonce, w'.manager) = w.manager.next network id key chain ∧
      w'.nonces = w.nonces ∧ w'.executed = w.executed
  | .rpc (.tryCall request), a, w' =>
    ∃ w₁, w.Raises w₁ ∧ w₁.Submitted i request.params.signedTx a w'
  | _, _, w' => w.Raises w'

/-! ## The phases of a submission -/

/-- How far a send is with the transaction it has signed last, and how many of its
transactions were rejected so that a new signature may help. -/
inductive SubmitPhase where
  | unsigned (spent : ℕ)
  | signed (spent : ℕ)
  | submitted (spent : ℕ) (tx : SignedTransaction)

namespace SubmitPhase

def spent : SubmitPhase → ℕ
  | unsigned spent | signed spent | submitted spent _ => spent

/-- A transaction is signed while the retries last, then submitted and resent unchanged. -/
def Allows (retries : ℕ) : SubmitPhase → WireRequest → Prop
  | unsigned spent, .client (.sign ..) => spent ≤ retries
  | unsigned _, .client _ => True
  | signed _, .rpc _ => True
  | submitted _ tx, .rpc (.tryCall request) => request.params.signedTx = tx
  | submitted .., .rpc _ => True
  | _, _ => False

/-- Only a rejection that a new signature may overcome leads back to the start. -/
def answered (spent : ℕ) (tx : SignedTransaction) :
    Except RpcError RawTransactionResponse → SubmitPhase
  | .error (.invalidTx e) => if e.isTransient then unsigned (spent + 1) else submitted spent tx
  | _ => submitted spent tx

def next : SubmitPhase → (q : WireRequest) → WireAnswer q → SubmitPhase
  | phase, .client (.sign ..), .ok _ => signed phase.spent
  | phase, .rpc (.tryCall request), a => answered phase.spent request.params.signedTx a
  | phase, _, _ => phase

end SubmitPhase

def submissions (retries : ℕ) : Monitor WireRequest WireAnswer SubmitPhase where
  start := .unsigned 0
  allows := SubmitPhase.Allows retries
  next := SubmitPhase.next

/-- A rejection that a new signature may overcome. -/
def isTransientRejection : Exchange WireRequest WireAnswer → Bool
  | ⟨.rpc (.tryCall _), .error (.invalidTx e)⟩ => e.isTransient
  | _ => false

def retriesSpent (xs : List (Exchange WireRequest WireAnswer)) : ℕ := xs.countP isTransientRejection

private theorem SubmitPhase.spent_answered (spent : ℕ) {request : JsonRpcRequest SendTxParams}
    (a : Except RpcError RawTransactionResponse) :
    (answered spent request.params.signedTx a).spent =
      spent + if isTransientRejection ⟨.rpc (.tryCall request), a⟩ then 1 else 0 := by
  cases a with
  | ok response => rfl
  | error e =>
    cases e with
    | invalidTx e =>
      unfold answered
      cases ht : e.isTransient with
      | true => simp [isTransientRejection, ht, SubmitPhase.spent]
      | false => simp [isTransientRejection, ht, SubmitPhase.spent]
    | _ => rfl

theorem spent_after (retries : ℕ) (xs : List (Exchange WireRequest WireAnswer)) :
    ((submissions retries).after xs).spent = retriesSpent xs := by
  induction xs with
  | nil => rfl
  | cons x xs ih =>
    rw [retriesSpent, List.countP_cons]
    change _ = retriesSpent xs + _
    rw [← ih]
    obtain ⟨q, a⟩ := x
    cases q with
    | client q =>
      cases q with
      | sign key message => cases a <;> rfl
      | _ => rfl
    | rpc q =>
      cases q with
      | tryCall request => exact SubmitPhase.spent_answered _ a
      | _ => rfl

/-! ## A call resends the same transaction -/

/-- After a rejection that a new signature may overcome, a call is at the start again. -/
def CallPost (spent : ℕ) (phase : SubmitPhase) (r : Option (Except RpcError RawTransactionResponse)) :
    Prop :=
  ∀ e, r = some (.error (.invalidTx e)) → e.isTransient = true → phase = .unsigned (spent + 1)

private theorem SubmitPhase.answered_of_isRetryable {spent : ℕ} {tx : SignedTransaction}
    {e : RpcError} (h : e.isRetryable = true) :
    SubmitPhase.answered spent tx (.error e) = .submitted spent tx := by
  cases e with
  | invalidTx e =>
    cases ht : e.isTransient with
    | true =>
      rw [e.not_isRetryable_of_isTransient ht] at h
      cases h
    | false => exact if_neg (Bool.not_eq_true _ ▸ ht)
  | _ => rfl

def Submitting (spent : ℕ) (tx : SignedTransaction) (phase : SubmitPhase) : Prop :=
  phase = .signed spent ∨ phase = .submitted spent tx

theorem attempted_of_submitting {retries spent : ℕ} (request : JsonRpcRequest SendTxParams)
    {phase : SubmitPhase} (h : Submitting spent request.params.signedTx phase)
    (a : Except RpcError RawTransactionResponse) :
    RpcClient.attempted (submissions retries).onRpc phase request a =
      .answered spent request.params.signedTx a := by
  rcases h with rfl | rfl <;> rfl

private theorem allowsCall (config : RetryConfig) (params : SendTxParams) (retries spent : ℕ) :
    RpcClient.AllowsCall (submissions retries).onRpc config "send_tx" params
      (Submitting spent params.signedTx) where
  requestId phase h := by rcases h with rfl | rfl <;> trivial
  tryCall phase id h := by
    rcases h with rfl | rfl
    · trivial
    · rfl
  sleep phase id e ms h hretryable _ := by
    rw [attempted_of_submitting ⟨"2.0", id, "send_tx", params⟩ h,
      SubmitPhase.answered_of_isRetryable hretryable]
    exact ⟨trivial, .inr rfl⟩

private theorem sendTx_obeys [Crates] (config : RetryConfig) (tx : SignedTransaction)
    (status : TxExecutionStatus) (retries spent : ℕ) :
    (RpcClient.wire config (.sendTx tx status)).Obeys (submissions retries) (CallPost spent)
      (.signed spent) := by
  apply (allowsCall config ⟨tx, status⟩ retries spent).wire_sendTx_obeys
  · intro phase id answer txHash h e he ht
    rw [attempted_of_submitting ⟨"2.0", id, "send_tx", ⟨tx, status⟩⟩ h]
    cases answer with
    | ok response => cases he
    | error e' =>
      cases he
      exact if_pos ht
  · exact nofun
  · exact .inl rfl

/-! ## A send signs anew only after a rejection -/

/-- The retries that the loop of a send has, and those it has used up. -/
def TransactionSend.retries (t : TransactionSend) : Monitor Request Answer ℕ where
  start := 0
  allows spent
    | .sign .. => spent ≤ t.builder.maxNonceRetries.toNat
    | _ => True
  next spent
    | .sendTx .., .error (.invalidTx e) => if e.isTransient then spent + 1 else spent
    | _, _ => spent

private theorem TransactionSend.retryLoop_retries [Crates] (t : TransactionSend) (signer : Signer)
    {left spent : ℕ} (attempt : UInt32) (lastError : Option Error) (lastAkNonce : Option Nonce)
    (hleft : spent + left = t.builder.maxNonceRetries.toNat + 1) :
    (t.retryLoop signer left attempt lastError lastAkNonce).Obeys t.retries (fun _ _ => True) spent := by
  induction left generalizing attempt spent lastError lastAkNonce with
  | zero => trivial
  | succ left ih =>
    refine ⟨trivial, fun key => ⟨trivial, fun view => ?_⟩⟩
    cases view with
    | error e => trivial
    | ok accessKey =>
      refine ⟨trivial, fun nonce => ?_⟩
      cases hhash : (t.builder.transaction signer.accountId key.publicKey nonce
          accessKey.blockHash).getHash with
      | error e =>
        simp only [hhash]
        trivial
      | ok txHash =>
        simp only [hhash]
        refine ⟨show spent ≤ _ by omega, fun signature => ?_⟩
        cases signature with
        | error e => trivial
        | ok signature =>
          refine ⟨trivial, fun result => ?_⟩
          beta_reduce
          cases result with
          | ok response => trivial
          | error e =>
            cases e with
            | invalidTx e =>
              cases e with
              | invalidNonce akNonce txNonce =>
                by_cases hlt : attempt < t.builder.maxNonceRetries
                · rw [afterSend_invalidNonce, if_pos hlt]
                  exact ih _ _ _ (show spent + 1 + left = _ by omega)
                · rw [afterSend_invalidNonce, if_neg hlt]
                  trivial
              | expired =>
                by_cases hlt : attempt + 1 < t.builder.maxNonceRetries
                · rw [afterSend_expired, if_pos hlt]
                  exact ih _ _ _ (show spent + 1 + left = _ by omega)
                · rw [afterSend_expired, if_neg hlt]
                  trivial
              | _ => trivial
            | _ => trivial

private theorem TransactionSend.intoFuture_retries [Crates] (t : TransactionSend) :
    t.intoFuture.Obeys t.retries (fun _ _ => True) 0 := by
  by_cases ha : t.builder.actions.isEmpty
  · rw [intoFuture, if_pos ha]
    trivial
  · cases hs : t.builder.effectiveSigner with
    | none =>
      rw [intoFuture, if_neg ha, hs]
      trivial
    | some signer =>
      rw [intoFuture, if_neg ha, hs]
      exact t.retryLoop_retries signer 0 none none (Nat.zero_add _)

/-- The phase of an attempt and the retries used up, with the phase of its submission. -/
def PhasesAgree : Phase × ℕ → SubmitPhase → Prop
  | (.signed _, spent), phase => phase = .signed spent
  | (.stopped, _), _ => True
  | (_, spent), phase => phase = .unsigned spent

/-- A call of the RPC client that starts in corresponding phases ends in such. -/
theorem wire_sendTx_obeys [Crates] (config : RetryConfig) (t : TransactionSend)
    (tx tx' : SignedTransaction) (status : TxExecutionStatus) (retries spent : ℕ) :
    (RpcClient.wire config (.sendTx tx' status)).Obeys (submissions retries)
      (fun submit r => ∀ a, r = some a → PhasesAgree
        ((t.builder.attempts.prod t.retries).next (.signed tx, spent) (.sendTx tx' status) a) submit)
      (.signed spent) := by
  apply (sendTx_obeys config tx' status retries spent).imp
  rintro phase _ hpost a rfl
  cases a with
  | ok response => trivial
  | error e =>
    cases e with
    | invalidTx e =>
      cases e with
      | invalidNonce | expired => exact hpost _ rfl rfl
      | _ => trivial
    | _ => trivial

private theorem wire_obeys [Crates] (config : RetryConfig) (t : TransactionSend) (phase : Phase × ℕ)
    (submit : SubmitPhase) (q : Request) (h : PhasesAgree phase submit)
    (ha : (t.builder.attempts.prod t.retries).allows phase q) :
    (RpcClient.wire config q).Obeys (submissions t.builder.maxNonceRetries.toNat)
      (fun submit r => ∀ a, r = some a →
        PhasesAgree ((t.builder.attempts.prod t.retries).next phase q a) submit) submit := by
  obtain ⟨phase, spent⟩ := phase
  obtain ⟨ha, hspent⟩ := ha
  cases phase with
  | idle carried =>
    cases h
    cases q with
    | key | publicKey =>
      refine ⟨trivial, fun a a' heq => ?_⟩
      cases heq
      rfl
    | _ => exact False.elim ha
  | claimed carried publicKey =>
    cases h
    cases q with
    | viewAccessKey =>
      refine ⟨trivial, fun a a' heq => ?_⟩
      cases heq
      cases a with
      | error e => trivial
      | ok accessKey => rfl
    | _ => exact False.elim ha
  | fetched carried publicKey accessKey =>
    cases h
    cases q with
    | nextNonce =>
      refine ⟨trivial, fun a a' heq => ?_⟩
      cases heq
      rfl
    | _ => exact False.elim ha
  | allocated tx =>
    cases h
    cases q with
    | sign =>
      refine ⟨hspent, fun a a' heq => ?_⟩
      cases heq
      cases a with
      | error e => trivial
      | ok signature => rfl
    | _ => exact False.elim ha
  | signed tx =>
    cases h
    cases q with
    | sendTx tx' status => exact wire_sendTx_obeys config t tx tx' status _ spent
    | _ => exact False.elim ha
  | stopped => exact False.elim ha

private theorem overRpc_obeys [Crates] (config : RetryConfig) (t : TransactionSend) :
    (t.overRpc config).Obeys (submissions t.builder.maxNonceRetries.toNat) (fun _ _ => True)
      (.unsigned 0) :=
  (t.intoFuture_obeys.prod t.intoFuture_retries).expand PhasesAgree (wire_obeys config t)
    (fun _ _ _ _ _ => trivial) (fun _ => trivial) rfl

/-! ## What the node has executed -/

section
variable {ι : Type} [DecidableEq ι] {i : ι} {w w' : World ι} {retries : ℕ}

/-- What each phase of a send leaves open about its transactions. While there is a retry
left, the send is at the start only if none was executed. -/
def Executes (retries : ℕ) (w : World ι) (i : ι) : SubmitPhase → Prop
  | .unsigned spent => (w.executedBy i).length ≤ 1 ∧ (spent ≤ retries → w.executedBy i = [])
  | .signed _ => w.executedBy i = []
  | .submitted _ tx => w.executedBy i = [] ∨
    w.executedBy i = [tx] ∧ tx.transaction.nonce ≤ w.current tx

theorem Executes.length_le {phase : SubmitPhase} (h : Executes retries w i phase) :
    (w.executedBy i).length ≤ 1 := by
  cases phase with
  | unsigned spent => exact h.1
  | signed spent =>
    rw [show w.executedBy i = [] from h]
    exact Nat.zero_le 1
  | submitted spent tx =>
    rcases h with h | ⟨h, -⟩
    · rw [h]
      exact Nat.zero_le 1
    · rw [h]
      exact Nat.le_refl 1

/-- A step that executes nothing of process `i` and lowers no nonce. -/
structure World.Grows (w w' : World ι) (i : ι) : Prop where
  nonces : ∀ id key, w.nonces id key ≤ w'.nonces id key
  executed : w'.executedBy i = w.executedBy i

omit [DecidableEq ι] in
theorem World.Raises.refl (w : World ι) : w.Raises w where
  nonces _ _ := UInt64.le_refl _
  manager := rfl
  executed := rfl

theorem World.Raises.grows (h : w.Raises w') : w.Grows w' i where
  nonces := h.nonces
  executed := by
    unfold World.executedBy
    rw [h.executed]

theorem Executes.grows {phase : SubmitPhase} (h : Executes retries w i phase) (hw : w.Grows w' i) :
    Executes retries w' i phase := by
  cases phase with
  | unsigned spent =>
    unfold Executes
    rw [hw.executed]
    exact h
  | signed spent =>
    unfold Executes
    rw [hw.executed]
    exact h
  | submitted spent tx =>
    unfold Executes
    rw [hw.executed]
    exact h.imp_right fun ⟨hx, hle⟩ => ⟨hx, UInt64.le_trans hle (hw.nonces _ _)⟩

omit [DecidableEq ι] in
theorem World.current_execute (w : World ι) (i : ι) (tx : SignedTransaction) :
    (w.execute i tx).current tx = tx.transaction.nonce :=
  if_pos ⟨rfl, rfl⟩

theorem World.executedBy_execute_self (w : World ι) (i : ι) (tx : SignedTransaction) :
    (w.execute i tx).executedBy i = tx :: w.executedBy i :=
  List.filterMap_cons_some (if_pos rfl)

theorem World.grows_execute_of_ne (w : World ι) {i j : ι} (hj : j ≠ i) {tx : SignedTransaction}
    (hfresh : w.current tx < tx.transaction.nonce) : w.Grows (w.execute j tx) i where
  nonces id key := by
    unfold World.execute
    simp only
    split_ifs with hkey
    · rw [hkey.1, hkey.2]
      exact UInt64.le_of_lt hfresh
    · exact UInt64.le_refl _
  executed := List.filterMap_cons_none (if_neg hj)

private theorem World.Grows.trans {w₁ : World ι} (h : w.Grows w₁ i) (h' : w₁.Grows w' i) :
    w.Grows w' i where
  nonces id key := UInt64.le_trans (h.nonces id key) (h'.nonces id key)
  executed := h'.executed.trans h.executed

private theorem World.Grows.refl (w : World ι) (i : ι) : w.Grows w i where
  nonces _ _ := UInt64.le_refl _
  executed := rfl

private theorem grows_of_submitted_of_ne {j : ι} (hj : j ≠ i) {tx : SignedTransaction}
    {a : Except RpcError RawTransactionResponse} (h : w.Submitted j tx a w') : w.Grows w' i := by
  cases h with
  | executed fresh response => exact w.grows_execute_of_ne hj fresh
  | invalidNonce stale response => exact .refl w i
  | refused fresh response => exact .refl w i

/-- A process that does not submit, or another one that does, executes nothing of `i`. -/
theorem grows_of_nodeHandler {j : ι} {q : WireRequest} {a : WireAnswer q}
    (h : nodeHandler j w q a w') (hq : j ≠ i ∨ ∀ request, q ≠ .rpc (.tryCall request)) :
    w.Grows w' i := by
  cases q with
  | client q =>
    cases q with
    | nextNonce network id key chain =>
      obtain ⟨-, hnonces, hexecuted⟩ := h
      constructor
      · intro id key
        rw [hnonces]
        exact UInt64.le_refl _
      · unfold World.executedBy
        rw [hexecuted]
    | _ => exact World.Raises.grows h
  | rpc q =>
    cases q with
    | tryCall request =>
      obtain ⟨w₁, hraises, hsubmitted⟩ := h
      rcases hq with hj | hq
      · exact hraises.grows.trans (grows_of_submitted_of_ne hj hsubmitted)
      · exact absurd rfl (hq request)
    | _ => exact World.Raises.grows h

/-- The node has executed none of the transactions of the send that it rejects for their
nonce while the send has a retry left. -/
def RejectsUnexecuted {α : Type} (retries : ℕ) (i : ι)
    (es : List (Occurrence ι (World ι) WireRequest WireAnswer α)) :
    Occurrence ι (World ι) WireRequest WireAnswer α → Prop
  | .asked j w (.rpc (.tryCall request)) (.error (.invalidTx (.invalidNonce _ _))) =>
    j = i → retriesSpent (exchangesOf i es) < retries →
      request.params.signedTx ∉ w.executedBy i
  | _ => True

/-- Whenever the send signs, the node has executed none of its transactions. -/
def SignsUnexecuted {α : Type} (i : ι) (_ : List (Occurrence ι (World ι) WireRequest WireAnswer α)) :
    Occurrence ι (World ι) WireRequest WireAnswer α → Prop
  | .asked j w (.client (.sign _ _)) _ => j = i → w.executedBy i = []
  | _ => True

/-- Nothing but a rejection makes a further signature possible. -/
theorem executes_answered {spent : ℕ} {tx : SignedTransaction}
    (a : Except RpcError RawTransactionResponse) (h : Executes retries w i (.submitted spent tx))
    (hnone : ∀ e, a = .error (.invalidTx e) → e.isTransient = true → spent < retries →
      w.executedBy i = []) : Executes retries w i (SubmitPhase.answered spent tx a) := by
  cases a with
  | ok response => exact h
  | error e =>
    cases e with
    | invalidTx e =>
      show Executes retries w i (if e.isTransient then .unsigned (spent + 1) else .submitted spent tx)
      split_ifs with ht
      · exact ⟨h.length_le, hnone e rfl ht⟩
      · exact h
    | _ => exact h

omit [DecidableEq ι] in
private theorem World.Lost.not_isTransient {a : Except RpcError RawTransactionResponse} (h : Lost a)
    {e : InvalidTxError} (he : a = .error (.invalidTx e)) : e.isTransient = false := by
  obtain ⟨e', rfl, hretry⟩ := h
  cases he
  by_contra ht
  rw [InvalidTxError.not_isRetryable_of_isTransient (Bool.not_eq_false _ ▸ ht)] at hretry
  cases hretry

/-- The node's answer to a transaction of which it may have executed only this one. -/
theorem executes_of_submitted {spent : ℕ} {tx : SignedTransaction}
    {a : Except RpcError RawTransactionResponse} (h : Executes retries w i (.submitted spent tx))
    (hw : w.Submitted i tx a w')
    (hr : ∀ akNonce txNonce, a = .error (.invalidTx (.invalidNonce akNonce txNonce)) →
      spent < retries → tx ∉ w.executedBy i) :
    Executes retries w' i (SubmitPhase.answered spent tx a) := by
  -- a fresh transaction is not executed yet, and so none is
  have hfresh : w.current tx < tx.transaction.nonce → w.executedBy i = [] := by
    intro fresh
    rcases h with h | ⟨-, hle⟩
    · exact h
    · exact absurd fresh (UInt64.not_lt.mpr hle)
  cases hw with
  | executed fresh response =>
    apply executes_answered
    · refine .inr ⟨?_, ?_⟩
      · rw [w.executedBy_execute_self, hfresh fresh]
      · rw [w.current_execute]
        exact UInt64.le_refl _
    · intro e he ht
      rcases response with ⟨r, rfl⟩ | hlost
      · cases he
      · rw [hlost.not_isTransient he] at ht
        cases ht
  | invalidNonce stale response =>
    apply executes_answered a h
    intro e he ht hspent
    rcases response with ha | hlost
    · have hmem := hr _ _ ha hspent
      rcases h with h | ⟨h, -⟩
      · exact h
      · rw [h] at hmem
        exact absurd List.mem_cons_self hmem
    · rw [hlost.not_isTransient he] at ht
      cases ht
  | refused fresh response => exact executes_answered a h fun _ _ _ _ => hfresh fresh

theorem executes_next {phase : SubmitPhase} {q : WireRequest} {a : WireAnswer q}
    (h : Executes retries w i phase) (ha : phase.Allows retries q) (hw : nodeHandler i w q a w')
    (hr : ∀ request akNonce txNonce, (⟨q, a⟩ : Exchange WireRequest WireAnswer) =
      ⟨.rpc (.tryCall request), .error (.invalidTx (.invalidNonce akNonce txNonce))⟩ →
      phase.spent < retries → request.params.signedTx ∉ w.executedBy i) :
    Executes retries w' i (phase.next q a) := by
  cases q with
  | client q =>
    have hgrows : w.Grows w' i := grows_of_nodeHandler hw (.inr nofun)
    cases q with
    | sign key message =>
      cases phase with
      | unsigned spent =>
        cases a with
        | ok signature => exact hgrows.executed.trans (h.2 ha)
        | error e => exact h.grows hgrows
      | _ => exact False.elim ha
    | _ => exact h.grows hgrows
  | rpc q =>
    cases q with
    | tryCall request =>
      obtain ⟨w₁, hraises, hsubmitted⟩ := hw
      have hlast : Executes retries w i (.submitted phase.spent request.params.signedTx) := by
        cases phase with
        | unsigned spent => exact False.elim ha
        | signed spent => exact .inl h
        | submitted spent tx =>
          have htx : request.params.signedTx = tx := ha
          rw [htx]
          exact h
      apply executes_of_submitted (hlast.grows hraises.grows) hsubmitted
      intro akNonce txNonce heq hspent
      rw [hraises.grows.executed]
      exact hr request akNonce txNonce (by rw [heq]) hspent
    | requestId => exact h.grows (grows_of_nodeHandler hw (.inr nofun))
    | sleep ms => exact h.grows (grows_of_nodeHandler hw (.inr nofun))

private theorem executes_of_run {α : Type} {start : ι → Process WireRequest WireAnswer α}
    {w₀ : World ι} {es : List (Occurrence ι (World ι) WireRequest WireAnswer α)}
    {ps : ι → Option (Process WireRequest WireAnswer α)}
    (hi : (start i).Obeys (submissions retries) (fun _ _ => True) (.unsigned 0))
    (run : Interleaving nodeHandler start w₀ es w ps) (h₀ : w₀.executedBy i = [])
    (hr : Along (RejectsUnexecuted retries i) es) :
    Executes retries w i ((submissions retries).after (exchangesOf i es)) ∧
      Along (SignsUnexecuted i) es := by
  induction run with
  | init =>
    refine ⟨⟨?_, fun _ => h₀⟩, trivial⟩
    rw [h₀]
    exact Nat.zero_le 1
  | @asked es w w' ps j q a resume run waiting step ih =>
    obtain ⟨hexecutes, hsigns⟩ := ih hr.2
    by_cases hj : j = i
    · subst hj
      rw [exchangesOf_asked_self]
      have ha := ((run.guards hi).1 _ waiting).1
      constructor
      · apply executes_next hexecutes ha step
        intro request akNonce txNonce hq hspent
        cases hq
        rw [spent_after] at hspent
        exact hr.1 rfl hspent
      · refine ⟨?_, hsigns⟩
        cases q with
        | rpc q => trivial
        | client q =>
          cases q with
          | sign key message =>
            intro _
            cases hphase : (submissions retries).after (exchangesOf j es) with
            | unsigned spent =>
              rw [hphase] at hexecutes ha
              exact hexecutes.2 ha
            | _ =>
              rw [hphase] at ha
              exact False.elim ha
          | _ => trivial
    · rw [exchangesOf_asked_of_ne hj]
      refine ⟨hexecutes.grows (grows_of_nodeHandler step (.inl hj)), ?_, hsigns⟩
      cases q with
      | rpc q => trivial
      | client q => cases q <;> first | exact fun h => absurd h hj | trivial
  | returned run finished ih =>
    obtain ⟨hexecutes, hsigns⟩ := ih hr.2
    exact ⟨hexecutes, trivial, hsigns⟩

/-! ## Running an attempt over the RPC client -/

section
variable {α : Type} {f : Exit SendResponse → α} {start : ι → Process WireRequest WireAnswer α}
variable {w₀ : World ι} {es : List (Occurrence ι (World ι) WireRequest WireAnswer α)}
variable {ps : ι → Option (Process WireRequest WireAnswer α)}

def RetryConfig.sample : RetryConfig := ⟨1, 100, 1000⟩

/-- Wherever a send over the RPC client waits for its next attempt, the pool can run the attempt up to
the signed transaction. -/
theorem exists_signedRun [Crates] (config : RetryConfig) (t : TransactionSend) {signer : Signer} {left : ℕ}
    {attempt : UInt32} {e : Option Error} {carried : Option Nonce}
    (run : Interleaving nodeHandler start w₀ es w ps)
    (hps : ps i = some (((t.retryLoop signer (left + 1) attempt e carried).expand
      (RpcClient.wire config) .panic).map f))
    (hfits : Format.action.vec.Fits t.builder.actions) (key : SigningKey) (accessKey : AccessKeyView)
    (signature : Signature) {nonce : Nonce} {m : NonceManager}
    (hnext : (nonce, m) = w.manager.next t.builder.url signer.accountId key.publicKey
      (carried.getD accessKey.nonce)) :
    ∃ es' ps' hash, Interleaving nodeHandler start w₀ es' ⟨w.nonces, m, w.executed⟩ ps' ∧
      ps' i = some (((Process.ask (.sendTx ⟨t.builder.transaction signer.accountId key.publicKey nonce
          accessKey.blockHash, signature⟩ t.waitLevel.status) fun result =>
        t.afterSend signer.accountId attempt
          (fun e ak => t.retryLoop signer left (attempt + 1) e ak) result).expand
        (RpcClient.wire config) .panic).map f) ∧
      ((t.builder.transaction signer.accountId key.publicKey nonce accessKey.blockHash).getHash =
        .ok hash) ∧
      ∀ retries, Along (RejectsUnexecuted retries i) es → Along (RejectsUnexecuted retries i) es' := by
  obtain ⟨hash, hhash⟩ := t.builder.exists_getHash hfits signer.accountId key.publicKey nonce
    accessKey.blockHash
  let w' : World ι := ⟨w.nonces, m, w.executed⟩
  have hserved : nodeHandler i w (.client (.nextNonce t.builder.url signer.accountId key.publicKey
      (carried.getD accessKey.nonce))) nonce w' := ⟨hnext, rfl, rfl⟩
  have hsame := World.Raises.refl w
  obtain ⟨ps₁, run₁, hps₁, -⟩ := run.ask hps (q := .client (.key signer)) rfl key hsame
  obtain ⟨ps₂, run₂, hps₂, -⟩ := run₁.ask hps₁
    (q := .client (.viewAccessKey signer.accountId key.publicKey .final)) rfl (.ok accessKey) hsame
  obtain ⟨ps₃, run₃, hps₃, -⟩ := run₂.ask hps₂
    (q := .client (.nextNonce t.builder.url signer.accountId key.publicKey
      (carried.getD accessKey.nonce))) rfl nonce hserved
  simp only [Process.bind, Option.elim_some, hhash] at hps₃
  obtain ⟨ps₄, run₄, hps₄, -⟩ := run₃.ask hps₃ (q := .client (.sign key hash)) rfl
    (.ok signature) (World.Raises.refl w')
  exact ⟨_, ps₄, hash, run₄, hps₄, hhash, fun _ hr => ⟨trivial, trivial, trivial, trivial, hr⟩⟩

/-- A submission whose first response is lost. The second one rejects it or is lost too. -/
theorem exists_lostRun [Crates] {tx : SignedTransaction} {status : TxExecutionStatus}
    {k : Answer (.sendTx tx status) → Operation SendResponse}
    (run : Interleaving nodeHandler start w₀ es w ps)
    (hps : ps i = some (((Process.ask (.sendTx tx status) k).expand (RpcClient.wire .sample)
      .panic).map f)) {hash : CryptoHash} (hhash : tx.getHash = .ok hash)
    (hfresh : w.current tx < tx.transaction.nonce) {e : RpcError}
    (he : e = .invalidTx (.invalidNonce tx.transaction.nonce tx.transaction.nonce) ∨
      e.isRetryable = true) :
    ∃ es' ps', Interleaving nodeHandler start w₀ es' (w.execute i tx) ps' ∧
      ps' i = some (((k (.error e)).expand (RpcClient.wire .sample) .panic).map f) ∧
      (e.isRetryable = true → ∀ retries, Along (RejectsUnexecuted retries i) es →
        Along (RejectsUnexecuted retries i) es') := by
  let w' := w.execute i tx
  let request : JsonRpcRequest SendTxParams := ⟨"2.0", 0, "send_tx", ⟨tx, status⟩⟩
  let lost : Except RpcError RawTransactionResponse := .error (.timeout 0)
  let second : Except RpcError RawTransactionResponse := .error e
  have hexecuted : nodeHandler i w (.rpc (.tryCall request)) lost w' :=
    ⟨w, .refl w, .executed hfresh (.inr ⟨_, rfl, rfl⟩)⟩
  have hresponse : nodeHandler i w' (.rpc (.tryCall request)) second w' := by
    have hcurrent := w.current_execute i tx
    refine ⟨w', .refl w', .invalidNonce ?_ ?_⟩
    · rw [hcurrent]
      exact UInt64.lt_irrefl _
    · rw [hcurrent]
      exact he.imp (congrArg Except.error) fun hretry => ⟨e, rfl, hretry⟩
  have hcall : RpcClient.sendTx .sample tx status =
      (RpcClient.callLoop .sample "send_tx" ⟨tx, status⟩ 2 0).map
        (Option.map (Except.map fun response => { response with transactionHash := hash })) :=
    RpcClient.sendTx_eq .sample status hhash
  have hwire : RpcClient.wire .sample (.sendTx tx status) = (RpcClient.sendTx .sample tx status).expand
      (fun q => .ask (.rpc q) fun a => .done (some a)) none := rfl
  rw [Process.expand, hwire, hcall] at hps
  obtain ⟨ps₁, run₁, hps₁, -⟩ := run.ask hps (q := .rpc .requestId) rfl (0 : UInt64) (.refl w)
  obtain ⟨ps₂, run₂, hps₂, -⟩ := run₁.ask hps₁ (q := .rpc (.tryCall request)) rfl lost hexecuted
  obtain ⟨ps₃, run₃, hps₃, -⟩ := run₂.ask hps₂ (q := .rpc (.sleep 100)) rfl () (.refl w')
  obtain ⟨ps₄, run₄, hps₄, -⟩ := run₃.ask hps₃ (q := .rpc .requestId) rfl (0 : UInt64) (.refl w')
  obtain ⟨ps₅, run₅, hps₅, -⟩ := run₄.ask hps₄ (q := .rpc (.tryCall request)) rfl second hresponse
  have hlast : ¬ (e.isRetryable = true ∧ (0 + 1 : UInt32) < RetryConfig.sample.totalAttempts - 1) :=
    fun h => absurd h.2 (by decide)
  simp only [second, Process.bind, Option.elim_some, if_neg hlast] at hps₅
  refine ⟨_, ps₅, run₅, hps₅, fun hretry _ hr => ⟨?_, trivial, trivial, trivial, trivial, hr⟩⟩
  cases e with
  | invalidTx e =>
    cases e with
    | invalidNonce => cases hretry
    | _ => trivial
  | _ => trivial

end
end

/-! ## Samples -/

def SignedTransaction.sample (nonce : Nonce) : SignedTransaction :=
  ⟨(TransactionBuilder.sample 2).transaction .alice (.sample 0) nonce (.zeros 32), .zero⟩

def World.sample : World Unit := ⟨fun _ _ => 5, .new, []⟩

/-- The sample node after the first transaction of the sample send. -/
def World.executedFirst : World Unit :=
  World.execute ⟨fun _ _ => 5, (NonceManager.new.next "testnet" .alice (.sample 0) 5).2, []⟩ ()
    (.sample 6)

def sampleSend [Crates] : Unit → Process WireRequest WireAnswer (Exit SendResponse) :=
  fun _ => ((TransactionSend.sample 2).overRpc .sample).map id

/-- The first transaction is executed and its response is lost. The resent one is rejected, or
its response is lost too. -/
theorem exists_lostFirstRun [Crates] (hfits : Format.action.vec.Fits [.transfer ⟨1⟩]) {e : RpcError}
    (he : e = .invalidTx (.invalidNonce 6 6) ∨ e.isRetryable = true) :
    ∃ es ps, Interleaving nodeHandler sampleSend .sample es .executedFirst ps ∧
      (e.isRetryable = true → Along (RejectsUnexecuted 2 ()) es) ∧
      ps () = some ((((TransactionSend.sample 2).afterSend Signer.sample.accountId 0
        (fun e ak => (TransactionSend.sample 2).retryLoop .sample 2 1 e ak) (.error e)).expand
          (RpcClient.wire .sample) .panic).map id) := by
  have run₀ : Interleaving nodeHandler sampleSend .sample [] .sample fun i => some (sampleSend i) :=
    .init
  have hps₀ : some (sampleSend ()) = some ((((TransactionSend.sample 2).retryLoop .sample (2 + 1) 0
    none none).expand (RpcClient.wire .sample) .panic).map id) := rfl
  obtain ⟨es₁, ps₁, hash, run₁, hps₁, hhash, hr₁⟩ := exists_signedRun .sample
    (.sample 2) run₀ hps₀ hfits ⟨.sample 0, 0⟩ (.sample 5) .zero rfl
  obtain ⟨es₂, ps₂, run₂, hps₂, hr₂⟩ := exists_lostRun run₁ hps₁ hhash (by decide) he
  exact ⟨es₂, ps₂, run₂, fun hretry => hr₂ hretry 2 (hr₁ 2 trivial), hps₂⟩

/-! ## At most one execution -/

/-- Against any node and any other activity, whatever responses are lost and for every
retry configuration of both loops: at most one of the transactions that a send signs is
executed, in every state reached, and the send never signs after one was, provided that the
transactions which the node rejects for their nonce while the send has a retry left were not
executed. -/
theorem send_executes_at_most_once [Crates] {ι α : Type} [DecidableEq ι] {i : ι}
    {start : ι → Process WireRequest WireAnswer α} {config : RetryConfig} {t : TransactionSend}
    {f : Exit SendResponse → α} {w₀ w : World ι}
    {es : List (Occurrence ι (World ι) WireRequest WireAnswer α)}
    {ps : ι → Option (Process WireRequest WireAnswer α)} (hi : start i = (t.overRpc config).map f)
    (run : Interleaving nodeHandler start w₀ es w ps) (h₀ : w₀.executedBy i = [])
    (hr : Along (RejectsUnexecuted t.builder.maxNonceRetries.toNat i) es) :
    (w.executedBy i).length ≤ 1 ∧ Along (SignsUnexecuted i) es := by
  have hobeys : (start i).Obeys (submissions t.builder.maxNonceRetries.toNat) (fun _ _ => True)
      (.unsigned 0) := by
    rw [hi]
    exact (overRpc_obeys config t).map
  obtain ⟨hexecutes, hsigns⟩ := executes_of_run hobeys run h₀ hr
  exact ⟨hexecutes.length_le, hsigns⟩

/-- Both responses to the first transaction are lost, and it has been executed once. -/
theorem send_executes_at_most_once_sample :
    ∃ es ps, Interleaving nodeHandler (@sampleSend Crates.accepting) .sample es .executedFirst ps ∧
      World.executedFirst.executedBy () = [.sample 6] ∧
      (World.executedFirst.executedBy ()).length ≤ 1 := by
  let _ := Crates.accepting
  obtain ⟨es, ps, run, hr, -⟩ := exists_lostFirstRun (by decide) (e := .timeout 0) (.inr rfl)
  refine ⟨es, ps, run, rfl, ?_⟩
  exact (send_executes_at_most_once (i := ()) (t := .sample 2) (f := id) rfl run rfl (hr rfl)).1

/-- The send takes the rejection of the executed transaction for one of a transaction that
was not, and signs the same actions with a new nonce. -/
theorem rejection_executes_twice :
    ∃ es w ps, Interleaving nodeHandler (@sampleSend Crates.accepting) .sample es w ps ∧
      ¬ (w.executedBy ()).length ≤ 1 := by
  let _ := Crates.accepting
  have hfits : Format.action.vec.Fits [.transfer ⟨1⟩] := by decide
  obtain ⟨es, ps, run, -, hps⟩ := exists_lostFirstRun hfits (.inl rfl)
  have hagain : ps () = some ((((TransactionSend.sample 2).retryLoop .sample (1 + 1) 1
    (some (.invalidTx (.invalidNonce 6 6))) (some 6)).expand (RpcClient.wire .sample)
      .panic).map id) := hps
  obtain ⟨es₁, ps₁, hash₁, run₁, hps₁, hhash, -⟩ := exists_signedRun .sample (.sample 2)
    run hagain hfits ⟨.sample 0, 0⟩ (.sample 6) .zero rfl
  obtain ⟨es₂, ps₂, run₂, -, -⟩ := exists_lostRun run₁ hps₁ hhash (by decide) (.inl rfl)
  refine ⟨es₂, _, ps₂, run₂, ?_⟩
  decide

end NearKit
