import NearKit.Lockstep
import NearKit.SendNonces
import NearKit.SharedNonces

/-!
# Isolation of keys

What the node reports as the nonce of one key, `A`, is replaced by other values. The calls
of the client make corresponding requests then, and sign the same with every other key and
leave the same entries for it, as long as a value reported for `A` is not taken to the
manager for another key.
-/
namespace NearKit

variable {ι α : Type}

/-! ## Environments that differ in what they report for a key -/

/-- The results of corresponding submissions. For the key `A` the nonces in a rejection are
replaced, and the hash in a response is that of another transaction. -/
def SameResult (A : PublicKey) (replace : Nonce → Nonce) (tx : SignedTransaction) :
    Except RpcError RawTransactionResponse → Except RpcError RawTransactionResponse → Prop
  | .ok response, .ok response' => tx.transaction.publicKey ≠ A → response = response'
  | .error (.invalidTx (.invalidNonce akNonce txNonce)),
      .error (.invalidTx (.invalidNonce akNonce' txNonce')) =>
    if tx.transaction.publicKey = A then akNonce' = replace akNonce
    else akNonce = akNonce' ∧ txNonce = txNonce'
  | .error e, .error e' => e = e'
  | _, _ => False

/-- The signers and the node answer requests of one kind alike. A signature is of another
message where the messages differ. What the manager hands out is not the environment's. -/
def SameAnswer (A : PublicKey) (replace : Nonce → Nonce) :
    (q q' : Request) → Answer q → Answer q' → Prop
  | .key _, .key _, key, key' => key = key'
  | .publicKey _, .publicKey _, publicKey, publicKey' => publicKey = publicKey'
  | .viewAccessKey .., .viewAccessKey .., view, view' => view = view'
  | .status, .status, height, height' => height = height'
  | .sign .., .sign .., result, result' => result.isOk = result'.isOk
  | .sendTx tx _, .sendTx _ _, result, result' => SameResult A replace tx result result'
  | _, _, _, _ => True

/-- Histories with the same schedule, in which the environment differs in the values that it
reports for `A` only: the one at the `n`th moment is replaced by `replace n`. -/
def SameEnvironment (A : PublicKey) (replace : ℕ → Nonce → Nonce) :
    List (ClientOccurrence ι α) → List (ClientOccurrence ι α) → Prop :=
  Alike fun n => SameAnswer A (replace n)

/-! ## What the calls have in common -/

/-- Two managers have the same entries for keys other than `A`. -/
def AgreeBesides (A : PublicKey) (m m' : NonceManager) : Prop :=
  ∀ key : NonceKey, key.2.2 ≠ A → m.nonces key = m'.nonces key

/-- Corresponding requests, after a rejection that reported the two values for `A`. -/
def SameRequest (A : PublicKey) (reported : Option (Nonce × Nonce)) : Request → Request → Prop
  | .key signer, .key signer' => signer = signer'
  | .publicKey signer, .publicKey signer' => signer = signer'
  | .viewAccessKey id key finality, .viewAccessKey id' key' finality' =>
    id = id' ∧ key = key' ∧ finality = finality'
  | .status, .status => True
  | .nextNonce network id key chain, .nextNonce network' id' key' chain' =>
    network = network' ∧ id = id' ∧ key = key' ∧ (chain = chain' ∨ reported = some (chain, chain'))
  | .sign key message, .sign key' message' =>
    key = key' ∧ (key.publicKey ≠ A → message = message')
  | .sendTx tx status, .sendTx tx' status' =>
    tx.transaction.publicKey = tx'.transaction.publicKey ∧ status = status' ∧
      (tx.transaction.publicKey ≠ A → tx.transaction = tx'.transaction)
  | _, _ => False

def SameNonce (A : PublicKey) : (q q' : Request) → Answer q → Answer q' → Prop
  | .nextNonce _ _ key _, .nextNonce .., nonce, nonce' => key ≠ A → nonce = nonce'
  | _, _, _, _ => True

/-- Two runs of the calls of a client. The state holds what was reported in both of them, if
the latest submission was rejected for a nonce of `A`. -/
def besides (A : PublicKey) (replace : ℕ → Nonce → Nonce) :
    Correspondence Request Answer (Option (Nonce × Nonce)) where
  start := none
  requests := SameRequest A
  answers n q q' a a' := SameAnswer A (replace n) q q' a a' ∧ SameNonce A q q' a a'
  next
    | n, _, .sendTx tx _, .error (.invalidTx (.invalidNonce akNonce _)) =>
      if tx.transaction.publicKey = A then some (akNonce, replace n akNonce) else none
    | _, _, .sendTx .., _ => none
    | _, reported, _, _ => reported

/-- The value that was reported for `A` to the latest submission of a process, with the one
in its place. -/
def reportedFor [DecidableEq ι] (A : PublicKey) (replace : ℕ → Nonce → Nonce) (i : ι) :
    List (ClientOccurrence ι α) → Option (Nonce × Nonce) :=
  (besides A replace).after i

/-- A value reported for `A` is taken to the manager for `A`, or neither it nor the one in its
place makes a difference there because the cache of the claimed key has reached both, or it
is not replaced. -/
def TakenToOwnKey [DecidableEq ι] (A : PublicKey) (replace : ℕ → Nonce → Nonce)
    (es : List (ClientOccurrence ι α)) : ClientOccurrence ι α → Prop
  | .asked i m (.nextNonce network id key _) _ =>
    ∀ ak ak', reportedFor A replace i es = some (ak, ak') →
      ak = ak' ∨ key = A ∨ m.Reached (network, id, key) ak ∧ m.Reached (network, id, key) ak'
  | _ => True

/-- The nonce an exchange brings for a key other than `A`. -/
def nonceBesides (A : PublicKey) : Exchange Request Answer → Option (PublicKey × Nonce)
  | ⟨.nextNonce _ _ key _, nonce⟩ => if key = A then none else some (key, nonce)
  | _ => none

/-- The message an exchange has signed with a key other than `A`. -/
def messageBesides (A : PublicKey) : Exchange Request Answer → Option (PublicKey × CryptoHash)
  | ⟨.sign key message, _⟩ => if key.publicKey = A then none else some (key.publicKey, message)
  | _ => none

/-- A process is handed the same nonces and signs the same messages for the other keys. -/
structure SameBesides [DecidableEq ι] (A : PublicKey) (i : ι)
    (es es' : List (ClientOccurrence ι α)) : Prop where
  nonces : (exchangesOf i es).filterMap (nonceBesides A) =
    (exchangesOf i es').filterMap (nonceBesides A)
  messages : (exchangesOf i es).filterMap (messageBesides A) =
    (exchangesOf i es').filterMap (messageBesides A)

/-! ## The calls correspond -/

variable {A : PublicKey} {replace : ℕ → Nonce → Nonce}

namespace TransactionBuilder
variable [Crates]

/-- Transactions that differ in their nonces are hashed, or neither is. -/
private theorem getHash_cases (b : TransactionBuilder) (signerId : AccountId)
    (publicKey : PublicKey) (nonce nonce' : Nonce) (blockHash : CryptoHash) :
    (∃ hash hash', (b.transaction signerId publicKey nonce blockHash).getHash = .ok hash ∧
      (b.transaction signerId publicKey nonce' blockHash).getHash = .ok hash' ∧
      (nonce = nonce' → hash = hash')) ∨
    ∃ e e', (b.transaction signerId publicKey nonce blockHash).getHash = .error e ∧
      (b.transaction signerId publicKey nonce' blockHash).getHash = .error e' := by
  cases hhash : (b.transaction signerId publicKey nonce blockHash).getHash with
  | ok hash =>
    obtain ⟨hash', hhash'⟩ :=
      b.exists_getHash (fits_of_getHash hhash) signerId publicKey nonce' blockHash
    refine .inl ⟨hash, hash', rfl, hhash', ?_⟩
    rintro rfl
    exact Except.ok.inj (hhash.symm.trans hhash')
  | error e =>
    cases hhash' : (b.transaction signerId publicKey nonce' blockHash).getHash with
    | error e' => exact .inr ⟨e, e', rfl, rfl⟩
    | ok hash' =>
      obtain ⟨hash, h⟩ :=
        b.exists_getHash (fits_of_getHash hhash') signerId publicKey nonce blockHash
      rw [h] at hhash
      cases hhash

omit [Crates] in
private theorem build_corresponds (b : TransactionBuilder) :
    b.build.Corresponds (besides A replace) none b.build := by
  by_cases ha : b.actions.isEmpty
  · rw [build, if_pos ha]
    trivial
  · cases hs : b.effectiveSigner with
    | none =>
      rw [build, if_neg ha, hs]
      trivial
    | some signer =>
      rw [build, if_neg ha, hs]
      refine ⟨rfl, fun n publicKey publicKey' hkey => ?_⟩
      cases (show publicKey = publicKey' from hkey.1)
      refine ⟨⟨rfl, rfl, rfl⟩, fun n view view' hview => ?_⟩
      cases (show view = view' from hview.1)
      cases view with
      | error e => trivial
      | ok accessKey => exact ⟨⟨rfl, rfl, rfl, .inl rfl⟩, fun _ _ _ _ => trivial⟩

private theorem sign_corresponds (b : TransactionBuilder) :
    b.sign.Corresponds (besides A replace) none b.sign := by
  by_cases ha : b.actions.isEmpty
  · rw [sign, if_pos ha]
    trivial
  · cases hs : b.effectiveSigner with
    | none =>
      rw [sign, if_neg ha, hs]
      trivial
    | some signer =>
      rw [sign, if_neg ha, hs]
      refine ⟨rfl, fun n key key' hkey => ?_⟩
      cases (show key = key' from hkey.1)
      refine ⟨⟨rfl, rfl, rfl⟩, fun n view view' hview => ?_⟩
      cases (show view = view' from hview.1)
      cases view with
      | error e => trivial
      | ok accessKey =>
        refine ⟨⟨rfl, rfl, rfl, .inl rfl⟩, fun n nonce nonce' hnonce => ?_⟩
        rcases b.getHash_cases signer.accountId key.publicKey nonce nonce' accessKey.blockHash with
          ⟨hash, hash', hhash, hhash', heq⟩ | ⟨e, e', hhash, hhash'⟩
        · simp only [hhash, hhash']
          refine ⟨⟨rfl, fun hne => heq (hnonce.2 hne)⟩, fun n signature signature' _ => ?_⟩
          cases signature <;> cases signature' <;> trivial
        · simp only [hhash, hhash']
          trivial

private theorem signDelegate_corresponds (b : TransactionBuilder) (key : SigningKey)
    (senderId : AccountId) (nonce : Nonce) (maxBlockHeight : UInt64) :
    (b.signDelegate key senderId nonce maxBlockHeight).Corresponds (besides A replace) none
      (b.signDelegate key senderId nonce maxBlockHeight) := by
  unfold signDelegate
  simp only
  split
  · trivial
  · refine ⟨⟨rfl, fun _ => rfl⟩, fun n signature signature' hsignature => ?_⟩
    cases signature with
    | error e =>
      cases signature' with
      | error e' => trivial
      | ok signature' => cases hsignature.1
    | ok signature =>
      cases signature' with
      | error e' => cases hsignature.1
      | ok signature' =>
        simp only
        split
        · split <;> trivial
        · split <;> trivial

private theorem delegateAt_corresponds (b : TransactionBuilder) (options : DelegateOptions)
    (key : SigningKey) (senderId : AccountId) (nonce : Nonce) :
    (b.delegateAt options key senderId nonce).Corresponds (besides A replace) none
      (b.delegateAt options key senderId nonce) := by
  unfold delegateAt
  cases options.maxBlockHeight with
  | some height => exact b.signDelegate_corresponds key senderId nonce height
  | none =>
    refine ⟨trivial, fun n height height' hheight => ?_⟩
    cases (show height = height' from hheight.1)
    cases height with
    | error e => trivial
    | ok latest => exact b.signDelegate_corresponds key senderId nonce _

private theorem delegate_corresponds (b : TransactionBuilder) (options : DelegateOptions) :
    (b.delegate options).Corresponds (besides A replace) none (b.delegate options) := by
  by_cases ha : b.actions.isEmpty
  · rw [delegate, if_pos ha]
    trivial
  · by_cases hd : b.actions.any Action.isDelegate
    · rw [delegate, if_neg ha, if_pos hd]
      trivial
    · cases hs : b.effectiveSigner with
      | none =>
        rw [delegate, if_neg ha, if_neg hd, hs]
        trivial
      | some signer =>
        rw [delegate, if_neg ha, if_neg hd, hs]
        refine ⟨rfl, fun n key key' hkey => ?_⟩
        cases (show key = key' from hkey.1)
        cases options.nonce with
        | some nonce => exact b.delegateAt_corresponds options key signer.accountId nonce
        | none =>
          refine ⟨⟨rfl, rfl, rfl⟩, fun n view view' hview => ?_⟩
          cases (show view = view' from hview.1)
          cases view with
          | error e => trivial
          | ok accessKey => exact b.delegateAt_corresponds options key signer.accountId _

end TransactionBuilder

namespace TransactionSend
variable [Crates]

/-- The carried values are the same, or those reported for `A`. -/
def SameCarried (reported : Option (Nonce × Nonce)) (carried carried' : Option Nonce) : Prop :=
  carried = carried' ∨ ∃ ak ak', reported = some (ak, ak') ∧ carried = some ak ∧ carried' = some ak'

omit [Crates] in
private theorem SameCarried.chain {reported : Option (Nonce × Nonce)}
    {carried carried' : Option Nonce} (h : SameCarried reported carried carried') (fetched : Nonce) :
    carried.getD fetched = carried'.getD fetched ∨
      reported = some (carried.getD fetched, carried'.getD fetched) := by
  rcases h with rfl | ⟨ak, ak', h, rfl, rfl⟩
  · exact .inl rfl
  · exact .inr h

omit [Crates] in
private theorem sameResult_cases {replace : Nonce → Nonce} {tx : SignedTransaction}
    {result result' : Except RpcError RawTransactionResponse} (h : SameResult A replace tx result result') :
    (∃ response response', result = .ok response ∧ result' = .ok response') ∨
    (∃ ak txNonce ak' txNonce', result = .error (.invalidTx (.invalidNonce ak txNonce)) ∧
      result' = .error (.invalidTx (.invalidNonce ak' txNonce')) ∧
      if tx.transaction.publicKey = A then ak' = replace ak else ak = ak' ∧ txNonce = txNonce') ∨
    ∃ e, result = .error e ∧ result' = .error e ∧
      ∀ ak txNonce, e ≠ .invalidTx (.invalidNonce ak txNonce) := by
  unfold SameResult at h
  split at h
  · exact .inl ⟨_, _, rfl, rfl⟩
  · exact .inr (.inl ⟨_, _, _, _, rfl, rfl, h⟩)
  · next e e' hne =>
    subst h
    refine .inr (.inr ⟨e, rfl, rfl, ?_⟩)
    rintro ak txNonce rfl
    exact hne ak txNonce ak txNonce rfl rfl
  · exact False.elim h

omit [Crates] in
/-- The result of a submission leads to the next iteration in both runs, or in neither. -/
theorem afterSend_corresponds (t : TransactionSend) (signerId : AccountId) (attempt : UInt32)
    {again again' : Option Error → Option Nonce → Operation SendResponse} {n : ℕ}
    {tx : SignedTransaction} {status : TxExecutionStatus} {reported : Option (Nonce × Nonce)}
    {result result' : Except RpcError RawTransactionResponse}
    (hagain : ∀ reported e e' carried carried', SameCarried reported carried carried' →
      (again e carried).Corresponds (besides A replace) reported (again' e' carried'))
    (h : SameResult A (replace n) tx result result') :
    (t.afterSend signerId attempt again result).Corresponds (besides A replace)
      ((besides A replace).next n reported (.sendTx tx status) result)
      (t.afterSend signerId attempt again' result') := by
  rcases sameResult_cases h with ⟨response, response', rfl, rfl⟩ |
    ⟨ak, txNonce, ak', txNonce', rfl, rfl, hak⟩ | ⟨e, rfl, rfl, hne⟩
  · trivial
  · rw [afterSend_invalidNonce, afterSend_invalidNonce]
    by_cases hlt : attempt < t.builder.maxNonceRetries
    · rw [if_pos hlt, if_pos hlt]
      apply hagain
      by_cases hA : tx.transaction.publicKey = A
      · rw [if_pos hA] at hak
        exact .inr ⟨ak, ak', hak ▸ if_pos hA, rfl, rfl⟩
      · rw [if_neg hA] at hak
        exact .inl (congrArg some hak.1)
    · rw [if_neg hlt, if_neg hlt]
      trivial
  · cases e with
    | invalidTx e =>
      cases e with
      | invalidNonce ak txNonce => exact absurd rfl (hne ak txNonce)
      | expired =>
        rw [afterSend_expired, afterSend_expired]
        by_cases hlt : attempt + 1 < t.builder.maxNonceRetries
        · rw [if_pos hlt, if_pos hlt]
          exact hagain _ _ _ _ _ (.inl rfl)
        · rw [if_neg hlt, if_neg hlt]
          trivial
      | _ => trivial
    | _ => trivial

private theorem retryLoop_corresponds (t : TransactionSend) (signer : Signer) (left : ℕ)
    (attempt : UInt32) (e e' : Option Error) {carried carried' : Option Nonce}
    {reported : Option (Nonce × Nonce)}
    (h : SameCarried reported carried carried') :
    (t.retryLoop signer left attempt e carried).Corresponds (besides A replace) reported
      (t.retryLoop signer left attempt e' carried') := by
  induction left generalizing attempt e e' carried carried' reported with
  | zero => trivial
  | succ left ih =>
    refine ⟨rfl, fun n key key' hkey => ?_⟩
    cases (show key = key' from hkey.1)
    refine ⟨⟨rfl, rfl, rfl⟩, fun n view view' hview => ?_⟩
    cases (show view = view' from hview.1)
    cases view with
    | error e => trivial
    | ok accessKey =>
      refine ⟨⟨rfl, rfl, rfl, h.chain accessKey.nonce⟩, fun n nonce nonce' hnonce => ?_⟩
      rcases t.builder.getHash_cases signer.accountId key.publicKey nonce nonce'
        accessKey.blockHash with ⟨hash, hash', hhash, hhash', heq⟩ | ⟨e, e', hhash, hhash'⟩
      · simp only [hhash, hhash']
        refine ⟨⟨rfl, fun hne => heq (hnonce.2 hne)⟩, fun n signature signature' hsignature => ?_⟩
        cases signature with
        | error e =>
          cases signature' with
          | error e' => trivial
          | ok signature' => cases hsignature.1
        | ok signature =>
          cases signature' with
          | error e' => cases hsignature.1
          | ok signature' =>
            refine ⟨⟨rfl, rfl, fun hne => ?_⟩, fun n result result' hresult => ?_⟩
            · rw [hnonce.2 hne]
            · exact t.afterSend_corresponds signer.accountId attempt
                (fun _ e e' _ _ h => ih (attempt + 1) e e' h) hresult.1
      · simp only [hhash, hhash']
        trivial

private theorem intoFuture_corresponds (t : TransactionSend) :
    t.intoFuture.Corresponds (besides A replace) none t.intoFuture := by
  by_cases ha : t.builder.actions.isEmpty
  · rw [intoFuture, if_pos ha]
    trivial
  · cases hs : t.builder.effectiveSigner with
    | none =>
      rw [intoFuture, if_neg ha, hs]
      trivial
    | some signer =>
      rw [intoFuture, if_neg ha, hs]
      exact t.retryLoop_corresponds signer _ 0 none none (.inl rfl)

end TransactionSend

private theorem ClientCall.process_corresponds [Crates] (c : ClientCall) :
    c.process.Corresponds (besides A replace) none c.process := by
  cases c with
  | send t => exact t.intoFuture_corresponds.map
  | sign b => exact b.sign_corresponds.map
  | build b => exact b.build_corresponds.map
  | delegate b options => exact (b.delegate_corresponds options).map

/-! ## The manager -/

section
variable {m m' : NonceManager} {network : Network} {id : AccountId} {key : PublicKey}
variable {chain chain' : Nonce}

theorem AgreeBesides.base_eq (h : AgreeBesides A m m') (hne : key ≠ A) :
    m.base (network, id, key) chain = m'.base (network, id, key) chain := by
  unfold NonceManager.base
  rw [h (network, id, key) hne]

/-- Values that the cache has reached make no difference. -/
theorem AgreeBesides.base_eq_of_reached (h : AgreeBesides A m m') (hne : key ≠ A)
    (hr : m.Reached (network, id, key) chain) (hr' : m.Reached (network, id, key) chain') :
    m.base (network, id, key) chain = m'.base (network, id, key) chain' := by
  rw [← h.base_eq hne]
  exact Option.some.inj ((NonceManager.base_of_reached hr).trans (NonceManager.base_of_reached hr').symm)

private theorem AgreeBesides.next (h : AgreeBesides A m m')
    (hn : key ≠ A → (m.next network id key chain).1 = (m'.next network id key chain').1) :
    AgreeBesides A (m.next network id key chain).2 (m'.next network id key chain').2 := by
  intro k hk
  by_cases heq : k = (network, id, key)
  · subst heq
    rw [NonceManager.nonces_next_self, NonceManager.nonces_next_self, hn hk]
  · rw [NonceManager.nonces_next_of_ne heq, NonceManager.nonces_next_of_ne heq]
    exact h k hk

/-- The manager hands out the same nonce for another key. -/
theorem next_eq_of_taken (h : AgreeBesides A m m') {reported : Option (Nonce × Nonce)}
    (hchain : chain = chain' ∨ reported = some (chain, chain'))
    (htaken : ∀ ak ak', reported = some (ak, ak') →
      ak = ak' ∨ key = A ∨ m.Reached (network, id, key) ak ∧ m.Reached (network, id, key) ak')
    (hne : key ≠ A) : (m.next network id key chain).1 = (m'.next network id key chain').1 := by
  apply congrArg (· + 1)
  rcases hchain with rfl | hreported
  · exact h.base_eq hne
  · rcases htaken chain chain' hreported with rfl | rfl | ⟨hr, hr'⟩
    · exact h.base_eq hne
    · exact absurd rfl hne
    · exact h.base_eq_of_reached hne hr hr'

end

/-! ## Along two runs -/

private theorem exists_sameResult (A : PublicKey) (replace : Nonce → Nonce) (tx : SignedTransaction)
    (result : Except RpcError RawTransactionResponse) : ∃ result', SameResult A replace tx result result' := by
  cases result with
  | ok response => exact ⟨.ok response, fun _ => rfl⟩
  | error e =>
    cases e with
    | invalidTx e =>
      cases e with
      | invalidNonce ak txNonce =>
        by_cases hA : tx.transaction.publicKey = A
        · exact ⟨.error (.invalidTx (.invalidNonce (replace ak) txNonce)), (if_pos hA).mpr rfl⟩
        · exact ⟨.error (.invalidTx (.invalidNonce ak txNonce)), (if_neg hA).mpr ⟨rfl, rfl⟩⟩
      | _ => exact ⟨.error _, rfl⟩
    | _ => exact ⟨.error _, rfl⟩

section
variable [DecidableEq ι]

/-- One step of a client in both runs. Only the manager's answers are not the environment's. -/
theorem besides_keeps : (besides A replace).Keeps (clientHandler (ι := ι))
    (fun n => SameAnswer A (replace n)) (TakenToOwnKey A replace : List (ClientOccurrence ι α) → _)
    (AgreeBesides A) where
  step := by
    intro es i m m' t t' q q' a a' htaken hm hrequest hanswer hstep hstep'
    cases q with
    | nextNonce network id key chain =>
      cases q' with
      | nextNonce network' id' key' chain' =>
        obtain ⟨rfl, rfl, rfl, hchain⟩ := hrequest
        have heq := fun hne => next_eq_of_taken hm hchain htaken hne
        have ha : a = (m.next network id key chain).1 := congrArg Prod.fst hstep
        have ha' : a' = (m'.next network id key chain').1 := congrArg Prod.fst hstep'
        have ht : t = (m.next network id key chain).2 := congrArg Prod.snd hstep
        have ht' : t' = (m'.next network id key chain').2 := congrArg Prod.snd hstep'
        rw [ht, ht']
        refine ⟨⟨trivial, fun hne => ?_⟩, hm.next heq⟩
        rw [ha, ha', heq hne]
      | _ => exact False.elim hrequest
    | _ =>
      cases q' <;> first
        | exact False.elim hrequest
        | cases hstep
          cases hstep'
          exact ⟨⟨hanswer, trivial⟩, hm⟩
  exists_answer := by
    intro i n reported m m' t q q' a hm hrequest hstep
    cases q with
    | nextNonce network id key chain =>
      cases q' with
      | nextNonce network' id' key' chain' => exact ⟨_, _, trivial, rfl⟩
      | _ => exact False.elim hrequest
    | sendTx tx status =>
      cases q' with
      | sendTx tx' status' =>
        obtain ⟨result', h⟩ := exists_sameResult A (replace n) tx a
        exact ⟨result', m', h, rfl⟩
      | _ => exact False.elim hrequest
    | _ =>
      cases q' <;> first
        | exact False.elim hrequest
        | exact ⟨a, m', rfl, rfl⟩

/-- Corresponding exchanges bring the same nonce and sign the same message for another key. -/
theorem same_of_answers {n : ℕ} {reported : Option (Nonce × Nonce)} {q q' : Request} {a : Answer q}
    {a' : Answer q'} (hrequest : SameRequest A reported q q')
    (hanswer : (besides A replace).answers n q q' a a') :
    nonceBesides A ⟨q, a⟩ = nonceBesides A ⟨q', a'⟩ ∧
      messageBesides A ⟨q, a⟩ = messageBesides A ⟨q', a'⟩ := by
  cases q with
  | nextNonce network id key chain =>
    cases q' with
    | nextNonce network' id' key' chain' =>
      obtain ⟨-, -, rfl, -⟩ := hrequest
      refine ⟨?_, rfl⟩
      by_cases hA : key = A
      · simp only [nonceBesides, if_pos hA]
      · simp only [nonceBesides, if_neg hA, (show a = a' from hanswer.2 hA)]
    | _ => exact False.elim hrequest
  | sign key message =>
    cases q' with
    | sign key' message' =>
      obtain ⟨rfl, hmessage⟩ := hrequest
      refine ⟨rfl, ?_⟩
      by_cases hA : key.publicKey = A
      · simp only [messageBesides, if_pos hA]
      · simp only [messageBesides, if_neg hA, hmessage hA]
    | _ => exact False.elim hrequest
  | _ =>
    cases q' <;> first
      | exact False.elim hrequest
      | exact ⟨rfl, rfl⟩

private theorem sameBesides_of_inStep {es es' : List (ClientOccurrence ι α)}
    (h : (besides A replace).InStep es es') (i : ι) : SameBesides A i es es' := by
  induction es generalizing es' with
  | nil =>
    cases es' with
    | nil => exact ⟨rfl, rfl⟩
    | cons e' es' => exact False.elim h
  | cons e es ih =>
    cases es' with
    | nil => cases e <;> exact False.elim h
    | cons e' es' =>
      cases e with
      | asked j m q a =>
        cases e' with
        | asked j' m' q' a' =>
          obtain ⟨⟨rfl, hrequest, hanswer⟩, h⟩ := h
          have hsame := ih h
          by_cases hj : j = i
          · subst hj
            obtain ⟨hnonce, hmessage⟩ := same_of_answers hrequest hanswer
            constructor
            · rw [exchangesOf_asked_self, exchangesOf_asked_self, List.filterMap_cons,
                List.filterMap_cons, hnonce, hsame.nonces]
            · rw [exchangesOf_asked_self, exchangesOf_asked_self, List.filterMap_cons,
                List.filterMap_cons, hmessage, hsame.messages]
          · constructor
            · rw [exchangesOf_asked_of_ne hj, exchangesOf_asked_of_ne hj]
              exact hsame.nonces
            · rw [exchangesOf_asked_of_ne hj, exchangesOf_asked_of_ne hj]
              exact hsame.messages
        | returned j' r' => exact False.elim h
      | returned j r =>
        cases e' with
        | asked j' m' q' a' => exact False.elim h
        | returned j' r' => exact ⟨(ih h.2).nonces, (ih h.2).messages⟩

/-- For every interleaving of the calls of a client and every replacement of the values that
the node reports for `A`: there is an interleaving with the same schedule in which the
environment differs in these values only. In every such one the calls make corresponding
requests, each is handed the same nonces and signs the same messages for the keys other than
`A`, and the manager has the same entries for them, provided that no value reported for `A`
is taken to the manager for another key where it makes a difference. -/
theorem send_isolates_keys [Crates] (A : PublicKey) (replace : ℕ → Nonce → Nonce)
    (calls : ι → ClientCall) {m₀ m : NonceManager} {es : List (ClientOccurrence ι ClientResult)}
    {ps : ι → Option (Process Request Answer ClientResult)}
    (run : Interleaving clientHandler (fun i => (calls i).process) m₀ es m ps)
    (htaken : Along (TakenToOwnKey A replace) es) :
    (∃ es' m' ps', Interleaving clientHandler (fun i => (calls i).process) m₀ es' m' ps' ∧
      SameEnvironment A replace es es') ∧
    ∀ es' m' ps', Interleaving clientHandler (fun i => (calls i).process) m₀ es' m' ps' →
      SameEnvironment A replace es es' →
      (besides A replace).InStep es es' ∧ (∀ i, SameBesides A i es es') ∧ AgreeBesides A m m' := by
  have hcalls : ∀ i, (calls i).process.Corresponds (besides A replace) none (calls i).process :=
    fun i => (calls i).process_corresponds
  constructor
  · exact run.exists_alike besides_keeps hcalls (fun _ _ => rfl) htaken
  · intro es' m' ps' run' halike
    obtain ⟨hm, hstep, -⟩ := run.inStep besides_keeps hcalls (fun _ _ => rfl) htaken run' halike
    exact ⟨hstep, sameBesides_of_inStep hstep, hm⟩

end

/-! ## Samples -/

def sampleSends : Unit → ClientCall := fun _ => .send (.sample 2)

/-- The two-attempt runs differ in what is reported to the first attempt. -/
theorem sameEnvironment_retriedRun (m₀ : NonceManager) (key₁ key₂ : SigningKey)
    (accessKey₁ accessKey₂ : AccessKeyView) (ak ak' : Nonce) (hash₁ hash₂ hash₁' hash₂' : CryptoHash) :
    SameEnvironment key₁.publicKey (fun _ _ => ak')
      (TransactionSend.retriedRun m₀ key₁ key₂ accessKey₁ accessKey₂ ak hash₁ hash₂ :
        List (ClientOccurrence Unit ClientResult))
      (TransactionSend.retriedRun m₀ key₁ key₂ accessKey₁ accessKey₂ ak' hash₁' hash₂') := by
  have hrejected : SameResult key₁.publicKey (fun _ => ak')
      ⟨(TransactionSend.sample 2).builder.transaction .alice key₁.publicKey
        (m₀.next "testnet" .alice key₁.publicKey accessKey₁.nonce).1 accessKey₁.blockHash, .zero⟩
      (.error (.invalidTx (.invalidNonce ak 0))) (.error (.invalidTx (.invalidNonce ak' 0))) :=
    (if_pos rfl).mpr rfl
  exact ⟨⟨rfl, fun _ => rfl⟩, ⟨rfl, rfl⟩, ⟨rfl, trivial⟩, ⟨rfl, rfl⟩, ⟨rfl, rfl⟩, ⟨rfl, hrejected⟩,
    ⟨rfl, rfl⟩, ⟨rfl, trivial⟩, ⟨rfl, rfl⟩, ⟨rfl, rfl⟩, trivial⟩

/-- The rotated-in key has been used far beyond both reported nonces. -/
theorem send_isolates_keys_sample :
    ∃ hash₁ hash₂ hash₁' hash₂',
      SameBesides (.sample 0) ()
        (TransactionSend.retriedRun (NonceManager.new.next "testnet" .alice (.sample 2) 199).2
          ⟨.sample 0, 0⟩ ⟨.sample 2, 0⟩ (.sample 5) (.sample 5) 50 hash₁ hash₂ :
          List (ClientOccurrence Unit ClientResult))
        (TransactionSend.retriedRun (NonceManager.new.next "testnet" .alice (.sample 2) 199).2
          ⟨.sample 0, 0⟩ ⟨.sample 2, 0⟩ (.sample 5) (.sample 5) 100 hash₁' hash₂') := by
  let _ := Crates.accepting
  let m₀ := (NonceManager.new.next "testnet" .alice (.sample 2) 199).2
  let m₁ := (m₀.next "testnet" .alice (.sample 0) 5).2
  obtain ⟨hash₁, hash₂, m, ps, run⟩ := TransactionSend.exists_retriedRun (by decide)
    ClientResult.sent m₀ ⟨.sample 0, 0⟩ ⟨.sample 2, 0⟩ (.sample 5) (.sample 5) 50
  obtain ⟨hash₁', hash₂', m', ps', run'⟩ := TransactionSend.exists_retriedRun (by decide)
    ClientResult.sent m₀ ⟨.sample 0, 0⟩ ⟨.sample 2, 0⟩ (.sample 5) (.sample 5) 100
  have hcached : m₁.nonces ("testnet", .alice, .sample 2) = some 200 := by decide
  refine ⟨hash₁, hash₂, hash₁', hash₂', ?_⟩
  refine ((send_isolates_keys (.sample 0) (fun _ _ => 100) sampleSends run ?_).2 _ _ _ run'
    (sameEnvironment_retriedRun m₀ _ _ _ _ 50 100 _ _ _ _)).2.1 ()
  refine ⟨trivial, trivial, ?_, trivial, trivial, trivial, trivial, ?_, trivial, trivial, trivial⟩
  · intro ak ak' hreported
    cases hreported
    exact .inr (.inr ⟨⟨200, hcached, by decide⟩, ⟨200, hcached, (by decide : (100 : Nonce) ≤ 200)⟩⟩)
  · intro ak ak' hreported
    cases hreported

/-- A rotating signer: the nonce reported for the first key is the base for the second. -/
theorem rotation_leaks_reported_nonce :
    ∃ es es' m m' ps ps',
      Interleaving clientHandler (fun i => @ClientCall.process Crates.accepting (sampleSends i)) .new
        es m ps ∧
      Interleaving clientHandler (fun i => @ClientCall.process Crates.accepting (sampleSends i)) .new
        es' m' ps' ∧
      SameEnvironment (.sample 0) (fun _ _ => 100) es es' ∧ ¬ SameBesides (.sample 0) () es es' := by
  let _ := Crates.accepting
  obtain ⟨hash₁, hash₂, m, ps, run⟩ := TransactionSend.exists_retriedRun (by decide)
    ClientResult.sent .new ⟨.sample 0, 0⟩ ⟨.sample 2, 0⟩ (.sample 5) (.sample 5) 50
  obtain ⟨hash₁', hash₂', m', ps', run'⟩ := TransactionSend.exists_retriedRun (by decide)
    ClientResult.sent .new ⟨.sample 0, 0⟩ ⟨.sample 2, 0⟩ (.sample 5) (.sample 5) 100
  have halike := sameEnvironment_retriedRun .new ⟨.sample 0, 0⟩ ⟨.sample 2, 0⟩ (.sample 5) (.sample 5)
    50 100 hash₁ hash₂ hash₁' hash₂'
  refine ⟨_, _, m, m', ps, ps', run, run', halike, ?_⟩
  intro h
  have hnonces : [(PublicKey.sample 2, (51 : Nonce))] = [(PublicKey.sample 2, 101)] := h.nonces
  revert hnonces
  decide

end NearKit
