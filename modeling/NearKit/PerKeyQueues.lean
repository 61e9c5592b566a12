import NearKit.LostResponses

/-!
# Sequential queues, one for each key

A queue sends its transactions one after the other with a key of its own, over an RPC client
that resends. Whatever the order in which the queues are served, and however old the access
keys are that the node shows them, a transaction arrives behind the node's nonce only if it
was executed before, by the queue itself.
-/
namespace NearKit

variable {ι : Type}

/-! ## Queues -/

/-- The sends of a queue, each awaited before the next one is started. -/
def queue [Crates] (retry : RetryConfig) :
    List TransactionSend → Process WireRequest WireAnswer (List (Exit SendResponse))
  | [] => .done []
  | t :: ts => (t.overRpc retry).bind fun r => (queue retry ts).map (r :: ·)

/-- The client of the queues: one RPC endpoint with its retries, and for each queue a signer
with one key. -/
structure KeyQueues (ι : Type) where
  url : Network
  retry : RetryConfig
  signers : ι → Signer
  publicKeys : ι → PublicKey
  sends : ι → List TransactionSend
  /-- The sends of a queue sign with its signer. -/
  ownSigner : ∀ i, ∀ t ∈ sends i,
    t.builder.url = url ∧ t.builder.effectiveSigner = some (signers i)
  /-- No key is in two queues. -/
  ownKey : Function.Injective fun i => ((signers i).accountId, publicKeys i)

namespace KeyQueues

def nonceKey (k : KeyQueues ι) (i : ι) : NonceKey := (k.url, (k.signers i).accountId, k.publicKeys i)

def chainNonce (k : KeyQueues ι) (i : ι) (w : World ι) : Nonce :=
  w.nonces (k.signers i).accountId (k.publicKeys i)

def process [Crates] (k : KeyQueues ι) (i : ι) :
    Process WireRequest WireAnswer (List (Exit SendResponse)) :=
  queue k.retry (k.sends i)

/-- The answers that the queues can get. The node may show an access key as it was at any time
since the start, and any submission may be refused or its response lost. A nonce request whose
counter is at `u64::MAX` panics, so it is not answered. -/
def handler (k : KeyQueues ι) (w₀ : World ι) (i : ι) (w : World ι) :
    (q : WireRequest) → WireAnswer q → World ι → Prop
  | .client (.key _), key, w' => key.publicKey = k.publicKeys i ∧ w' = w
  | .client (.publicKey _), publicKey, w' => publicKey = k.publicKeys i ∧ w' = w
  | .client (.viewAccessKey id key _), a, w' =>
    (∀ accessKey, a = .ok accessKey → w₀.nonces id key ≤ accessKey.nonce) ∧ w' = w
  | .client (.nextNonce network id key chain), nonce, w' =>
    w.manager.Below (network, id, key) chain ∧
      (nonce, w'.manager) = w.manager.next network id key chain ∧
      w'.nonces = w.nonces ∧ w'.executed = w.executed
  | .rpc (.tryCall request), a, w' => w.Submitted i request.params.signedTx a w'
  | _, _, w' => w' = w

end KeyQueues

/-! ## The phases of a queue -/

/-- How far a queue is with its current attempt, and the nonce that a rejection has reported
to it. -/
inductive QueuePhase where
  | idle (carried : Option Nonce)
  | claimed (carried : Option Nonce) (publicKey : PublicKey)
  | fetched (carried : Option Nonce) (publicKey : PublicKey) (chain : Nonce)
  | allocated (publicKey : PublicKey) (nonce : Nonce)
  | submitted (tx : SignedTransaction)

namespace QueuePhase

def carried : QueuePhase → Option Nonce
  | idle carried => carried
  | _ => none

/-- The requests of an attempt, in their order. A new send may start anywhere. -/
def Allows (url : Network) (retry : RetryConfig) (accountId : AccountId) : QueuePhase → WireRequest → Prop
  | _, .client (.key _) => True
  | _, .client (.publicKey _) => True
  | claimed _ publicKey, .client (.viewAccessKey id key _) => id = accountId ∧ key = publicKey
  | fetched carried publicKey chain, .client (.nextNonce network id key chain') =>
    network = url ∧ id = accountId ∧ key = publicKey ∧ (chain' = chain ∨ carried = some chain')
  | allocated .., .client (.sign ..) => True
  | allocated publicKey nonce, .rpc (.tryCall request) =>
    request.params.signedTx.transaction.signerId = accountId ∧
      request.params.signedTx.transaction.publicKey = publicKey ∧
      request.params.signedTx.transaction.nonce = nonce
  | submitted tx, .rpc (.tryCall request) => 0 < retry.maxRetries ∧ request.params.signedTx = tx
  | allocated .., .rpc _ => True
  | submitted _, .rpc _ => True
  | _, _ => False

/-- A rejected transaction is given up for the reported nonce. -/
def answered (tx : SignedTransaction) : Except RpcError RawTransactionResponse → QueuePhase
  | .error (.invalidTx (.invalidNonce akNonce _)) => idle (some akNonce)
  | _ => submitted tx

def next : QueuePhase → (q : WireRequest) → WireAnswer q → QueuePhase
  | phase, .client (.key _), key => claimed phase.carried key.publicKey
  | phase, .client (.publicKey _), publicKey => claimed phase.carried publicKey
  | claimed carried publicKey, .client (.viewAccessKey ..), .ok accessKey =>
    fetched carried publicKey accessKey.nonce
  | fetched _ publicKey _, .client (.nextNonce ..), nonce => allocated publicKey nonce
  | _, .rpc (.tryCall request), a => answered request.params.signedTx a
  | phase, _, _ => phase

/-- What the retry loop of a send carries, the queue carries too. -/
def Carries (base : Option Nonce) (carried : Option (PublicKey × Nonce)) : Prop :=
  ∀ c, carried = some c → base = some c.2

/-- What a phase of an attempt is to the queue. -/
inductive Follows (accountId : AccountId) : Phase → QueuePhase → Prop where
  | idle {carried : Option (PublicKey × Nonce)} {phase : QueuePhase} (h : Carries phase.carried carried) :
      Follows accountId (.idle carried) phase
  | claimed {carried : Option (PublicKey × Nonce)} {base : Option Nonce} (publicKey : PublicKey)
      (h : Carries base carried) : Follows accountId (.claimed carried publicKey) (.claimed base publicKey)
  | fetched {carried : Option (PublicKey × Nonce)} {base : Option Nonce} (publicKey : PublicKey)
      (accessKey : AccessKeyView) (h : Carries base carried) :
      Follows accountId (.fetched carried publicKey accessKey) (.fetched base publicKey accessKey.nonce)
  | allocated {tx : Transaction} (own : tx.signerId = accountId) :
      Follows accountId (.allocated tx) (.allocated tx.publicKey tx.nonce)
  | signed {tx : SignedTransaction} (own : tx.transaction.signerId = accountId) :
      Follows accountId (.signed tx) (.allocated tx.transaction.publicKey tx.transaction.nonce)
  | stopped (phase : QueuePhase) : Follows accountId .stopped phase

theorem Follows.started (accountId : AccountId) (phase : QueuePhase) :
    Follows accountId (.idle none) phase :=
  .idle nofun

end QueuePhase

def KeyQueues.monitor (k : KeyQueues ι) (i : ι) : Monitor WireRequest WireAnswer QueuePhase where
  start := .idle none
  allows := QueuePhase.Allows k.url k.retry (k.signers i).accountId
  next := QueuePhase.next

/-! ## A queue and its sends -/

namespace KeyQueues
variable [Crates] (k : KeyQueues ι) (i : ι)

/-- The phases in which the transaction is submitted, for the first time or again. -/
def Submitting (k : KeyQueues ι) (i : ι) (tx : SignedTransaction) (phase : QueuePhase) : Prop :=
  tx.transaction.signerId = (k.signers i).accountId ∧
    phase = .allocated tx.transaction.publicKey tx.transaction.nonce ∨
  phase = .submitted tx

omit [Crates] in
theorem attempted_of_submitting (request : JsonRpcRequest SendTxParams) {phase : QueuePhase}
    (h : k.Submitting i request.params.signedTx phase) (a : Except RpcError RawTransactionResponse) :
    RpcClient.attempted (k.monitor i).onRpc phase request a = .answered request.params.signedTx a := by
  rcases h with ⟨-, rfl⟩ | rfl <;> rfl

omit [Crates] in
theorem answered_of_isRetryable {tx : SignedTransaction} {e : RpcError} (h : e.isRetryable = true) :
    QueuePhase.answered tx (.error e) = .submitted tx := by
  cases e with
  | invalidTx e =>
    cases e with
    | invalidNonce => cases h
    | _ => rfl
  | _ => rfl

omit [Crates] in
private theorem allowsCall (params : SendTxParams) :
    RpcClient.AllowsCall (k.monitor i).onRpc k.retry "send_tx"
    params (fun phase => k.Submitting i params.signedTx phase ∧
      (phase = .submitted params.signedTx → 0 < k.retry.maxRetries)) where
  requestId phase h := by rcases h.1 with ⟨-, rfl⟩ | rfl <;> trivial
  tryCall phase id h := by
    obtain ⟨⟨own, rfl⟩ | rfl, hagain⟩ := h
    · exact ⟨own, rfl, rfl⟩
    · exact ⟨hagain rfl, rfl⟩
  sleep phase id e ms h hretryable hpos := by
    rw [k.attempted_of_submitting i ⟨"2.0", id, "send_tx", params⟩ h.1,
      answered_of_isRetryable hretryable]
    exact ⟨trivial, .inr rfl, fun _ => hpos⟩

omit [Crates] in
private theorem follows_answered (b : TransactionBuilder) (accountId : AccountId)
    {tx : SignedTransaction} {status : TxExecutionStatus} (a : Answer (.sendTx tx status)) :
    QueuePhase.Follows accountId (b.nextPhase (.signed tx) (.sendTx tx status) a) (.answered tx a) := by
  cases a with
  | ok response => exact .stopped _
  | error e =>
    cases e with
    | invalidTx e =>
      cases e with
      | invalidNonce akNonce txNonce =>
        apply QueuePhase.Follows.idle
        rintro _ ⟨⟩
        rfl
      | expired => exact .started _ _
      | _ => exact .stopped _
    | _ => exact .stopped _

/-- The queue follows a submission through all its attempts. -/
theorem wire_sendTx_obeys (b : TransactionBuilder) {tx : SignedTransaction}
    (own : tx.transaction.signerId = (k.signers i).accountId) (status : TxExecutionStatus) :
    (RpcClient.wire k.retry (.sendTx tx status)).Obeys (k.monitor i)
      (fun queued r => ∀ a, r = some a → QueuePhase.Follows (k.signers i).accountId
        (b.nextPhase (.signed tx) (.sendTx tx status) a) queued)
      (.allocated tx.transaction.publicKey tx.transaction.nonce) := by
  apply (k.allowsCall i ⟨tx, status⟩).wire_sendTx_obeys
  · intro phase id answer txHash h a ha
    rw [k.attempted_of_submitting i ⟨"2.0", id, "send_tx", ⟨tx, status⟩⟩ h.1]
    have hfollows : QueuePhase.Follows (k.signers i).accountId
        (b.nextPhase (.signed tx) (.sendTx tx status) a) (.answered tx a) := follows_answered b _ a
    rw [← Option.some.inj ha] at hfollows ⊢
    cases answer with
    | ok response => exact hfollows
    | error e => exact hfollows
  · intro queued a ha
    cases ha
  · exact ⟨.inl ⟨own, rfl⟩, nofun⟩

/-- Each request of an attempt with the queue's signer is one that the queue allows, and the
queue follows the attempt. -/
theorem wire_obeys {b : TransactionBuilder} (hurl : b.url = k.url)
    (hs : b.effectiveSigner = some (k.signers i)) (phase : Phase) (queued : QueuePhase) (q : Request)
    (h : QueuePhase.Follows (k.signers i).accountId phase queued) (ha : b.Allows phase q) :
    (RpcClient.wire k.retry q).Obeys (k.monitor i)
      (fun queued r => ∀ a, r = some a →
        QueuePhase.Follows (k.signers i).accountId (b.nextPhase phase q a) queued) queued := by
  have hacts {id : AccountId} (hid : b.ActsFor id) : id = (k.signers i).accountId :=
    hid.unique (.of_effectiveSigner hs)
  cases h with
  | idle hcarries =>
    cases q with
    | key signer =>
      refine ⟨by cases queued <;> trivial, fun key => ?_⟩
      rintro _ ⟨⟩
      cases queued <;> exact .claimed _ hcarries
    | publicKey signer =>
      refine ⟨by cases queued <;> trivial, fun publicKey => ?_⟩
      rintro _ ⟨⟩
      cases queued <;> exact .claimed _ hcarries
    | _ => exact False.elim ha
  | claimed publicKey hcarries =>
    cases q with
    | viewAccessKey id key finality =>
      refine ⟨⟨hacts ha.1, ha.2.1⟩, fun a => ?_⟩
      rintro _ ⟨⟩
      cases a with
      | ok accessKey => exact .fetched publicKey accessKey hcarries
      | error e => exact .stopped _
    | _ => exact False.elim ha
  | @fetched carried base publicKey accessKey hcarries =>
    cases q with
    | nextNonce network id key chain =>
      obtain ⟨rfl, hid, rfl, rfl⟩ := ha
      refine ⟨⟨hurl, hacts hid, rfl, ?_⟩, fun nonce => ?_⟩
      · cases carried with
        | none => exact .inl rfl
        | some c => exact .inr (hcarries c rfl)
      · rintro _ ⟨⟩
        exact .allocated (hacts hid)
    | _ => exact False.elim ha
  | allocated own =>
    cases q with
    | sign key message =>
      refine ⟨trivial, fun a => ?_⟩
      rintro _ ⟨⟩
      cases a with
      | ok signature => exact .signed own
      | error e => exact .stopped _
    | _ => exact False.elim ha
  | signed own =>
    cases q with
    | sendTx tx status =>
      cases (show tx = _ from ha)
      exact k.wire_sendTx_obeys i b own status
    | _ => exact False.elim ha
  | stopped queued => exact False.elim ha

private theorem overRpc_obeys {t : TransactionSend} (ht : t ∈ k.sends i) (phase : QueuePhase) :
    (t.overRpc k.retry).Obeys (k.monitor i) (fun _ _ => True) phase := by
  obtain ⟨hurl, hs⟩ := k.ownSigner i t ht
  exact t.intoFuture_obeys.expand (QueuePhase.Follows (k.signers i).accountId)
    (k.wire_obeys i hurl hs) (fun _ _ _ _ _ => trivial) (fun _ => trivial) (.started _ phase)

/-- A queue makes the requests of its sends, wherever the send before has stopped. -/
theorem queue_obeys {ts : List TransactionSend} (hts : ∀ t ∈ ts, t ∈ k.sends i) (phase : QueuePhase) :
    (queue k.retry ts).Obeys (k.monitor i) (fun _ _ => True) phase := by
  induction ts generalizing phase with
  | nil => trivial
  | cons t ts ih =>
    obtain ⟨ht, hts⟩ := List.forall_mem_cons.mp hts
    exact (k.overRpc_obeys i ht phase).bind fun phase r _ => (ih hts phase).map

private theorem process_obeys :
    (k.process i).Obeys (k.monitor i) (fun _ _ => True) (k.monitor i).start :=
  k.queue_obeys i (fun _ h => h) _

end KeyQueues

/-! ## The nonces of a queue -/

namespace KeyQueues

def Owns (k : KeyQueues ι) (i : ι) (tx : SignedTransaction) : Prop :=
  tx.transaction.signerId = (k.signers i).accountId ∧ tx.transaction.publicKey = k.publicKeys i

/-- What the client knows of the nonce of a queue's key on the node: it is the one from the
start, or a later one that the manager has handed out. -/
def Covers (k : KeyQueues ι) (w₀ : World ι) (i : ι) (w : World ι) : Prop :=
  k.chainNonce i w = k.chainNonce i w₀ ∨
    k.chainNonce i w₀ < k.chainNonce i w ∧ w.manager.Reached (k.nonceKey i) (k.chainNonce i w)

section
variable [DecidableEq ι]

/-- The node accepts the transaction, or has executed it for the queue before. -/
def Accepted (i : ι) (w : World ι) (tx : SignedTransaction) : Prop :=
  w.current tx < tx.transaction.nonce ∨ tx ∈ w.executedBy i

/-- The phase holds the queue's own key, no nonce from before the start and, once allocated,
one that the node accepts. -/
def Holds (k : KeyQueues ι) (w₀ : World ι) (i : ι) (w : World ι) : QueuePhase → Prop
  | .idle carried => ∀ n, carried = some n → k.chainNonce i w₀ ≤ n
  | .claimed carried publicKey =>
    publicKey = k.publicKeys i ∧ ∀ n, carried = some n → k.chainNonce i w₀ ≤ n
  | .fetched carried publicKey chain =>
    publicKey = k.publicKeys i ∧ (∀ n, carried = some n → k.chainNonce i w₀ ≤ n) ∧
      k.chainNonce i w₀ ≤ chain
  | .allocated publicKey nonce =>
    publicKey = k.publicKeys i ∧ k.chainNonce i w < nonce ∧
      w.manager.Reached (k.nonceKey i) nonce
  | .submitted tx =>
    k.Owns i tx ∧ w.manager.Reached (k.nonceKey i) tx.transaction.nonce ∧ Accepted i w tx

def Keeps (k : KeyQueues ι) (w₀ : World ι) (i : ι) (w : World ι) (phase : QueuePhase) : Prop :=
  k.Covers w₀ i w ∧ k.Holds w₀ i w phase

/-- A step that leaves the key of a queue and its transactions alone. -/
structure Spares (k : KeyQueues ι) (i : ι) (w w' : World ι) : Prop where
  chainNonce : k.chainNonce i w' = k.chainNonce i w
  reached : ∀ n, w.manager.Reached (k.nonceKey i) n → w'.manager.Reached (k.nonceKey i) n
  executed : w'.executedBy i = w.executedBy i

variable {k : KeyQueues ι} {w₀ w w' : World ι} {i j : ι} {phase : QueuePhase}
variable {request : JsonRpcRequest SendTxParams} {tx : SignedTransaction}

omit [DecidableEq ι] in
private theorem Covers.le (h : k.Covers w₀ i w) : k.chainNonce i w₀ ≤ k.chainNonce i w := by
  rcases h with h | ⟨h, -⟩
  · exact UInt64.le_of_eq h.symm
  · exact UInt64.le_of_lt h

omit [DecidableEq ι] in
theorem Owns.current (h : k.Owns i tx) (w : World ι) : w.current tx = k.chainNonce i w := by
  unfold World.current chainNonce
  rw [h.1, h.2]

theorem Spares.refl : k.Spares i w w := ⟨rfl, fun _ h => h, rfl⟩

private theorem Accepted.spares (h : Accepted i w tx) (hown : k.Owns i tx) (hw : k.Spares i w w') :
    Accepted i w' tx := by
  unfold Accepted at h ⊢
  rw [hown.current, hw.chainNonce, hw.executed, ← hown.current]
  exact h

theorem Keeps.spares (h : k.Keeps w₀ i w phase) (hw : k.Spares i w w') : k.Keeps w₀ i w' phase := by
  constructor
  · unfold Covers
    rw [hw.chainNonce]
    exact h.1.imp_right fun ⟨hlt, hreached⟩ => ⟨hlt, hw.reached _ hreached⟩
  · cases phase with
    | allocated publicKey nonce =>
      obtain ⟨hkey, hlt, hreached⟩ := h.2
      exact ⟨hkey, hw.chainNonce ▸ hlt, hw.reached _ hreached⟩
    | submitted tx =>
      obtain ⟨hown, hreached, haccepted⟩ := h.2
      exact ⟨hown, hw.reached _ hreached, haccepted.spares hown hw⟩
    | _ => exact h.2

theorem spares_of_next {network : Network} {id : AccountId} {key : PublicKey} {chain nonce : Nonce}
    (hb : w.manager.Below (network, id, key) chain)
    (hnext : (nonce, w'.manager) = w.manager.next network id key chain) (hw : w'.nonces = w.nonces)
    (hexecuted : w'.executed = w.executed) : k.Spares i w w' where
  chainNonce := by
    unfold KeyQueues.chainNonce
    rw [hw]
  reached n h := by
    have hmanager : w'.manager = (w.manager.next network id key chain).2 := congrArg Prod.snd hnext
    rw [hmanager]
    exact h.next hb
  executed := by
    unfold World.executedBy
    rw [hexecuted]

theorem spares_of_submitted {a : Except RpcError RawTransactionResponse} (hj : j ≠ i)
    (hown : k.Owns j tx) (hw : w.Submitted j tx a w') : k.Spares i w w' := by
  cases hw with
  | executed fresh response =>
    refine ⟨?_, fun _ h => h, (w.grows_execute_of_ne hj fresh).executed⟩
    unfold chainNonce World.execute
    apply if_neg
    rintro ⟨hid, hkey⟩
    apply hj
    apply k.ownKey
    exact Prod.ext (hown.1 ▸ hid).symm (hown.2 ▸ hkey).symm
  | invalidNonce stale response => exact .refl
  | refused fresh response => exact .refl

/-- What a queue submits is its own and accepted. It is fresh if the client does not resend. -/
theorem Keeps.submits (h : k.Keeps w₀ i w phase)
    (ha : (k.monitor i).allows phase (.rpc (.tryCall request))) :
    k.Owns i request.params.signedTx ∧
      w.manager.Reached (k.nonceKey i) request.params.signedTx.transaction.nonce ∧
      (w.current request.params.signedTx < request.params.signedTx.transaction.nonce ∨
        0 < k.retry.maxRetries ∧ request.params.signedTx ∈ w.executedBy i) := by
  cases phase with
  | allocated publicKey nonce =>
    obtain ⟨hid, hkey, hnonce⟩ := ha
    obtain ⟨rfl, hlt, hreached⟩ := h.2
    have hown : k.Owns i request.params.signedTx := ⟨hid, hkey⟩
    refine ⟨hown, hnonce ▸ hreached, .inl ?_⟩
    rw [hown.current, hnonce]
    exact hlt
  | submitted tx =>
    obtain ⟨hpos, rfl⟩ := ha
    obtain ⟨hown, hreached, haccepted⟩ := h.2
    exact ⟨hown, hreached, haccepted.imp_right fun hexecuted => ⟨hpos, hexecuted⟩⟩
  | _ => exact ha.elim

theorem spares_of_handler {q : WireRequest} {a : WireAnswer q} (hj : j ≠ i) {queued : QueuePhase}
    (h : k.Keeps w₀ j w queued) (ha : (k.monitor j).allows queued q) (hw : k.handler w₀ j w q a w') :
    k.Spares i w w' := by
  cases q with
  | client q =>
    cases q with
    | nextNonce network id key chain =>
      obtain ⟨hb, hnext, hnonces, hexecuted⟩ := hw
      exact spares_of_next hb hnext hnonces hexecuted
    | key | publicKey | viewAccessKey => exact hw.2 ▸ .refl
    | status | sign | sendTx => exact (show w' = w from hw) ▸ .refl
  | rpc q =>
    cases q with
    | tryCall request => exact spares_of_submitted hj (h.submits ha).1 hw
    | requestId | sleep => exact (show w' = w from hw) ▸ .refl

omit [DecidableEq ι] in
/-- The nonce that the manager hands out is beyond the one of the node. -/
theorem chainNonce_lt_next {chain : Nonce} (h : k.Covers w₀ i w) (hchain : k.chainNonce i w₀ ≤ chain)
    (hb : w.manager.Below (k.nonceKey i) chain) :
    k.chainNonce i w <
      (w.manager.next k.url (k.signers i).accountId (k.publicKeys i) chain).1 := by
  rcases h with h | ⟨-, h⟩
  · rw [h]
    exact UInt64.lt_of_le_of_lt hchain (NonceManager.chain_lt_next hb)
  · exact NonceManager.reached_lt_next hb h

/-- A lost response leaves the queue with its transaction. -/
theorem answered_of_lost {a : Except RpcError RawTransactionResponse}
    (h : (∃ response, a = .ok response) ∨ World.Lost a) :
    QueuePhase.answered tx a = .submitted tx := by
  rcases h with ⟨response, rfl⟩ | ⟨e, rfl, hretry⟩
  · rfl
  · exact answered_of_isRetryable hretry

private theorem answered_of_ne {a : Except RpcError RawTransactionResponse}
    (h : ∀ akNonce txNonce, a ≠ .error (.invalidTx (.invalidNonce akNonce txNonce))) :
    QueuePhase.answered tx a = .submitted tx := by
  cases a with
  | ok response => rfl
  | error e =>
    cases e with
    | invalidTx e =>
      cases e with
      | invalidNonce akNonce txNonce => exact absurd rfl (h akNonce txNonce)
      | _ => rfl
    | _ => rfl

theorem Keeps.submitted {a : Except RpcError RawTransactionResponse} (h : k.Keeps w₀ i w phase)
    (ha : (k.monitor i).allows phase (.rpc (.tryCall request)))
    (hw : w.Submitted i request.params.signedTx a w') :
    k.Keeps w₀ i w' (.answered request.params.signedTx a) := by
  obtain ⟨hown, hreached, haccepted⟩ := h.submits ha
  have hholds : Accepted i w request.params.signedTx := haccepted.imp_right And.right
  cases hw with
  | executed fresh response =>
    rw [answered_of_lost response]
    have hchain : k.chainNonce i (w.execute i request.params.signedTx) =
        request.params.signedTx.transaction.nonce := by
      rw [← hown.current]
      exact w.current_execute i _
    refine ⟨.inr ⟨?_, ?_⟩, hown, hreached, .inr ?_⟩
    · rw [hchain]
      rw [hown.current] at fresh
      exact UInt64.lt_of_le_of_lt h.1.le fresh
    · rw [hchain]
      exact hreached
    · rw [World.executedBy_execute_self]
      exact List.mem_cons_self
  | invalidNonce stale response =>
    rcases response with rfl | hlost
    · refine ⟨h.1, ?_⟩
      rintro _ ⟨⟩
      rw [hown.current]
      exact h.1.le
    · rw [answered_of_lost (.inr hlost)]
      exact ⟨h.1, hown, hreached, hholds⟩
  | refused fresh response =>
    rw [answered_of_ne response]
    exact ⟨h.1, hown, hreached, hholds⟩

theorem Keeps.allocated {chain nonce : Nonce} (h : k.Covers w₀ i w) (hchain : k.chainNonce i w₀ ≤ chain)
    (hb : w.manager.Below (k.nonceKey i) chain)
    (hnext : (nonce, w'.manager) =
      w.manager.next k.url (k.signers i).accountId (k.publicKeys i) chain)
    (hnonces : w'.nonces = w.nonces) (hexecuted : w'.executed = w.executed) :
    k.Keeps w₀ i w' (.allocated (k.publicKeys i) nonce) := by
  have hspares : k.Spares i w w' := spares_of_next hb hnext hnonces hexecuted
  have hlt := chainNonce_lt_next h hchain hb
  have hnonce : nonce = _ := congrArg Prod.fst hnext
  have hmanager : w'.manager = _ := congrArg Prod.snd hnext
  have hidle : k.Keeps w₀ i w (.idle none) := ⟨h, nofun⟩
  refine ⟨(hidle.spares hspares).1, rfl, ?_, ?_⟩
  · rw [hspares.chainNonce, hnonce]
    exact hlt
  · rw [hmanager, hnonce]
    exact NonceManager.reached_next_self (UInt64.le_refl _)

/-- What a phase carries is no nonce from before the start. -/
theorem Keeps.carried (h : k.Keeps w₀ i w phase) :
    ∀ n, phase.carried = some n → k.chainNonce i w₀ ≤ n := by
  cases phase with
  | idle carried => exact h.2
  | _ => exact nofun

theorem Keeps.next {q : WireRequest} {a : WireAnswer q} (h : k.Keeps w₀ i w phase)
    (ha : (k.monitor i).allows phase q) (hw : k.handler w₀ i w q a w') :
    k.Keeps w₀ i w' (phase.next q a) := by
  cases q with
  | rpc q =>
    cases q with
    | tryCall request =>
      have hkeeps := h.submitted ha hw
      cases phase <;> exact hkeeps
    | requestId | sleep =>
      cases (show w' = w from hw)
      cases phase <;> exact h
  | client q =>
    cases q with
    | key signer =>
      obtain ⟨hkey, rfl⟩ := hw
      have hcarried := h.carried
      cases phase <;> exact ⟨h.1, hkey, hcarried⟩
    | publicKey signer =>
      obtain ⟨hkey, rfl⟩ := hw
      have hcarried := h.carried
      cases phase <;> exact ⟨h.1, hkey, hcarried⟩
    | viewAccessKey id key finality =>
      obtain ⟨hread, rfl⟩ := hw
      cases phase with
      | claimed carried publicKey =>
        obtain ⟨rfl, rfl⟩ := ha
        obtain ⟨hcovers, rfl, hcarried⟩ := h
        cases a with
        | ok accessKey => exact ⟨hcovers, rfl, hcarried, hread accessKey rfl⟩
        | error e => exact ⟨hcovers, rfl, hcarried⟩
      | _ => exact ha.elim
    | nextNonce network id key chain =>
      obtain ⟨hb, hnext, hnonces, hexecuted⟩ := hw
      cases phase with
      | fetched carried publicKey fetchedNonce =>
        obtain ⟨rfl, rfl, rfl, hchain⟩ := ha
        obtain ⟨hcovers, rfl, hcarried, hfetched⟩ := h
        apply Keeps.allocated hcovers _ hb hnext hnonces hexecuted
        rcases hchain with rfl | hchain
        · exact hfetched
        · exact hcarried _ hchain
      | _ => exact ha.elim
    | sign key message =>
      cases (show w' = w from hw)
      cases phase with
      | allocated publicKey nonce => exact h
      | _ => exact ha.elim
    | status | sendTx => cases phase <;> exact ha.elim

private theorem invariant : Interleaving.Invariant (k.handler w₀) k.monitor (k.Keeps w₀) where
  own h ha hw := h.next ha hw
  others hj h hq ha hw := h.spares (spares_of_handler hj hq ha hw)

end
end KeyQueues

/-! ## Samples -/

namespace KeyQueues

def sampleKey : Bool → PublicKey
  | true => .sample 0
  | false => .sample 2

private theorem sampleKey_injective :
    Function.Injective fun i => (Signer.sample.accountId, sampleKey i) := by
  have hkeys : ∀ i j, sampleKey i = sampleKey j → i = j := by decide
  exact fun i j h => hkeys i j (congrArg Prod.snd h)

private theorem sample_ownSigner (_ : Bool) : ∀ t ∈ [TransactionSend.sample 2],
    t.builder.url = "testnet" ∧ t.builder.effectiveSigner = some .sample := by
  decide

def sample : KeyQueues Bool :=
  ⟨"testnet", .sample, fun _ => .sample, sampleKey, fun _ => [.sample 2], sample_ownSigner,
    sampleKey_injective⟩

def sampleWorld : World Bool := ⟨fun _ _ => 5, .new, []⟩

def sampleArrival (i : Bool) : World Bool :=
  ⟨fun _ _ => 5, (NonceManager.new.next "testnet" .alice (sampleKey i) 5).2, []⟩

def sampleTx (i : Bool) : SignedTransaction :=
  ⟨(TransactionBuilder.sample 2).transaction .alice (sampleKey i)
    (NonceManager.new.next "testnet" .alice (sampleKey i) 5).1 (.zeros 32), .zero⟩

def sampleRequest (i : Bool) : JsonRpcRequest SendTxParams := ⟨"2.0", 0, "send_tx", ⟨sampleTx i, .final⟩⟩

/-- The first transaction of a queue, shown an access key of the start, is executed and its
response is lost. The resent one is rejected. -/
theorem exists_sampleRun [Crates] (hfits : Format.action.vec.Fits [.transfer ⟨1⟩]) (i : Bool) :
    ∃ es ps, Interleaving (sample.handler sampleWorld) sample.process sampleWorld es
        ((sampleArrival i).execute i (sampleTx i)) ps ∧
      .asked i (sampleArrival i) (.rpc (.tryCall (sampleRequest i))) (.error (.timeout 0)) ∈ es ∧
      .asked i ((sampleArrival i).execute i (sampleTx i)) (.rpc (.tryCall (sampleRequest i)))
        (.error (.invalidTx (.invalidNonce 6 6))) ∈ es := by
  let key : SigningKey := ⟨sampleKey i, 0⟩
  let r := NonceManager.new.next "testnet" .alice (sampleKey i) 5
  let w := sampleArrival i
  let w' := w.execute i (sampleTx i)
  obtain ⟨hash, hhash⟩ := (TransactionSend.sample 2).builder.exists_getHash hfits
    Signer.sample.accountId key.publicKey r.1 (AccessKeyView.sample 5).blockHash
  have hbelow : NonceManager.new.Below ("testnet", .alice, sampleKey i) 5 := by
    cases i <;> decide
  have hread : sample.handler sampleWorld i sampleWorld
      (.client (.viewAccessKey .alice (sampleKey i) .final)) (.ok (.sample 5)) sampleWorld := by
    refine ⟨?_, rfl⟩
    rintro accessKey ⟨⟩
    exact UInt64.le_refl 5
  have hexecuted : sample.handler sampleWorld i w (.rpc (.tryCall (sampleRequest i)))
      (.error (.timeout 0)) w' := by
    apply World.Submitted.executed
    · cases i <;> decide
    · exact .inr ⟨_, rfl, rfl⟩
  have hrejected : sample.handler sampleWorld i w' (.rpc (.tryCall (sampleRequest i)))
      (.error (.invalidTx (.invalidNonce 6 6))) w' := by
    apply World.Submitted.invalidNonce
    · cases i <;> decide
    · left
      cases i <;> rfl
  have hsend : (TransactionSend.sample 2).overRpc .sample =
      ((TransactionSend.sample 2).retryLoop .sample 3 0 none none).expand (RpcClient.wire .sample)
        .panic := rfl
  have hcall : RpcClient.sendTx .sample (sampleTx i) .final =
      (RpcClient.callLoop .sample "send_tx" ⟨sampleTx i, .final⟩ 2 0).map
        (Option.map (Except.map fun response => { response with transactionHash := hash })) :=
    RpcClient.sendTx_eq .sample .final hhash
  have hwire : RpcClient.wire .sample (.sendTx (sampleTx i) .final) =
      (RpcClient.sendTx .sample (sampleTx i) .final).expand
        (fun q => .ask (.rpc q) fun a => .done (some a)) none := rfl
  have hps : some (sample.process i) = some ((((TransactionSend.sample 2).retryLoop .sample 3 0 none
      none).expand (RpcClient.wire .sample) .panic).bind fun r => (queue .sample []).map (r :: ·)) := by
    rw [← hsend]
    rfl
  have run : Interleaving (sample.handler sampleWorld) sample.process sampleWorld [] _ _ := .init
  obtain ⟨ps₁, run₁, hps₁, -⟩ := run.ask hps (q := .client (.key .sample)) rfl key ⟨rfl, rfl⟩
  obtain ⟨ps₂, run₂, hps₂, -⟩ := run₁.ask hps₁
    (q := .client (.viewAccessKey .alice (sampleKey i) .final)) rfl (.ok (.sample 5)) hread
  obtain ⟨ps₃, run₃, hps₃, -⟩ := run₂.ask hps₂
    (q := .client (.nextNonce "testnet" .alice (sampleKey i) 5)) rfl r.1 (t := w)
    ⟨hbelow, rfl, rfl, rfl⟩
  simp only [Process.bind, Option.elim_some, hhash] at hps₃
  obtain ⟨ps₄, run₄, hps₄, -⟩ := run₃.ask hps₃ (q := .client (.sign key hash)) rfl (.ok .zero) rfl
  have hsubmits : ps₄ i = some (((Process.ask (.sendTx (sampleTx i) .final) fun result =>
      (TransactionSend.sample 2).afterSend Signer.sample.accountId 0
        (fun e ak => (TransactionSend.sample 2).retryLoop .sample 2 1 e ak) result).expand
      (RpcClient.wire .sample) .panic).bind fun r => (queue .sample []).map (r :: ·)) := hps₄
  rw [Process.expand, hwire, hcall] at hsubmits
  obtain ⟨ps₅, run₅, hps₅, -⟩ := run₄.ask hsubmits (q := .rpc .requestId) rfl (0 : UInt64) rfl
  obtain ⟨ps₆, run₆, hps₆, -⟩ := run₅.ask hps₅ (q := .rpc (.tryCall (sampleRequest i))) rfl
    (.error (.timeout 0)) hexecuted
  obtain ⟨ps₇, run₇, hps₇, -⟩ := run₆.ask hps₆ (q := .rpc (.sleep 100)) rfl () rfl
  obtain ⟨ps₈, run₈, hps₈, -⟩ := run₇.ask hps₇ (q := .rpc .requestId) rfl (0 : UInt64) rfl
  obtain ⟨ps₉, run₉, -, -⟩ := run₈.ask hps₈ (q := .rpc (.tryCall (sampleRequest i))) rfl
    (.error (.invalidTx (.invalidNonce 6 6))) hrejected
  refine ⟨_, ps₉, run₉, ?_, List.mem_cons_self⟩
  exact List.mem_cons_of_mem _ (List.mem_cons_of_mem _ (List.mem_cons_of_mem _ List.mem_cons_self))

end KeyQueues

/-! ## No rejection of a transaction that was not executed -/

/-- A fresh nonce is not rejected for being old, nor does a lost response look like it. -/
theorem World.Submitted.not_rejected {w w' : World ι} {i : ι} {tx : SignedTransaction}
    {a : Except RpcError RawTransactionResponse} (hfresh : w.current tx < tx.transaction.nonce)
    (h : w.Submitted i tx a w') (akNonce txNonce : Nonce) :
    a ≠ .error (.invalidTx (.invalidNonce akNonce txNonce)) := by
  rintro rfl
  cases h with
  | executed fresh response =>
    rcases response with ⟨r, hr⟩ | ⟨e, he, hretry⟩
    · cases hr
    · cases he
      cases hretry
  | invalidNonce stale response => exact stale hfresh
  | refused fresh response => exact response akNonce txNonce rfl

/-- Whatever the order in which any number of queues are served, however old the access keys
are that the node shows, and whichever submissions it refuses or answers without being heard:
every transaction arrives with a nonce above the node's and is not answered with
`InvalidNonce`, unless the client resends and it arrives again after it was executed. -/
theorem queues_rejected_only_after_execution [Crates] [DecidableEq ι] (k : KeyQueues ι) {w₀ w : World ι}
    {es : List (Occurrence ι (World ι) WireRequest WireAnswer (List (Exit SendResponse)))}
    {ps : ι → Option (Process WireRequest WireAnswer (List (Exit SendResponse)))}
    (run : Interleaving (k.handler w₀) k.process w₀ es w ps) {i : ι} {v : World ι}
    {request : JsonRpcRequest SendTxParams} {a : Except RpcError RawTransactionResponse}
    (h : .asked i v (.rpc (.tryCall request)) a ∈ es) :
    (v.current request.params.signedTx < request.params.signedTx.transaction.nonce ∧
      ∀ akNonce txNonce, a ≠ .error (.invalidTx (.invalidNonce akNonce txNonce))) ∨
    0 < k.retry.maxRetries ∧ request.params.signedTx ∈ v.executedBy i := by
  obtain ⟨phase, v', hkeeps, hallows, hstep⟩ :=
    run.invariant_asked k.invariant k.process_obeys (fun i => ⟨.inl rfl, nofun⟩) h
  obtain ⟨-, -, haccepted⟩ := hkeeps.submits hallows
  exact haccepted.imp_left fun hfresh => ⟨hfresh, World.Submitted.not_rejected hfresh hstep⟩

/-- The first response is lost, and the transaction is resent and rejected. -/
theorem queues_rejected_only_after_execution_sample :
    ∃ es w ps v v', Interleaving (KeyQueues.sample.handler KeyQueues.sampleWorld)
        (@KeyQueues.process _ Crates.accepting .sample) KeyQueues.sampleWorld es w ps ∧
      .asked true v (.rpc (.tryCall (KeyQueues.sampleRequest true))) (.error (.timeout 0)) ∈ es ∧
      v.current (KeyQueues.sampleTx true) < (KeyQueues.sampleTx true).transaction.nonce ∧
      .asked true v' (.rpc (.tryCall (KeyQueues.sampleRequest true)))
        (.error (.invalidTx (.invalidNonce 6 6))) ∈ es ∧
      KeyQueues.sampleTx true ∈ v'.executedBy true := by
  let _ := Crates.accepting
  obtain ⟨es, ps, run, hfirst, hagain⟩ := KeyQueues.exists_sampleRun (by decide) true
  refine ⟨es, _, ps, _, _, run, hfirst, ?_, hagain, ?_⟩
  · rcases queues_rejected_only_after_execution .sample run hfirst with hfresh | ⟨-, hexecuted⟩
    · exact hfresh.1
    · cases hexecuted
  · rcases queues_rejected_only_after_execution .sample run hagain with hfresh | ⟨-, hexecuted⟩
    · exact absurd rfl (hfresh.2 6 6)
    · exact hexecuted

end NearKit
