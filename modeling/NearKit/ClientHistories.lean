import NearKit.TransactionOperations

/-!
# Histories of one client

Operations of one client run interleaved and share its nonce manager; what the node and
the signers answer is arbitrary. A monitor says how far an attempt has got, and the
state of the manager is read off the history.
-/
namespace NearKit

/-! ## The phases of an attempt -/

/-- How far an attempt to make a transaction has got. The carried nonce is the
`last_ak_nonce` of the retry loop, with the key it was reported for. -/
inductive Phase where
  | idle (carried : Option (PublicKey × Nonce))
  | claimed (carried : Option (PublicKey × Nonce)) (publicKey : PublicKey)
  | fetched (carried : Option (PublicKey × Nonce)) (publicKey : PublicKey)
      (accessKey : AccessKeyView)
  | allocated (tx : Transaction)
  | signed (tx : SignedTransaction)
  | stopped
  deriving DecidableEq

namespace TransactionBuilder
variable [Crates]

omit [Crates] in
def ActsFor (b : TransactionBuilder) (accountId : AccountId) : Prop :=
  b.effectiveSigner.map Signer.accountId = some accountId

/-- The requests of an attempt, in their order. -/
def Allows (b : TransactionBuilder) : Phase → Request → Prop
  | .idle _, .key signer => b.effectiveSigner = some signer
  | .idle _, .publicKey signer => b.effectiveSigner = some signer
  | .claimed _ publicKey, .viewAccessKey id key finality =>
    b.ActsFor id ∧ key = publicKey ∧ finality = .final
  | .fetched carried publicKey accessKey, .nextNonce network id key chain =>
    network = b.url ∧ b.ActsFor id ∧ key = publicKey ∧
      chain = (carried.map Prod.snd).getD accessKey.nonce
  | .allocated tx, .sign key message => key.publicKey = tx.publicKey ∧ tx.getHash = .ok message
  | .signed tx, .sendTx tx' _ => tx' = tx
  | _, _ => False

omit [Crates] in
/-- A rejection leads back to the start, for the attempts of a retry loop. -/
def nextPhase (b : TransactionBuilder) : Phase → (q : Request) → Answer q → Phase
  | .idle carried, .key _, key => .claimed carried key.publicKey
  | .idle carried, .publicKey _, publicKey => .claimed carried publicKey
  | .claimed carried publicKey, .viewAccessKey .., .ok accessKey =>
    .fetched carried publicKey accessKey
  | .fetched _ publicKey accessKey, .nextNonce _ id _ _, nonce =>
    .allocated (b.transaction id publicKey nonce accessKey.blockHash)
  | .allocated tx, .sign .., .ok signature => .signed ⟨tx, signature⟩
  | .signed tx, .sendTx .., .error (.invalidTx (.invalidNonce akNonce _)) =>
    .idle (some (tx.transaction.publicKey, akNonce))
  | .signed _, .sendTx .., .error (.invalidTx .expired) => .idle none
  | _, _, _ => .stopped

def attempts (b : TransactionBuilder) : Monitor Request Answer Phase where
  start := .idle none
  allows := b.Allows
  next := b.nextPhase

omit [Crates] in
theorem ActsFor.of_effectiveSigner {b : TransactionBuilder} {signer : Signer}
    (hs : b.effectiveSigner = some signer) : b.ActsFor signer.accountId := by
  unfold ActsFor
  rw [hs]
  rfl

theorem build_obeys (b : TransactionBuilder) :
    b.build.Obeys b.attempts (fun phase r => ∀ tx, r = .ok tx → phase = .allocated tx)
      (.idle none) := by
  by_cases ha : b.actions.isEmpty
  · rw [build, if_pos ha]
    exact nofun
  · cases hs : b.effectiveSigner with
    | none =>
      rw [build, if_neg ha, hs]
      exact nofun
    | some signer =>
      rw [build, if_neg ha, hs]
      have hacts := ActsFor.of_effectiveSigner hs
      refine ⟨hs, fun publicKey => ⟨⟨hacts, rfl, rfl⟩, fun view => ?_⟩⟩
      cases view with
      | error e => exact nofun
      | ok accessKey =>
        refine ⟨⟨rfl, hacts, rfl, rfl⟩, fun nonce tx h => ?_⟩
        cases h
        rfl

theorem sign_obeys (b : TransactionBuilder) :
    b.sign.Obeys b.attempts (fun phase r => ∀ tx, r = .ok tx → phase = .signed tx)
      (.idle none) := by
  by_cases ha : b.actions.isEmpty
  · rw [sign, if_pos ha]
    exact nofun
  · cases hs : b.effectiveSigner with
    | none =>
      rw [sign, if_neg ha, hs]
      exact nofun
    | some signer =>
      rw [sign, if_neg ha, hs]
      have hacts := ActsFor.of_effectiveSigner hs
      refine ⟨hs, fun key => ⟨⟨hacts, rfl, rfl⟩, fun view => ?_⟩⟩
      cases view with
      | error e => exact nofun
      | ok accessKey =>
        refine ⟨⟨rfl, hacts, rfl, rfl⟩, fun nonce => ?_⟩
        cases hhash : (b.transaction signer.accountId key.publicKey nonce
            accessKey.blockHash).getHash with
        | error e =>
          simp only [hhash]
          exact nofun
        | ok txHash =>
          simp only [hhash]
          refine ⟨⟨rfl, hhash⟩, fun signature => ?_⟩
          cases signature with
          | error e => exact nofun
          | ok signature =>
            intro tx h
            cases h
            rfl

end TransactionBuilder

namespace TransactionSend
variable [Crates]

private theorem retryLoop_obeys (t : TransactionSend) {signer : Signer}
    (hs : t.builder.effectiveSigner = some signer) (left : ℕ) (attempt : UInt32)
    (lastError : Option Error) (carried : Option (PublicKey × Nonce)) :
    (t.retryLoop signer left attempt lastError (carried.map Prod.snd)).Obeys t.builder.attempts
      (fun _ _ => True) (.idle carried) := by
  induction left generalizing attempt lastError carried with
  | zero => trivial
  | succ left ih =>
    have hacts := TransactionBuilder.ActsFor.of_effectiveSigner hs
    refine ⟨hs, fun key => ⟨⟨hacts, rfl, rfl⟩, fun view => ?_⟩⟩
    cases view with
    | error e => trivial
    | ok accessKey =>
      refine ⟨⟨rfl, hacts, rfl, rfl⟩, fun nonce => ?_⟩
      cases hhash : (t.builder.transaction signer.accountId key.publicKey nonce
          accessKey.blockHash).getHash with
      | error e =>
        simp only [hhash]
        trivial
      | ok txHash =>
        simp only [hhash]
        refine ⟨⟨rfl, hhash⟩, fun signature => ?_⟩
        cases signature with
        | error e => trivial
        | ok signature =>
          refine ⟨rfl, fun result => ?_⟩
          beta_reduce
          cases result with
          | ok response => trivial
          | error e =>
            cases e with
            | invalidTx e =>
              cases e with
              | invalidNonce akNonce txNonce =>
                by_cases hlt : attempt < t.builder.maxNonceRetries
                · rw [afterSend_invalidNonce, if_pos hlt]
                  exact ih _ _ (some (key.publicKey, akNonce))
                · rw [afterSend_invalidNonce, if_neg hlt]
                  trivial
              | expired =>
                by_cases hlt : attempt + 1 < t.builder.maxNonceRetries
                · rw [afterSend_expired, if_pos hlt]
                  exact ih _ _ none
                · rw [afterSend_expired, if_neg hlt]
                  trivial
              | _ => trivial
            | _ => trivial

theorem intoFuture_obeys (t : TransactionSend) :
    t.intoFuture.Obeys t.builder.attempts (fun _ _ => True) (.idle none) := by
  by_cases ha : t.builder.actions.isEmpty
  · rw [intoFuture, if_pos ha]
    trivial
  · cases hs : t.builder.effectiveSigner with
    | none =>
      rw [intoFuture, if_neg ha, hs]
      trivial
    | some signer =>
      rw [intoFuture, if_neg ha, hs]
      exact t.retryLoop_obeys hs _ 0 none none

end TransactionSend

/-! ## What an attempt remembers -/

/-- The access key of the latest successful fetch, newest exchange first. -/
def lastFetched : List (Exchange Request Answer) → Option AccessKeyView
  | ⟨.viewAccessKey .., .ok accessKey⟩ :: _ => some accessKey
  | _ :: xs => lastFetched xs
  | [] => none

/-- The latest nonce from the manager, with its key. -/
def lastAllocated : List (Exchange Request Answer) → Option (NonceKey × Nonce)
  | ⟨.nextNonce network id key _, nonce⟩ :: _ => some ((network, id, key), nonce)
  | _ :: xs => lastAllocated xs
  | [] => none

/-- The `ak_nonce` of the latest submission, if it was rejected for its nonce, with the
key that had signed it. -/
def lastRejection : List (Exchange Request Answer) → Option (PublicKey × Nonce)
  | ⟨.sendTx tx _, .error (.invalidTx (.invalidNonce akNonce _))⟩ :: _ =>
    some (tx.transaction.publicKey, akNonce)
  | ⟨.sendTx .., _⟩ :: _ => none
  | _ :: xs => lastRejection xs
  | [] => none

namespace TransactionBuilder

/-- The transaction carries the latest nonce and the latest block hash. -/
def Makes (b : TransactionBuilder) (xs : List (Exchange Request Answer)) (tx : Transaction) : Prop :=
  ∃ id key nonce accessKey, b.ActsFor id ∧ lastFetched xs = some accessKey ∧
    lastAllocated xs = some ((b.url, id, key), nonce) ∧
    tx = b.transaction id key nonce accessKey.blockHash

/-- A phase holds what the exchanges before it have brought. -/
def Records (b : TransactionBuilder) (xs : List (Exchange Request Answer)) : Phase → Prop
  | .idle carried => carried = lastRejection xs
  | .claimed carried _ => carried = lastRejection xs
  | .fetched carried _ accessKey => carried = lastRejection xs ∧ lastFetched xs = some accessKey
  | .allocated tx => b.Makes xs tx
  | .signed tx => b.Makes xs tx.transaction
  | .stopped => True

variable [Crates] {b : TransactionBuilder} {xs : List (Exchange Request Answer)}

omit [Crates] in
theorem ActsFor.unique {id id' : AccountId} (h : b.ActsFor id) (h' : b.ActsFor id') : id = id' :=
  Option.some.inj (h.symm.trans h')

theorem Allows.nextNonce_inv {phase : Phase} {network : Network} {id : AccountId} {key : PublicKey}
    {chain : Nonce} (h : b.Allows phase (.nextNonce network id key chain)) :
    ∃ carried accessKey, phase = .fetched carried key accessKey ∧ network = b.url ∧
      b.ActsFor id ∧ chain = (carried.map Prod.snd).getD accessKey.nonce := by
  cases phase with
  | fetched carried publicKey accessKey =>
    obtain ⟨rfl, hacts, rfl, rfl⟩ := h
    exact ⟨carried, accessKey, rfl, rfl, hacts, rfl⟩
  | _ => exact False.elim h

theorem Allows.sign_inv {phase : Phase} {key : SigningKey} {message : CryptoHash}
    (h : b.Allows phase (.sign key message)) :
    ∃ tx, phase = .allocated tx ∧ key.publicKey = tx.publicKey ∧ tx.getHash = .ok message := by
  cases phase with
  | allocated tx => exact ⟨tx, rfl, h⟩
  | _ => exact False.elim h

theorem Allows.sendTx_inv {phase : Phase} {tx : SignedTransaction} {status : TxExecutionStatus}
    (h : b.Allows phase (.sendTx tx status)) : phase = .signed tx := by
  cases phase with
  | signed tx' => exact congrArg Phase.signed (Eq.symm h)
  | _ => exact False.elim h

private theorem Records.next {phase : Phase} (h : b.Records xs phase) {q : Request}
    (ha : b.Allows phase q) (a : Answer q) : b.Records (⟨q, a⟩ :: xs) (b.nextPhase phase q a) := by
  cases phase with
  | idle carried =>
    cases q with
    | key | publicKey => exact h
    | _ => exact False.elim ha
  | claimed carried publicKey =>
    cases q with
    | viewAccessKey =>
      cases a with
      | error e => trivial
      | ok accessKey => exact ⟨h, rfl⟩
    | _ => exact False.elim ha
  | fetched carried publicKey accessKey =>
    cases q with
    | nextNonce network id key chain =>
      obtain ⟨rfl, hacts, rfl, -⟩ := ha
      exact ⟨id, key, a, accessKey, hacts, h.2, rfl, rfl⟩
    | _ => exact False.elim ha
  | allocated tx =>
    cases q with
    | sign =>
      cases a with
      | error e => trivial
      | ok signature => exact h
    | _ => exact False.elim ha
  | signed tx =>
    cases q with
    | sendTx tx' status =>
      have htx : tx' = tx := ha
      subst htx
      cases a with
      | ok response => trivial
      | error e =>
        cases e with
        | invalidTx e =>
          cases e with
          | invalidNonce | expired => rfl
          | _ => trivial
        | _ => trivial
    | _ => exact False.elim ha
  | stopped => exact False.elim ha

theorem records_of_conforms (h : b.attempts.Conforms xs) : b.Records xs (b.attempts.after xs) := by
  induction xs with
  | nil => rfl
  | cons x xs ih => exact (ih h.2).next h.1 x.answer

end TransactionBuilder

/-! ## The manager along a history -/

/-- The client answers a nonce request from its manager. Every other answer is free. -/
def clientHandler {ι : Type} (_ : ι) (m : NonceManager) : (q : Request) → Answer q → NonceManager → Prop
  | .nextNonce network id key chain, nonce, m' => (nonce, m') = m.next network id key chain
  | _, _, m' => m' = m

/-- What happens in a client. -/
abbrev ClientOccurrence (ι α : Type) := Occurrence ι NonceManager Request Answer α

variable {ι α : Type}

/-- The manager that a history leads to, newest occurrence first. -/
def managerAfter (m₀ : NonceManager) : List (ClientOccurrence ι α) → NonceManager
  | [] => m₀
  | .asked _ _ (.nextNonce network id key chain) _ :: es =>
    ((managerAfter m₀ es).next network id key chain).2
  | _ :: es => managerAfter m₀ es

/-- A nonce is handed out by the manager that the history has led to. -/
def Served (m₀ : NonceManager) (es : List (ClientOccurrence ι α)) : ClientOccurrence ι α → Prop
  | .asked _ m (.nextNonce network id key chain) nonce =>
    m = managerAfter m₀ es ∧ nonce = (m.next network id key chain).1
  | _ => True

/-- The counters stay below `u64::MAX`. -/
def CountersBelow (_ : List (ClientOccurrence ι α)) : ClientOccurrence ι α → Prop
  | .asked _ m (.nextNonce network id key chain) _ => m.Below (network, id, key) chain
  | _ => True

theorem Interleaving.served [DecidableEq ι] {start : ι → Process Request Answer α}
    {m₀ m : NonceManager} {es : List (ClientOccurrence ι α)}
    {ps : ι → Option (Process Request Answer α)}
    (run : Interleaving clientHandler start m₀ es m ps) :
    m = managerAfter m₀ es ∧ Along (Served m₀) es := by
  induction run with
  | init => exact ⟨rfl, trivial⟩
  | @asked es m m' ps i q a resume run waiting step ih =>
    obtain ⟨hm, hes⟩ := ih
    cases q with
    | nextNonce network id key chain =>
      have hnonce : a = (m.next network id key chain).1 := congrArg Prod.fst step
      have hstate : m' = (m.next network id key chain).2 := congrArg Prod.snd step
      rw [hm] at hstate
      exact ⟨hstate, ⟨hm, hnonce⟩, hes⟩
    | _ => exact ⟨Eq.trans step hm, trivial, hes⟩
  | returned run finished ih => exact ⟨ih.1, trivial, ih.2⟩

def Allocated (es : List (ClientOccurrence ι α)) (key : NonceKey) (nonce : Nonce) : Prop :=
  ∃ i m chain, .asked i m (.nextNonce key.1 key.2.1 key.2.2 chain) nonce ∈ es

/-- The nonce that an occurrence hands out, with its key. -/
def allocation : ClientOccurrence ι α → Option (NonceKey × Nonce)
  | .asked _ _ (.nextNonce network id key _) nonce => some ((network, id, key), nonce)
  | _ => none

section
variable {m₀ : NonceManager} {es : List (ClientOccurrence ι α)} {e : ClientOccurrence ι α}
variable {key : NonceKey} {n : Nonce}

theorem allocated_of_mem (h : (key, n) ∈ es.filterMap allocation) : Allocated es key n := by
  obtain ⟨e, hmem, he⟩ := List.mem_filterMap.mp h
  cases e with
  | returned i r => cases he
  | asked i m q a =>
    cases q with
    | nextNonce network id pk chain =>
      cases he
      exact ⟨i, m, chain, hmem⟩
    | _ => cases he

theorem exists_base_of_allocated (hs : Along (Served m₀) es) (h : Allocated es key n) :
    ∃ i m chain, .asked i m (.nextNonce key.1 key.2.1 key.2.2 chain) n ∈ es ∧
      n = m.base key chain + 1 := by
  obtain ⟨i, m, chain, hmem⟩ := h
  refine ⟨i, m, chain, hmem, ?_⟩
  induction es with
  | nil => cases hmem
  | cons e es ih =>
    rcases List.mem_cons.mp hmem with rfl | hmem
    · exact hs.1.2
    · exact ih hs.2 hmem

/-- What the manager has reached it does not leave. -/
theorem reached_managerAfter_cons (h : (managerAfter m₀ es).Reached key n)
    (hs : Served m₀ es e) (hb : CountersBelow es e) :
    (managerAfter m₀ (e :: es)).Reached key n := by
  cases e with
  | asked i m q a =>
    cases q with
    | nextNonce network id pk chain =>
      have hbelow : (managerAfter m₀ es).Below (network, id, pk) chain := hs.1 ▸ hb
      exact h.next hbelow
    | _ => exact h
  | returned i r => exact h

theorem reached_of_allocated (hs : Along (Served m₀) es) (hb : Along CountersBelow es)
    (h : Allocated es key n) : (managerAfter m₀ es).Reached key n := by
  induction es with
  | nil =>
    obtain ⟨i, m, chain, hmem⟩ := h
    cases hmem
  | cons e es ih =>
    obtain ⟨i, m, chain, hmem⟩ := h
    rcases List.mem_cons.mp hmem with rfl | hmem
    · obtain ⟨hm, hn⟩ := hs.1
      rw [hm] at hn
      exact NonceManager.reached_next_self (UInt64.le_of_eq hn)
    · exact reached_managerAfter_cons (ih hs.2 hb.2 ⟨i, m, chain, hmem⟩) hs.1 hb.1

/-- A nonce handed out was not handed out for its key before. -/
theorem allocation_fresh (hs : Along (Served m₀) es) (hb : Along CountersBelow es)
    (hs' : Served m₀ es e) (hb' : CountersBelow es e) {x : NonceKey × Nonce}
    (hx : allocation e = some x) : x ∉ es.filterMap allocation := by
  intro hmem
  cases e with
  | returned i r => cases hx
  | asked i m q a =>
    cases q with
    | nextNonce network id pk chain =>
      cases hx
      obtain ⟨hm, hnonce⟩ := hs'
      have hreached := reached_of_allocated hs hb (allocated_of_mem hmem)
      have hlt := NonceManager.reached_lt_next hb' (hm ▸ hreached)
      rw [← hnonce] at hlt
      exact UInt64.lt_irrefl _ hlt
    | _ => cases hx

theorem reached_of_start (hs : Along (Served m₀) es) (hb : Along CountersBelow es)
    (h : m₀.Reached key n) : (managerAfter m₀ es).Reached key n := by
  induction es with
  | nil => exact h
  | cons e es ih => exact reached_managerAfter_cons (ih hs.2 hb.2) hs.1 hb.1

end
/-! ## Running an attempt -/

namespace TransactionSend
variable [Crates]

/-- An attempt with successful answers, newest occurrence first. The last argument is
the outcome of `send_tx`. -/
def attemptRun (t : TransactionSend) (signer : Signer) (i : ι) (m : NonceManager)
    (carried : Option Nonce) (key : SigningKey) (accessKey : AccessKeyView) (hash : CryptoHash)
    (signature : Signature) (result : Except RpcError RawTransactionResponse) :
    List (ClientOccurrence ι α) :=
  let id := signer.accountId
  let chain := carried.getD accessKey.nonce
  let r := m.next t.builder.url id key.publicKey chain
  [.asked i r.2 (.sendTx ⟨t.builder.transaction id key.publicKey r.1 accessKey.blockHash,
      signature⟩ t.waitLevel.status) result,
    .asked i r.2 (.sign key hash) (.ok signature),
    .asked i m (.nextNonce t.builder.url id key.publicKey chain) r.1,
    .asked i m (.viewAccessKey id key.publicKey .final) (.ok accessKey),
    .asked i m (.key signer) key]

/-- Wherever the loop waits for its next iteration, the pool can run that iteration. -/
theorem exists_attemptRun [DecidableEq ι] (t : TransactionSend) {signer : Signer} {i : ι} {left : ℕ}
    {attempt : UInt32} {e : Option Error} {carried : Option Nonce} {f : Exit SendResponse → α}
    {start : ι → Process Request Answer α} {m₀ m : NonceManager} {es : List (ClientOccurrence ι α)}
    {ps : ι → Option (Process Request Answer α)} (run : Interleaving clientHandler start m₀ es m ps)
    (hps : ps i = some ((t.retryLoop signer (left + 1) attempt e carried).map f))
    (hfits : Format.action.vec.Fits t.builder.actions) (key : SigningKey) (accessKey : AccessKeyView)
    (signature : Signature) (result : Except RpcError RawTransactionResponse) :
    ∃ hash ps', Interleaving clientHandler start m₀
        (t.attemptRun signer i m carried key accessKey hash signature result ++ es)
        (m.next t.builder.url signer.accountId key.publicKey (carried.getD accessKey.nonce)).2 ps' ∧
      ps' i = some ((t.afterSend signer.accountId attempt
        (fun e ak => t.retryLoop signer left (attempt + 1) e ak) result).map f) ∧
      ∀ j, j ≠ i → ps' j = ps j := by
  let r := m.next t.builder.url signer.accountId key.publicKey (carried.getD accessKey.nonce)
  obtain ⟨hash, hhash⟩ := t.builder.exists_getHash hfits signer.accountId key.publicKey r.1
    accessKey.blockHash
  obtain ⟨ps₁, run₁, hps₁, hne₁⟩ := run.ask hps rfl key rfl
  obtain ⟨ps₂, run₂, hps₂, hne₂⟩ := run₁.ask hps₁ rfl (Except.ok accessKey) rfl
  obtain ⟨ps₃, run₃, hps₃, hne₃⟩ := run₂.ask hps₂ rfl r.1 (rfl : (r.1, r.2) = r)
  simp only [hhash] at hps₃
  obtain ⟨ps₄, run₄, hps₄, hne₄⟩ := run₃.ask hps₃ rfl (Except.ok signature) rfl
  obtain ⟨ps₅, run₅, hps₅, hne₅⟩ := run₄.ask hps₄ rfl result rfl
  refine ⟨hash, ps₅, run₅, hps₅, ?_⟩
  intro j hj
  rw [hne₅ j hj, hne₄ j hj, hne₃ j hj, hne₂ j hj, hne₁ j hj]

/-- Two attempts of the sample send, the first rejected for its nonce. -/
def retriedRun (m₀ : NonceManager) (key₁ key₂ : SigningKey) (accessKey₁ accessKey₂ : AccessKeyView)
    (akNonce : Nonce) (hash₁ hash₂ : CryptoHash) : List (ClientOccurrence Unit α) :=
  let m₁ := (m₀.next "testnet" .alice key₁.publicKey accessKey₁.nonce).2
  attemptRun (.sample 2) .sample () m₁ (some akNonce) key₂ accessKey₂ hash₂ .zero
      (.ok ⟨.zeros 32, .final, none⟩) ++
    attemptRun (.sample 2) .sample () m₀ none key₁ accessKey₁ hash₁ .zero
      (.error (.invalidTx (.invalidNonce akNonce 0)))

omit [Crates] in
theorem retriedRun_below {m₀ : NonceManager} {key₁ key₂ : SigningKey}
    {accessKey₁ accessKey₂ : AccessKeyView} {akNonce : Nonce} (hash₁ hash₂ : CryptoHash)
    (h₁ : m₀.Below ("testnet", .alice, key₁.publicKey) accessKey₁.nonce)
    (h₂ : (m₀.next "testnet" .alice key₁.publicKey accessKey₁.nonce).2.Below
      ("testnet", .alice, key₂.publicKey) akNonce) :
    Along CountersBelow
      (retriedRun m₀ key₁ key₂ accessKey₁ accessKey₂ akNonce hash₁ hash₂ :
        List (ClientOccurrence Unit α)) :=
  ⟨trivial, trivial, h₂, trivial, trivial, trivial, trivial, h₁, trivial, trivial, trivial⟩

theorem exists_retriedRun (hfits : Format.action.vec.Fits [.transfer ⟨1⟩])
    (f : Exit SendResponse → α) (m₀ : NonceManager) (key₁ key₂ : SigningKey)
    (accessKey₁ accessKey₂ : AccessKeyView) (akNonce : Nonce) :
    ∃ hash₁ hash₂ m ps, Interleaving clientHandler (fun _ => (intoFuture (.sample 2)).map f) m₀
      (retriedRun m₀ key₁ key₂ accessKey₁ accessKey₂ akNonce hash₁ hash₂) m ps := by
  let t := TransactionSend.sample 2
  let start : Unit → Process Request Answer α := fun _ => t.intoFuture.map f
  let rejected : InvalidTxError := .invalidNonce akNonce 0
  have run₀ : Interleaving clientHandler start m₀ [] m₀ fun i => some (start i) := .init
  have hps₀ : some (start ()) = some ((t.retryLoop .sample (2 + 1) 0 none none).map f) := rfl
  obtain ⟨hash₁, ps₁, run₁, hps₁, -⟩ := t.exists_attemptRun run₀ hps₀ hfits key₁ accessKey₁ .zero
    (.error (.invalidTx rejected))
  have hagain : ps₁ () = some ((t.retryLoop .sample (1 + 1) 1 (some (.invalidTx rejected))
      (some akNonce)).map f) := hps₁
  obtain ⟨hash₂, ps₂, run₂, -, -⟩ := t.exists_attemptRun run₁ hagain hfits key₂ accessKey₂ .zero
    (.ok ⟨.zeros 32, .final, none⟩)
  exact ⟨hash₁, hash₂, _, ps₂, run₂⟩

end TransactionSend
end NearKit
