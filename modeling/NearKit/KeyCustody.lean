import NearKit.SharedNonces
import NearKit.TransactionBuilders

/-!
# Which key signs

Each operation claims a key, looks up chain state for it and signs, in separate requests.
What it signs names the key that the signer handed out, and that key makes the signature.
An allocated nonce is one of the same key.
-/
namespace NearKit
open Borsh

/-- The signer in effect handed out a key, and this key signed the hash of what names it. -/
inductive TransactionBuilder.Custody (b : TransactionBuilder) (xs : List (Exchange Request Answer))
    (accountId : AccountId) (publicKey : PublicKey) (getHash : Except IoError CryptoHash)
    (signature : Signature) : Prop where
  | intro (signer : Signer) (key : SigningKey) (hash : CryptoHash)
      (effective : b.effectiveSigner = some signer) (account : accountId = signer.accountId)
      (claimed : ⟨.key signer, key⟩ ∈ xs) (names : publicKey = key.publicKey)
      (hashed : getHash = .ok hash) (signed : ⟨.sign key hash, .ok signature⟩ ∈ xs)

namespace TransactionBuilder

/-- The nonce is one that the manager allocated for the key of the transaction. -/
def NonceTaken (b : TransactionBuilder) (xs : List (Exchange Request Answer)) (tx : Transaction) :
    Prop :=
  ∃ chain, ⟨.nextNonce b.url tx.signerId tx.publicKey chain, tx.nonce⟩ ∈ xs

variable [Crates] (b : TransactionBuilder)

def Signed (xs : List (Exchange Request Answer)) (tx : SignedTransaction) : Prop :=
  b.Custody xs tx.transaction.signerId tx.transaction.publicKey tx.transaction.getHash tx.signature

def SignedDelegate (xs : List (Exchange Request Answer)) (d : SignedDelegateAction) : Prop :=
  b.Custody xs d.delegateAction.senderId d.delegateAction.publicKey d.delegateAction.getHash
    d.signature

/-- What is submitted is signed, with an allocated nonce. -/
def submits (xs : List (Exchange Request Answer)) : Request → Prop
  | .sendTx tx _ => b.Signed xs tx ∧ b.NonceTaken xs tx.transaction
  | _ => True

omit [Crates] in
variable {b} in
theorem Custody.mono {xs ys : List (Exchange Request Answer)} {accountId : AccountId}
    {publicKey : PublicKey} {getHash : Except IoError CryptoHash} {signature : Signature}
    (h : b.Custody xs accountId publicKey getHash signature) (hxs : xs ⊆ ys) :
    b.Custody ys accountId publicKey getHash signature := by
  obtain ⟨signer, key, hash, effective, account, claimed, names, hashed, signed⟩ := h
  exact .intro signer key hash effective account (hxs claimed) names hashed (hxs signed)

/-! ## Transactions -/

theorem build_custody : b.build.Obeys (.recording b.submits)
    (fun xs r => ∀ tx, r = .ok tx → b.NonceTaken xs tx) [] := by
  by_cases ha : b.actions.isEmpty
  · rw [build, if_pos ha]
    intro _ h
    cases h
  · cases hs : b.effectiveSigner with
    | none =>
      rw [build, if_neg ha, hs]
      intro _ h
      cases h
    | some signer =>
      rw [build, if_neg ha, hs]
      refine ⟨trivial, fun publicKey => ⟨trivial, fun view => ?_⟩⟩
      cases view with
      | error e =>
        intro _ h
        cases h
      | ok accessKey =>
        refine ⟨trivial, fun nonce tx h => ?_⟩
        cases h
        exact ⟨_, List.mem_cons_self⟩

theorem sign_custody : b.sign.Obeys (.recording b.submits)
    (fun xs r => ∀ tx, r = .ok tx → b.Signed xs tx ∧ b.NonceTaken xs tx.transaction) [] := by
  by_cases ha : b.actions.isEmpty
  · rw [sign, if_pos ha]
    intro _ h
    cases h
  · cases hs : b.effectiveSigner with
    | none =>
      rw [sign, if_neg ha, hs]
      intro _ h
      cases h
    | some signer =>
      rw [sign, if_neg ha, hs]
      refine ⟨trivial, fun key => ⟨trivial, fun view => ?_⟩⟩
      cases view with
      | error e =>
        intro _ h
        cases h
      | ok accessKey =>
        refine ⟨trivial, fun nonce => ?_⟩
        cases hhash : (b.transaction signer.accountId key.publicKey nonce
            accessKey.blockHash).getHash with
        | error e =>
          simp only [hhash]
          intro _ h
          cases h
        | ok txHash =>
          simp only [hhash]
          refine ⟨trivial, fun signature => ?_⟩
          cases signature with
          | error e =>
            intro _ h
            cases h
          | ok signature =>
            intro tx h
            cases h
            refine ⟨.intro signer key txHash hs rfl ?_ rfl hhash List.mem_cons_self,
              accessKey.nonce, ?_⟩
            · simp [Monitor.recording]
            · exact List.mem_cons_of_mem _ List.mem_cons_self

theorem signOffline_custody (blockHash : CryptoHash) (nonce : Nonce) :
    (b.signOffline blockHash nonce).Obeys (.recording b.submits)
      (fun xs r => ∀ tx, r = .ok tx → b.Signed xs tx) [] := by
  by_cases ha : b.actions.isEmpty
  · rw [signOffline, if_pos ha]
    intro _ h
    cases h
  · cases hs : b.effectiveSigner with
    | none =>
      rw [signOffline, if_neg ha, hs]
      intro _ h
      cases h
    | some signer =>
      rw [signOffline, if_neg ha, hs]
      refine ⟨trivial, fun key => ?_⟩
      cases hhash : (b.transaction signer.accountId key.publicKey nonce blockHash).getHash with
      | error e =>
        simp only [hhash]
        intro _ h
        cases h
      | ok txHash =>
        simp only [hhash]
        refine ⟨trivial, fun signature => ?_⟩
        cases signature with
        | error e =>
          intro _ h
          cases h
        | ok signature =>
          intro tx h
          cases h
          refine .intro signer key txHash hs rfl ?_ rfl hhash List.mem_cons_self
          simp [Monitor.recording]

end TransactionBuilder

private theorem TransactionSend.retryLoop_custody [Crates] (t : TransactionSend) {signer : Signer}
    (hs : t.builder.effectiveSigner = some signer) (left : ℕ) (attempt : UInt32)
    (lastError : Option Error) (lastAkNonce : Option Nonce) (xs : List (Exchange Request Answer)) :
    (t.retryLoop signer left attempt lastError lastAkNonce).Obeys (.recording t.builder.submits)
      (fun _ _ => True) xs := by
  induction left generalizing attempt lastError lastAkNonce xs with
  | zero => trivial
  | succ left ih =>
    refine ⟨trivial, fun key => ⟨trivial, fun view => ?_⟩⟩
    cases view with
    | error e => trivial
    | ok accessKey =>
      refine ⟨trivial, fun nonce => ?_⟩
      cases hhash : (t.builder.transaction signer.accountId key.publicKey nonce
          accessKey.blockHash).getHash with
      | error e =>
        simp only [hhash]
        trivial
      | ok txHash =>
        simp only [hhash]
        refine ⟨trivial, fun signature => ?_⟩
        cases signature with
        | error e => trivial
        | ok signature =>
          refine ⟨?_, fun result => ?_⟩
          · refine ⟨.intro signer key txHash hs rfl ?_ rfl hhash List.mem_cons_self,
              lastAkNonce.getD accessKey.nonce, ?_⟩
            · simp [Monitor.recording]
            · exact List.mem_cons_of_mem _ List.mem_cons_self
          · beta_reduce
            cases result with
            | ok response => trivial
            | error e =>
              cases e with
              | invalidTx e =>
                cases e with
                | invalidNonce akNonce txNonce =>
                  by_cases hlt : attempt < t.builder.maxNonceRetries
                  · rw [afterSend_invalidNonce, if_pos hlt]
                    exact ih _ _ _ _
                  · rw [afterSend_invalidNonce, if_neg hlt]
                    trivial
                | expired =>
                  by_cases hlt : attempt + 1 < t.builder.maxNonceRetries
                  · rw [afterSend_expired, if_pos hlt]
                    exact ih _ _ _ _
                  · rw [afterSend_expired, if_neg hlt]
                    trivial
                | _ => trivial
              | _ => trivial

theorem TransactionSend.intoFuture_custody [Crates] (t : TransactionSend) :
    t.intoFuture.Obeys (.recording t.builder.submits) (fun _ _ => True) [] := by
  by_cases ha : t.builder.actions.isEmpty
  · rw [intoFuture, if_pos ha]
    trivial
  · cases hs : t.builder.effectiveSigner with
    | none =>
      rw [intoFuture, if_neg ha, hs]
      trivial
    | some signer =>
      rw [intoFuture, if_neg ha, hs]
      exact t.retryLoop_custody hs _ 0 none none []

/-! ## Delegate actions -/

namespace TransactionBuilder
variable [Crates] (b : TransactionBuilder) (options : DelegateOptions)

/-- What `delegate` makes of the builder: its actions, none of them a delegate action,
signed by the claimed key, with a nonce that is given or fetched for this key. -/
structure Delegated (xs : List (Exchange Request Answer)) (d : DelegateResult) : Prop where
  nonempty : b.actions ≠ []
  notNested : ∀ a ∈ b.actions, a.isDelegate = false
  receiverId : d.signedDelegateAction.delegateAction.receiverId = b.receiverId
  actions : d.signedDelegateAction.delegateAction.actions =
    b.actions.filterMap NonDelegateAction.fromAction
  signed : b.SignedDelegate xs d.signedDelegateAction
  nonce : DelegateNonce options xs d

variable {b options}

/-- What the last part of `delegate` relies on. -/
structure Delegating (b : TransactionBuilder) (options : DelegateOptions) (signer : Signer)
    (key : SigningKey) (nonce : Nonce) (xs : List (Exchange Request Answer)) : Prop where
  nonempty : b.actions ≠ []
  notNested : ∀ a ∈ b.actions, a.isDelegate = false
  effective : b.effectiveSigner = some signer
  claimed : ⟨.key signer, key⟩ ∈ xs
  nonce : options.nonce = none → ∃ accessKey : AccessKeyView,
    ⟨.viewAccessKey signer.accountId key.publicKey .optimistic, .ok accessKey⟩ ∈ xs ∧
    nonce = accessKey.nonce + 1

omit [Crates] in
theorem Delegating.cons {signer : Signer} {key : SigningKey} {nonce : Nonce}
    {xs : List (Exchange Request Answer)} (h : Delegating b options signer key nonce xs)
    (x : Exchange Request Answer) : Delegating b options signer key nonce (x :: xs) where
  nonempty := h.nonempty
  notNested := h.notNested
  effective := h.effective
  claimed := List.mem_cons_of_mem x h.claimed
  nonce hnone := by
    obtain ⟨accessKey, hmem, hnonce⟩ := h.nonce hnone
    exact ⟨accessKey, List.mem_cons_of_mem x hmem, hnonce⟩

private theorem signDelegate_custody {signer : Signer} {key : SigningKey} {nonce : Nonce}
    {xs : List (Exchange Request Answer)} (h : Delegating b options signer key nonce xs)
    (maxBlockHeight : UInt64) :
    (b.signDelegate key signer.accountId nonce maxBlockHeight).Obeys (.recording b.submits)
      (fun xs r => ∀ d, r = .ok d → b.Delegated options xs d) xs := by
  cases hhash : DelegateAction.getHash ⟨signer.accountId, b.receiverId,
      b.actions.filterMap NonDelegateAction.fromAction, nonce, maxBlockHeight, key.publicKey⟩ with
  | error e =>
    rw [signDelegate_eq_panic rfl hhash]
    intro _ h
    cases h
  | ok hash =>
    rw [signDelegate_eq rfl hhash]
    refine ⟨trivial, fun signature => ?_⟩
    cases signature with
    | error e =>
      intro _ h
      cases h
    | ok signature =>
      simp only
      split
      · intro _ h
        cases h
      · intro d hd
        cases hd
        have hcons := h.cons ⟨.sign key hash, .ok signature⟩
        exact
          { nonempty := h.nonempty
            notNested := h.notNested
            receiverId := rfl
            actions := rfl
            signed := .intro signer key hash h.effective rfl hcons.claimed rfl hhash
              List.mem_cons_self
            nonce := hcons.nonce }

private theorem delegateAt_custody {signer : Signer} {key : SigningKey} {nonce : Nonce}
    {xs : List (Exchange Request Answer)} (h : Delegating b options signer key nonce xs) :
    (b.delegateAt options key signer.accountId nonce).Obeys (.recording b.submits)
      (fun xs r => ∀ d, r = .ok d → b.Delegated options xs d) xs := by
  unfold delegateAt
  cases options.maxBlockHeight with
  | some height => exact signDelegate_custody h height
  | none =>
    refine ⟨trivial, fun status => ?_⟩
    cases status with
    | error e =>
      intro _ h
      cases h
    | ok latestBlockHeight => exact signDelegate_custody (h.cons _) _

variable (b options)

theorem delegate_custody : (b.delegate options).Obeys (.recording b.submits)
    (fun xs r => ∀ d, r = .ok d → b.Delegated options xs d) [] := by
  by_cases ha : b.actions.isEmpty
  · rw [delegate, if_pos ha]
    intro _ h
    cases h
  · by_cases hd : b.actions.any Action.isDelegate
    · rw [delegate, if_neg ha, if_pos hd]
      intro _ h
      cases h
    · cases hs : b.effectiveSigner with
      | none =>
        rw [delegate, if_neg ha, if_neg hd, hs]
        intro _ h
        cases h
      | some signer =>
        rw [delegate, if_neg ha, if_neg hd, hs]
        refine ⟨trivial, fun key => ?_⟩
        have hne : b.actions ≠ [] := by simpa using ha
        have hnested : ∀ a ∈ b.actions, a.isDelegate = false := by simpa using hd
        cases hn : options.nonce with
        | some n =>
          simp only
          refine delegateAt_custody ⟨hne, hnested, hs, List.mem_cons_self, ?_⟩
          intro hnone
          rw [hn] at hnone
          cases hnone
        | none =>
          simp only
          refine ⟨trivial, fun view => ?_⟩
          cases view with
          | error e =>
            intro _ h
            cases h
          | ok accessKey =>
            refine delegateAt_custody ⟨hne, hnested, hs, ?_, fun _ => ?_⟩
            · exact List.mem_cons_of_mem _ List.mem_cons_self
            · exact ⟨accessKey, List.mem_cons_self, rfl⟩

end TransactionBuilder
end NearKit
