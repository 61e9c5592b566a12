import NearKit.Base58Text
import NearKit.NonceManager
import NearKit.Processes
import NearKit.WireRoundTrips

/-!
# The operations on transactions

`send`, `sign`, `build` and `delegate` of the transaction builder, as processes. A
request is a call to the signer, to the RPC client or to the nonce manager; everything
else is computed in between. Tracing is left out.
-/
namespace NearKit
open Borsh

/-! ## Requests and answers -/

/-- A signer object. Its answers to `key()` are the environment's. -/
structure Signer where
  handle : ℕ
  accountId : AccountId
  deriving DecidableEq

/-- A public key with the backend that signs for it. -/
structure SigningKey where
  publicKey : PublicKey
  backend : ℕ
  deriving DecidableEq

inductive Finality where
  | optimistic | nearFinal | final
  deriving DecidableEq, Repr

inductive TxExecutionStatus where
  | none | included | executedOptimistic | includedFinal | executed | final
  deriving DecidableEq, Repr

def CryptoHash.display (hash : CryptoHash) : String := Base58.encode hash.val

structure AccessKeyView where
  nonce : Nonce
  blockHeight : UInt64
  blockHash : CryptoHash
  deriving DecidableEq

/-- `TxExecutionError`, an action error without its details. -/
inductive TxExecutionError where
  | actionError
  | invalidTxError (error : InvalidTxError)
  deriving DecidableEq

inductive FinalExecutionStatus where
  | notStarted
  | started
  | failure (error : TxExecutionError)
  | successValue (value : String)
  deriving DecidableEq

/-- The part of an execution outcome that the client looks at. -/
structure FinalExecutionOutcome where
  status : FinalExecutionStatus
  deriving DecidableEq

structure RawTransactionResponse where
  transactionHash : CryptoHash
  finalExecutionStatus : TxExecutionStatus
  outcome : Option FinalExecutionOutcome
  deriving DecidableEq

structure SendTxResponse where
  transactionHash : CryptoHash
  senderId : AccountId
  outcome : Option FinalExecutionOutcome
  deriving DecidableEq

inductive Request where
  | key (signer : Signer)
  | publicKey (signer : Signer)
  | viewAccessKey (accountId : AccountId) (publicKey : PublicKey) (finality : Finality)
  | status
  | nextNonce (network : Network) (accountId : AccountId) (publicKey : PublicKey)
      (blockchainNonce : Nonce)
  | sign (key : SigningKey) (message : CryptoHash)
  | sendTx (signedTx : SignedTransaction) (waitUntil : TxExecutionStatus)
  deriving DecidableEq

@[reducible] def Answer : Request → Type
  | .key _ => SigningKey
  | .publicKey _ => PublicKey
  | .viewAccessKey .. => Except RpcError AccessKeyView
  | .status => Except RpcError UInt64
  | .nextNonce .. => Nonce
  | .sign .. => Except SignerError Signature
  | .sendTx .. => Except RpcError RawTransactionResponse

/-- How an operation ends. A panic is an `expect` that fails. -/
inductive Exit (α : Type) where
  | ok (value : α)
  | err (error : Error)
  | panic
  deriving DecidableEq

abbrev Operation (α : Type) := Process Request Answer (Exit α)

/-! ## Wait levels -/

inductive WaitLevel where
  | submitted | included | includedFinal | executedOptimistic | executed | final
  deriving DecidableEq, Repr

/-- The associated `Response` types, in one. -/
inductive SendResponse where
  | response (response : SendTxResponse)
  | outcome (outcome : FinalExecutionOutcome)
  deriving DecidableEq

namespace WaitLevel

def status : WaitLevel → TxExecutionStatus
  | submitted => .none
  | included => .included
  | includedFinal => .includedFinal
  | executedOptimistic => .executedOptimistic
  | executed => .executed
  | final => .final

def sendTxResponse (response : RawTransactionResponse) (senderId : AccountId) : SendTxResponse :=
  ⟨response.transactionHash, senderId, response.outcome⟩

/-- The message of an outcome that is missing at an executed level. -/
def missingOutcome (hash : CryptoHash) (level : String) : String :=
  s!"RPC returned no execution outcome for transaction {CryptoHash.display hash} at wait level {level}"

def extractOutcome (response : RawTransactionResponse) (level : String) :
    Except Error FinalExecutionOutcome :=
  match response.outcome with
  | none => .error (.invalidTransaction (missingOutcome response.transactionHash level))
  | some outcome =>
    match outcome.status with
    | .failure (.invalidTxError e) => .error (.invalidTx e)
    | _ => .ok outcome

def convert (level : WaitLevel) (response : RawTransactionResponse) (senderId : AccountId) :
    Except Error SendResponse :=
  match level with
  | submitted => .ok (.response (sendTxResponse response senderId))
  | included => .ok (.response (sendTxResponse response senderId))
  | includedFinal => .ok (.response (sendTxResponse response senderId))
  | executedOptimistic => .outcome <$> extractOutcome response "ExecutedOptimistic"
  | executed => .outcome <$> extractOutcome response "Executed"
  | final => .outcome <$> extractOutcome response "Final"

end WaitLevel

def Exit.ofExcept {α : Type} : Except Error α → Exit α
  | .ok a => .ok a
  | .error e => .err e

/-! ## The builder -/

structure TransactionBuilder where
  /-- The URL of the RPC client, the network name of the nonce manager. -/
  url : Network
  signer : Option Signer
  signerOverride : Option Signer
  receiverId : AccountId
  actions : List Action
  maxNonceRetries : UInt32
  deriving DecidableEq

structure DelegateOptions where
  maxBlockHeight : Option UInt64
  blockHeightOffset : Option UInt64
  nonce : Option Nonce
  deriving DecidableEq

structure DelegateResult where
  signedDelegateAction : SignedDelegateAction
  payload : String
  deriving DecidableEq

namespace TransactionBuilder
variable [Crates]

def atLeastOneAction : Error := .invalidTransaction "Transaction must have at least one action"

/-- The signer in effect: the override, or else the configured one. -/
def effectiveSigner (b : TransactionBuilder) : Option Signer := b.signerOverride.or b.signer

/-- `Transaction::new` with the builder's receiver and actions. -/
def transaction (b : TransactionBuilder) (signerId : AccountId) (publicKey : PublicKey)
    (nonce : Nonce) (blockHash : CryptoHash) : Transaction :=
  ⟨signerId, publicKey, nonce, b.receiverId, blockHash, b.actions⟩

/-- Only the lengths inside its actions can keep a transaction from being hashed. -/
theorem exists_getHash (b : TransactionBuilder) (h : Format.action.vec.Fits b.actions)
    (signerId : AccountId) (publicKey : PublicKey) (nonce : Nonce) (blockHash : CryptoHash) :
    ∃ hash, (b.transaction signerId publicKey nonce blockHash).getHash = .ok hash := by
  have hfits : Format.transaction.Fits (b.transaction signerId publicKey nonce blockHash) := by
    intro p hp
    rcases List.mem_cons.mp hp with rfl | hp
    · trivial
    rcases List.mem_cons.mp hp with rfl | hp
    · trivial
    rcases List.mem_cons.mp hp with rfl | hp
    · trivial
    exact h p hp
  obtain ⟨bytes, hbytes⟩ := (Format.transaction.lawful.fits_iff _).mp hfits
  refine ⟨Crates.sha256 bytes, ?_⟩
  unfold Transaction.getHash hashOf
  rw [Codec.toVec, hbytes]
  rfl

theorem fits_of_getHash {b : TransactionBuilder} {signerId : AccountId} {publicKey : PublicKey}
    {nonce : Nonce} {blockHash hash : CryptoHash}
    (h : (b.transaction signerId publicKey nonce blockHash).getHash = .ok hash) :
    Format.action.vec.Fits b.actions := by
  unfold Transaction.getHash hashOf at h
  cases hbytes : Format.transaction.toVec (b.transaction signerId publicKey nonce blockHash) with
  | error e =>
    rw [hbytes] at h
    cases h
  | ok bytes =>
    have hfits := (Format.transaction.lawful.fits_iff _).mpr ⟨bytes, hbytes⟩
    intro p hp
    exact hfits p (List.mem_cons_of_mem _ (List.mem_cons_of_mem _ (List.mem_cons_of_mem _ hp)))

/-- `TransactionBuilder::build`. It asks for the public key only, so that a rotating
signer does not advance. -/
def build (b : TransactionBuilder) : Operation Transaction :=
  if b.actions.isEmpty then .done (.err atLeastOneAction)
  else match b.effectiveSigner with
  | none => .done (.err .noSigner)
  | some signer =>
    let signerId := signer.accountId
    .ask (.publicKey signer) fun publicKey =>
    .ask (.viewAccessKey signerId publicKey .final) fun
    | .error e => .done (.err (.fromRpc e))
    | .ok accessKey =>
      .ask (.nextNonce b.url signerId publicKey accessKey.nonce) fun nonce =>
      .done (.ok (b.transaction signerId publicKey nonce accessKey.blockHash))

def sign (b : TransactionBuilder) : Operation SignedTransaction :=
  if b.actions.isEmpty then .done (.err atLeastOneAction)
  else match b.effectiveSigner with
  | none => .done (.err .noSigner)
  | some signer =>
    let signerId := signer.accountId
    .ask (.key signer) fun key =>
    .ask (.viewAccessKey signerId key.publicKey .final) fun
    | .error e => .done (.err (.fromRpc e))
    | .ok accessKey =>
      .ask (.nextNonce b.url signerId key.publicKey accessKey.nonce) fun nonce =>
      let tx := b.transaction signerId key.publicKey nonce accessKey.blockHash
      match tx.getHash with
      | .error _ => .done .panic
      | .ok txHash =>
        .ask (.sign key txHash) fun
        | .error e => .done (.err (.signing e))
        | .ok signature => .done (.ok ⟨tx, signature⟩)

/-- The last part of `delegate`: the action is hashed, signed and encoded. -/
def signDelegate (b : TransactionBuilder) (key : SigningKey) (senderId : AccountId) (nonce : Nonce)
    (maxBlockHeight : UInt64) : Operation DelegateResult :=
  let delegateActions := b.actions.filterMap NonDelegateAction.fromAction
  let delegateAction : DelegateAction :=
    ⟨senderId, b.receiverId, delegateActions, nonce, maxBlockHeight, key.publicKey⟩
  match delegateAction.getHash with
  | .error _ => .done .panic
  | .ok hash =>
    .ask (.sign key hash) fun
    | .error e => .done (.err (.signing e))
    | .ok signature =>
      let signedDelegateAction := delegateAction.sign signature
      match signedDelegateAction.toBase64 with
      | .error _ => .done .panic
      | .ok payload => .done (.ok ⟨signedDelegateAction, payload⟩)

section
variable {b : TransactionBuilder} {key : SigningKey} {senderId : AccountId} {nonce : Nonce}
variable {maxBlockHeight : UInt64} {action : DelegateAction}

theorem signDelegate_eq {hash : CryptoHash}
    (haction : action = ⟨senderId, b.receiverId, b.actions.filterMap NonDelegateAction.fromAction,
      nonce, maxBlockHeight, key.publicKey⟩) (hhash : action.getHash = .ok hash) :
    b.signDelegate key senderId nonce maxBlockHeight = .ask (.sign key hash) fun
      | .error e => .done (.err (.signing e))
      | .ok signature =>
        match (action.sign signature).toBase64 with
        | .error _ => .done .panic
        | .ok payload => .done (.ok ⟨action.sign signature, payload⟩) := by
  subst haction
  unfold signDelegate
  simp only
  rewrite [hhash]
  rfl

/-- An action that cannot be hashed is not signed. -/
theorem signDelegate_eq_panic {e : Borsh.IoError}
    (haction : action = ⟨senderId, b.receiverId, b.actions.filterMap NonDelegateAction.fromAction,
      nonce, maxBlockHeight, key.publicKey⟩) (hhash : action.getHash = .error e) :
    b.signDelegate key senderId nonce maxBlockHeight = .done .panic := by
  subst haction
  unfold signDelegate
  simp only
  rewrite [hhash]
  rfl

end

/-- The middle part of `delegate`: the nonce is known, the block height is not. -/
def delegateAt (b : TransactionBuilder) (options : DelegateOptions) (key : SigningKey)
    (senderId : AccountId) (nonce : Nonce) : Operation DelegateResult :=
  match options.maxBlockHeight with
  | some h => b.signDelegate key senderId nonce h
  | none =>
    .ask .status fun
    | .error e => .done (.err (.fromRpc e))
    | .ok latestBlockHeight =>
      b.signDelegate key senderId nonce (latestBlockHeight + options.blockHeightOffset.getD 200)

/-- `TransactionBuilder::delegate`. Its nonce does not come from the nonce manager. -/
def delegate (b : TransactionBuilder) (options : DelegateOptions) : Operation DelegateResult :=
  if b.actions.isEmpty then
    .done (.err (.invalidTransaction "Delegate action requires at least one action"))
  else if b.actions.any Action.isDelegate then
    .done (.err (.invalidTransaction
      "Delegate actions cannot contain nested signed delegate actions"))
  else match b.effectiveSigner with
  | none => .done (.err .noSigner)
  | some signer =>
    let senderId := signer.accountId
    .ask (.key signer) fun key =>
    match options.nonce with
    | some n => b.delegateAt options key senderId n
    | none =>
      .ask (.viewAccessKey senderId key.publicKey .optimistic) fun
      | .error e => .done (.err (.fromRpc e))
      | .ok accessKey => b.delegateAt options key senderId (accessKey.nonce + 1)

end TransactionBuilder

/-! ## Sending -/

structure TransactionSend where
  builder : TransactionBuilder
  waitLevel : WaitLevel
  deriving DecidableEq

namespace TransactionSend
variable [Crates]

def unknownError : Error := .invalidTransaction "Unknown error during transaction send"

omit [Crates] in
/-- What an iteration does with the result of its `send_tx`. The two arguments of
`again` are `last_error` and `last_ak_nonce`; the iteration's `take()` has cleared the
latter. -/
def afterSend (t : TransactionSend) (signerId : AccountId) (attempt : UInt32)
    (again : Option Error → Option Nonce → Operation SendResponse) :
    Except RpcError RawTransactionResponse → Operation SendResponse
  | .ok response => .done (.ofExcept (t.waitLevel.convert response signerId))
  | .error (.invalidTx (.invalidNonce akNonce txNonce)) =>
    if attempt < t.builder.maxNonceRetries then
      again (some (.invalidTx (.invalidNonce akNonce txNonce))) (some akNonce)
    else .done (.err (.fromRpc (.invalidTx (.invalidNonce akNonce txNonce))))
  | .error (.invalidTx .expired) =>
    if attempt + 1 < t.builder.maxNonceRetries then again (some (.invalidTx .expired)) none
    else .done (.err (.fromRpc (.invalidTx .expired)))
  | .error e => .done (.err (.fromRpc e))

section
omit [Crates]
variable (t : TransactionSend) (signerId : AccountId) (attempt : UInt32)
variable (again : Option Error → Option Nonce → Operation SendResponse)

theorem afterSend_invalidNonce (akNonce txNonce : Nonce) :
    t.afterSend signerId attempt again (.error (.invalidTx (.invalidNonce akNonce txNonce))) =
      if attempt < t.builder.maxNonceRetries then
        again (some (.invalidTx (.invalidNonce akNonce txNonce))) (some akNonce)
      else .done (.err (.invalidTx (.invalidNonce akNonce txNonce))) :=
  rfl

theorem afterSend_expired :
    t.afterSend signerId attempt again (.error (.invalidTx .expired)) =
      if attempt + 1 < t.builder.maxNonceRetries then again (some (.invalidTx .expired)) none
      else .done (.err (.invalidTx .expired)) :=
  rfl

end

/-- The iterations `attempt..=max_nonce_retries` of the retry loop, `left` of them. -/
def retryLoop (t : TransactionSend) (signer : Signer) (left : ℕ) (attempt : UInt32)
    (lastError : Option Error) (lastAkNonce : Option Nonce) : Operation SendResponse :=
  match left with
  | 0 => .done (.err (lastError.getD unknownError))
  | left + 1 =>
    let b := t.builder
    let signerId := signer.accountId
    .ask (.key signer) fun key =>
    .ask (.viewAccessKey signerId key.publicKey .final) fun
    | .error e => .done (.err (.fromRpc e))
    | .ok accessKey =>
      .ask (.nextNonce b.url signerId key.publicKey (lastAkNonce.getD accessKey.nonce)) fun nonce =>
      let tx := b.transaction signerId key.publicKey nonce accessKey.blockHash
      match tx.getHash with
      | .error _ => .done .panic
      | .ok txHash =>
        .ask (.sign key txHash) fun
        | .error e => .done (.err (.signing e))
        | .ok signature =>
          .ask (.sendTx ⟨tx, signature⟩ t.waitLevel.status) fun result =>
          t.afterSend signerId attempt
            (fun lastError lastAkNonce =>
              t.retryLoop signer left (attempt + 1) lastError lastAkNonce) result

def intoFuture (t : TransactionSend) : Operation SendResponse :=
  if t.builder.actions.isEmpty then .done (.err TransactionBuilder.atLeastOneAction)
  else match t.builder.effectiveSigner with
  | none => .done (.err .noSigner)
  | some signer =>
    t.retryLoop signer (t.builder.maxNonceRetries.toNat + 1) 0 none none

theorem intoFuture_eq {t : TransactionSend} {signer : Signer} (ha : t.builder.actions ≠ [])
    (hs : t.builder.effectiveSigner = some signer) :
    t.intoFuture = t.retryLoop signer (t.builder.maxNonceRetries.toNat + 1) 0 none none := by
  unfold intoFuture
  rw [if_neg (by simpa using ha), hs]

end TransactionSend

/-! ## Samples -/

def AccessKeyView.sample (nonce : Nonce) : AccessKeyView := ⟨nonce, 0, .zeros 32⟩

def Signer.sample : Signer := ⟨0, .alice⟩

def TransactionBuilder.sample (maxNonceRetries : UInt32) : TransactionBuilder :=
  ⟨"testnet", some .sample, none, .bob, [.transfer ⟨1⟩], maxNonceRetries⟩

def TransactionSend.sample (maxNonceRetries : UInt32) : TransactionSend :=
  ⟨.sample maxNonceRetries, .final⟩

end NearKit
