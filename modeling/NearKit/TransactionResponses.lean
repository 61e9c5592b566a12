import NearKit.RpcErrorParsing

/-!
# Responses of transactions

How the responses of `send_tx` and `EXPERIMENTAL_tx_status` are decoded and converted. The
outcome is flattened into an option, which drops it when any part of it does not decode, and
the status of an execution does not decode when it reports an invalid transaction.
-/
namespace NearKit
open Borsh Json

/-! ## Statuses -/

def TxExecutionStatus.fromJson : Decoder TxExecutionStatus := fun json => do
  let (name, payload) ← variant json
  match name with
  | "NONE" => unit none payload
  | "INCLUDED" => unit included payload
  | "EXECUTED_OPTIMISTIC" => unit executedOptimistic payload
  | "INCLUDED_FINAL" => unit includedFinal payload
  | "EXECUTED" => unit executed payload
  | "FINAL" => unit final payload
  | _ => .error .invalidType

/-- The status of an execution as it is written, with the errors of a whole transaction. -/
inductive RawExecutionStatus where
  | unknown
  | failure (error : TxExecutionError)
  | successValue (value : Bytes)
  | successReceiptId (id : CryptoHash)
  deriving DecidableEq

/-- `ExecutionStatus`, whose failure is an action error, without its details. -/
inductive ExecutionStatus where
  | unknown
  | failure
  | successValue (value : Bytes)
  | successReceiptId (id : CryptoHash)
  deriving DecidableEq

section
variable [RpcCrates]

def ExecutionStatus.ofRaw : RawExecutionStatus → Except SerdeError ExecutionStatus
  | .unknown => .ok unknown
  | .failure .actionError => .ok failure
  | .failure (.invalidTxError e) =>
    .error (.custom s!"unexpected InvalidTxError in receipt execution status: {e.display}")
  | .successValue v => .ok (successValue v)
  | .successReceiptId h => .ok (successReceiptId h)

def RawExecutionStatus.fromJson : Decoder RawExecutionStatus := fun json => do
  let (name, payload) ← variant json
  match name with
  | "Unknown" => bufferedUnit unknown payload
  | "Failure" => failure <$> newtype TxExecutionError.fromJson payload
  | "SuccessValue" => successValue <$> newtype RpcCrates.base64 payload
  | "SuccessReceiptId" => successReceiptId <$> newtype cryptoHashFromJson payload
  | _ => .error .invalidType

def ExecutionStatus.fromJson : Decoder ExecutionStatus := fun json => do
  let raw ← RawExecutionStatus.fromJson json
  ofRaw raw

end

/-- The JSON of a status that reports an invalid transaction. -/
def reportsInvalidTx : Json → Bool
  | .object [("Failure", .object [("InvalidTxError", _)])] => true
  | _ => false

section
variable [RpcCrates]

private theorem fromJson_invalidTxError {json : Json} {e : InvalidTxError}
    (h : TxExecutionError.fromJson json = .ok (.invalidTxError e)) :
    ∃ error, json = .object [("InvalidTxError", error)] := by
  obtain ⟨⟨name, payload⟩, hvariant, h⟩ := bind_eq_ok.mp h
  dsimp only at h
  split at h
  · obtain ⟨inner, rfl, h⟩ := newtype_eq_ok.mp h
    obtain ⟨fields, -, h⟩ := bind_eq_ok.mp h
    obtain ⟨index, -, h⟩ := bind_eq_ok.mp h
    obtain ⟨kind, -, h⟩ := bind_eq_ok.mp h
    cases h
  · obtain ⟨error, rfl, -⟩ := newtype_eq_ok.mp h
    exact ⟨error, variant_eq_ok_some.mp hvariant⟩
  · cases h

private theorem exists_rawInvalidTx {json : Json} :
    (∃ e, RawExecutionStatus.fromJson json = .ok (.failure (.invalidTxError e))) ↔
      reportsInvalidTx json = true := by
  constructor
  · rintro ⟨e, h⟩
    obtain ⟨⟨name, payload⟩, hvariant, h⟩ := bind_eq_ok.mp h
    dsimp only at h
    split at h
    · cases eq_of_bufferedUnit h
    · obtain ⟨error, hnewtype, herror⟩ := map_eq_ok.mp h
      cases herror
      obtain ⟨inner, rfl, hinner⟩ := newtype_eq_ok.mp hnewtype
      obtain ⟨error, rfl⟩ := fromJson_invalidTxError hinner
      rw [variant_eq_ok_some.mp hvariant]
      rfl
    · obtain ⟨value, -, hvalue⟩ := map_eq_ok.mp h
      cases hvalue
    · obtain ⟨id, -, hid⟩ := map_eq_ok.mp h
      cases hid
    · cases h
  · intro h
    unfold reportsInvalidTx at h
    split at h
    · exact ⟨_, rfl⟩
    · cases h

/-- The status of an execution decodes unless it reports an invalid transaction. -/
theorem exists_executionStatus {json : Json} {raw : RawExecutionStatus}
    (h : RawExecutionStatus.fromJson json = .ok raw) :
    (∃ s, ExecutionStatus.fromJson json = .ok s) ↔ reportsInvalidTx json = false := by
  have hdecode : ExecutionStatus.fromJson json = ExecutionStatus.ofRaw raw := by
    unfold ExecutionStatus.fromJson
    rw [h]
    rfl
  rw [hdecode, ← Bool.not_eq_true, ← exists_rawInvalidTx, h]
  cases raw with
  | failure error =>
    cases error with
    | actionError => exact iff_of_true ⟨_, rfl⟩ nofun
    | invalidTxError e => exact iff_of_false nofun fun hnot => hnot ⟨e, rfl⟩
  | _ => exact iff_of_true ⟨_, rfl⟩ nofun

end

/-! ## Outcomes -/

def NonceMode.fromJson : Decoder NonceMode := fun json => do
  let (name, payload) ← variant json
  match name with
  | "monotonic" => bufferedUnit monotonic payload
  | "strict" => bufferedUnit strict payload
  | _ => .error .invalidType

namespace Rpc

structure TransactionView where
  signerId : AccountId
  publicKey : PublicKey
  nonce : UInt64
  receiverId : AccountId
  hash : CryptoHash
  actions : List Json
  signature : Signature
  priorityFee : Option UInt64
  nonceIndex : Option UInt16
  nonceMode : Option NonceMode

/-- An outcome. The code has `ExecutionStatus` for the type of its status. -/
structure ExecutionOutcome (Status : Type) where
  executorId : AccountId
  gasBurnt : UInt64
  tokensBurnt : NearToken
  logs : List String
  receiptIds : List CryptoHash
  status : Status
  metadata : Option Json

structure ExecutionOutcomeWithId (Status : Type) where
  id : CryptoHash
  outcome : ExecutionOutcome Status
  proof : List Json
  blockHash : CryptoHash

structure FinalExecutionOutcome (Status : Type) where
  status : FinalExecutionStatus
  transaction : TransactionView
  transactionOutcome : ExecutionOutcomeWithId Status
  receiptsOutcome : List (ExecutionOutcomeWithId Status)
  receipts : List Json

structure RawTransactionResponse where
  transactionHash : CryptoHash
  finalExecutionStatus : TxExecutionStatus
  outcome : Option (FinalExecutionOutcome ExecutionStatus)

/-- What the conversion looks at. -/
def RawTransactionResponse.toResponse (response : RawTransactionResponse) :
    NearKit.RawTransactionResponse :=
  ⟨response.transactionHash, response.finalExecutionStatus,
    response.outcome.map fun outcome => ⟨outcome.status⟩⟩

/-- The statuses of the transaction's execution and of its receipts. -/
def FinalExecutionOutcome.statuses {Status : Type} (outcome : FinalExecutionOutcome Status) :
    List Status :=
  (outcome.transactionOutcome :: outcome.receiptsOutcome).map fun o => o.outcome.status

section
variable [RpcCrates]

def TransactionView.fromJson : Decoder TransactionView := fun json => do
  let fields ← structFields ["signer_id", "public_key", "nonce", "receiver_id", "hash", "actions",
    "signature", "priority_fee", "nonce_index", "nonce_mode"] 7 json
  let signerId ← required fields "signer_id" accountIdFromJson
  let publicKey ← required fields "public_key" publicKeyFromJson
  let nonce ← required fields "nonce" u64
  let receiverId ← required fields "receiver_id" accountIdFromJson
  let hash ← required fields "hash" cryptoHashFromJson
  let actions ← defaulted fields "actions" [] (list (checked RpcCrates.actionView))
  let signature ← required fields "signature" signatureFromJson
  let priorityFee ← optional fields "priority_fee" u64
  let nonceIndex ← optional fields "nonce_index" u16
  let nonceMode ← optional fields "nonce_mode" NonceMode.fromJson
  return ⟨signerId, publicKey, nonce, receiverId, hash, actions, signature, priorityFee, nonceIndex,
    nonceMode⟩

variable {Status : Type}

def ExecutionOutcome.fromJson (status : Decoder Status) : Decoder (ExecutionOutcome Status) :=
  fun json => do
  let fields ← structFields ["executor_id", "gas_burnt", "tokens_burnt", "logs", "receipt_ids",
    "status", "metadata"] 6 json
  let executorId ← required fields "executor_id" accountIdFromJson
  let gasBurnt ← required fields "gas_burnt" RpcCrates.gas
  let tokensBurnt ← required fields "tokens_burnt" RpcCrates.nearToken
  let logs ← required fields "logs" (list asString)
  let receiptIds ← required fields "receipt_ids" (list cryptoHashFromJson)
  let status ← required fields "status" status
  let metadata ← optional fields "metadata" (checked RpcCrates.executionMetadata)
  return ⟨executorId, gasBurnt, tokensBurnt, logs, receiptIds, status, metadata⟩

def ExecutionOutcomeWithId.fromJson (status : Decoder Status) :
    Decoder (ExecutionOutcomeWithId Status) := fun json => do
  let fields ← structFields ["id", "outcome", "proof", "block_hash"] 4 json
  let id ← required fields "id" cryptoHashFromJson
  let outcome ← required fields "outcome" (ExecutionOutcome.fromJson status)
  let proof ← defaulted fields "proof" [] (list (checked RpcCrates.merklePathItem))
  let blockHash ← required fields "block_hash" cryptoHashFromJson
  return ⟨id, outcome, proof, blockHash⟩

/-- The fields of an outcome, among the fields it is flattened into. -/
def FinalExecutionOutcome.fromFields (status : Decoder Status) (fields : List (String × Json)) :
    Except SerdeError (FinalExecutionOutcome Status) := do
  let finalStatus ← required fields "status" FinalExecutionStatus.fromJson
  let transaction ← required fields "transaction" TransactionView.fromJson
  let transactionOutcome ← required fields "transaction_outcome" (ExecutionOutcomeWithId.fromJson status)
  let receiptsOutcome ←
    required fields "receipts_outcome" (list (ExecutionOutcomeWithId.fromJson status))
  let receipts ← defaulted fields "receipts" [] (list (checked RpcCrates.receipt))
  return ⟨finalStatus, transaction, transactionOutcome, receiptsOutcome, receipts⟩

/-- A flattened option is none where the value inside does not decode. -/
def RawTransactionResponse.fromJson : Decoder RawTransactionResponse := fun json => do
  let fields ← json.asObject
  let finalExecutionStatus ← required fields "final_execution_status" TxExecutionStatus.fromJson
  let outcome := (FinalExecutionOutcome.fromFields ExecutionStatus.fromJson fields).toOption
  return ⟨.zeros 32, finalExecutionStatus, outcome⟩

end

/-! ## The two methods -/

inductive Method where
  | sendTx | txStatus
  deriving DecidableEq

/-- The hash of a response is the one sent, or the one of the outcome. -/
def Method.withHash (method : Method) (txHash : CryptoHash) (response : RawTransactionResponse) :
    RawTransactionResponse :=
  match method with
  | sendTx => { response with transactionHash := txHash }
  | txStatus =>
    let hash := response.outcome.map fun outcome => outcome.transactionOutcome.id
    { response with transactionHash := hash.getD txHash }

/-- The end of an operation at a wait level, from the result that the node sends. -/
def Method.finish [RpcCrates] (method : Method) (level : WaitLevel) (txHash : CryptoHash)
    (senderId : AccountId) (result : Json) : Except Error SendResponse := do
  match RawTransactionResponse.fromJson result with
  | .error e => .error (.fromRpc (.json (RpcCrates.jsonErrorText e)))
  | .ok response => level.convert (method.withHash txHash response).toResponse senderId

/-! ## Decoding with the statuses left as JSON -/

section
variable [RpcCrates] {Status : Type} (status : Decoder Status)

private theorem ExecutionOutcome.readsChecked :
    ReadsChecked (ExecutionOutcome.fromJson status) (ExecutionOutcome.fromJson .ok)
      fun o => ∃ s, status o.status = .ok s := by
  intro json
  refine .bind _ fun fields => .bind _ fun executorId => .bind _ fun gasBurnt =>
    .bind _ fun tokensBurnt => .bind _ fun logs => .bind _ fun receiptIds =>
    .bind_checked ((ReadsChecked.of_ok status).required fields "status") ?_ ?_
  · intro s value hvalue
    exact .bind _ fun metadata => .pure hvalue
  · intro value o h ho
    obtain ⟨metadata, -, h⟩ := bind_eq_ok.mp h
    cases h
    exact ho

private theorem ExecutionOutcomeWithId.readsChecked :
    ReadsChecked (ExecutionOutcomeWithId.fromJson status) (ExecutionOutcomeWithId.fromJson .ok)
      fun o => ∃ s, status o.outcome.status = .ok s := by
  intro json
  refine .bind _ fun fields => .bind _ fun id =>
    .bind_checked ((ExecutionOutcome.readsChecked status).required fields "outcome") ?_ ?_
  · intro checked outcome houtcome
    exact .bind _ fun proof => .bind _ fun blockHash => .pure houtcome
  · intro outcome o h ho
    obtain ⟨proof, -, h⟩ := bind_eq_ok.mp h
    obtain ⟨blockHash, -, h⟩ := bind_eq_ok.mp h
    cases h
    exact ho

/-- An outcome decodes exactly when it does with its statuses left as JSON and each of them
decodes. -/
theorem FinalExecutionOutcome.succeedsWhen (fields : List (String × Json)) :
    SucceedsWhen (FinalExecutionOutcome.fromFields status fields) (fromFields .ok fields)
      fun o => ∀ json ∈ o.statuses, ∃ s, status json = .ok s := by
  have hwithId := ExecutionOutcomeWithId.readsChecked status
  refine .bind _ fun finalStatus => .bind _ fun transaction =>
    .bind_checked (hwithId.required fields "transaction_outcome") ?_ ?_
  · intro checked transactionOutcome htransaction
    refine .bind_checked (hwithId.list.required fields "receipts_outcome") ?_ ?_
    · intro checked receiptsOutcome hreceipts
      refine .bind _ fun receipts => .pure ?_
      rw [statuses, List.map_cons, List.forall_mem_cons, List.forall_mem_map]
      exact ⟨htransaction, hreceipts⟩
    · intro receiptsOutcome o h ho
      obtain ⟨receipts, -, h⟩ := bind_eq_ok.mp h
      cases h
      rw [statuses, List.map_cons, List.forall_mem_cons, List.forall_mem_map] at ho
      exact ho.2
  · intro transactionOutcome o h ho
    obtain ⟨receiptsOutcome, -, h⟩ := bind_eq_ok.mp h
    obtain ⟨receipts, -, h⟩ := bind_eq_ok.mp h
    cases h
    rw [statuses, List.map_cons, List.forall_mem_cons] at ho
    exact ho.1

theorem FinalExecutionOutcome.status_of_fromFields {fields : List (String × Json)}
    {o : FinalExecutionOutcome Status} (h : fromFields status fields = .ok o) :
    required fields "status" FinalExecutionStatus.fromJson = .ok o.status := by
  obtain ⟨finalStatus, hstatus, h⟩ := bind_eq_ok.mp h
  obtain ⟨transaction, -, h⟩ := bind_eq_ok.mp h
  obtain ⟨transactionOutcome, -, h⟩ := bind_eq_ok.mp h
  obtain ⟨receiptsOutcome, -, h⟩ := bind_eq_ok.mp h
  obtain ⟨receipts, -, h⟩ := bind_eq_ok.mp h
  cases h
  exact hstatus

end

end Rpc
end NearKit
