import NearKit.TransactionErrors
import NearKit.RpcCalls

/-!
# Errors of the RPC protocol

The error of a JSON-RPC response and what `parse_rpc_error` makes of it: the name of its
cause selects a typed error, and an error without a known cause stays generic.
-/
namespace NearKit
open Json

/-! ## Responses -/

structure ErrorCause where
  name : String
  info : Option Json

structure JsonRpcError where
  code : Int64
  message : String
  data : Option Json
  cause : Option ErrorCause
  name : Option String

structure JsonRpcResponse where
  jsonrpc : String
  id : UInt64
  result : Option Json
  error : Option JsonRpcError

def ErrorCause.fromJson : Decoder ErrorCause := fun json => do
  let fields ← structFields ["name", "info"] 1 json
  let name ← required fields "name" asString
  let info ← optional fields "info" .ok
  return ⟨name, info⟩

def JsonRpcError.fromJson : Decoder JsonRpcError := fun json => do
  let fields ← structFields ["code", "message", "data", "cause", "name"] 2 json
  let code ← required fields "code" i64
  let message ← required fields "message" asString
  let data ← optional fields "data" .ok
  let cause ← optional fields "cause" ErrorCause.fromJson
  let name ← optional fields "name" asString
  return ⟨code, message, data, cause, name⟩

def JsonRpcResponse.fromJson : Decoder JsonRpcResponse := fun json => do
  let fields ← structFields ["jsonrpc", "id", "result", "error"] 4 json
  let jsonrpc ← required fields "jsonrpc" asString
  let id ← required fields "id" u64
  let result ← optional fields "result" .ok
  let error ← optional fields "error" JsonRpcError.fromJson
  return ⟨jsonrpc, id, result, error⟩

/-! ## What a cause says -/

namespace ErrorCause
variable (cause : ErrorCause)

def member (key : String) : Option Json := cause.info.bind (·.get key)

def memberStr (key : String) : Option String := (cause.member key).bind asStr

/-- The account of a contract, under one of its keys. -/
def contractMember : Option Json :=
  cause.info.bind fun info =>
    (info.get "contract_account_id").or ((info.get "account_id").or (info.get "contract_id"))

def blockContext : Option UInt64 × Option CryptoHash :=
  ((cause.member "block_height").bind asU64, (cause.memberStr "block_hash").bind cryptoHashFromStr)

end ErrorCause

/-- The account that stands in where the node names none. -/
def unknownAccountId : AccountId := ⟨"unknown", by decide, by decide⟩

section
variable [RpcCrates]

/-- An untagged enum tries its variants in their order. Only an object has the first four. -/
def GlobalContractIdentifierView.fromValue (value : Json) : Option GlobalContractIdentifierView :=
  let codeHash (json : Json) := (cryptoHashFromJson json).toOption.map .codeHash
  let accountId (json : Json) := (accountIdFromJson json).toOption.map .accountId
  [(value.get "hash").bind codeHash, (value.get "account_id").bind accountId,
    (value.get "CodeHash").bind codeHash, (value.get "AccountId").bind accountId,
    codeHash value, accountId value].findSome? id

def structuredError (info : Json) (key : String) : Option FunctionCallError := do
  let value ← info.get key
  if value.isObject then
    match RpcCrates.functionCallError ((value.get "FunctionCallError").getD value) with
    | .unknown _ => none
    | error => some error
  else none

def parseFunctionCallError (info : Option Json) : Option FunctionCallError := do
  let info ← info
  ["vm_error", "error"].findSome? (structuredError info)

def tryParseInvalidTx (data : Json) : Option InvalidTxError :=
  let nested := (data.get "TxExecutionError").bind (·.get "InvalidTxError")
  (nested.or (data.get "InvalidTxError")).map InvalidTxError.fromJson

/-- `RpcError::invalid_transaction`. -/
def RpcError.ofRejection (message : String) (details : Option Json) : RpcError :=
  match details.bind tryParseInvalidTx with
  | some error => .invalidTx error
  | none => .invalidTransaction message

/-! ## From a cause to an error -/

namespace RpcClient

def contractError (error : JsonRpcError) (cause : ErrorCause) (blockHeight : Option UInt64)
    (blockHash : Option CryptoHash) : AtBlock :=
  let dataStr := error.data.bind asStr
  let contractId :=
    (AccountId.validate ((cause.memberStr "contract_id").getD "unknown")).getD unknownAccountId
  let methodName := cause.memberStr "method_name"
  let functionCallError := parseFunctionCallError cause.info
  let structured := functionCallError.bind fun error =>
    classifyFunctionCallError error contractId methodName blockHeight blockHash
  let legacy := ([dataStr, cause.memberStr "vm_error"].filterMap id).findSome? fun message =>
    classifyLegacyFunctionCallError message.toList contractId methodName blockHeight blockHash
  match structured.or legacy with
  | some specificError => specificError
  | none =>
    let message := dataStr.or ((functionCallError.map RpcCrates.functionCallErrorText).or
      ((cause.member "vm_error").map RpcCrates.jsonText))
    ⟨.contractExecution contractId methodName (message.getD error.message), blockHeight, blockHash⟩

/-- The block of a height past the horizon. An all-zero hash is no hash. -/
def collectedBlock (blockHeight : Option UInt64) (blockHash : Option CryptoHash)
    (otherwise : String) : String :=
  match blockHeight, blockHash with
  | some height, some hash =>
    if hash = .zeros 32 then s!"#{height}" else s!"#{height} ({Base58.encode hash.val})"
  | some height, none => s!"#{height}"
  | none, _ => otherwise

/-- The first half of `parse_rpc_error`: the typed errors, by the name of the cause. `none`
where the code falls through to what follows. -/
def parseCause (error : JsonRpcError) (cause : ErrorCause) : Option AtBlock :=
  let (blockHeight, blockHash) := cause.blockContext
  let dataStr := (error.data.bind asStr).getD error.message
  let requested := (cause.memberStr "requested_account_id").bind AccountId.validate
  match cause.name with
  | "UNKNOWN_ACCOUNT" =>
    requested.map fun accountId => ⟨.accountNotFound accountId, blockHeight, blockHash⟩
  | "INVALID_ACCOUNT" =>
    let accountId := (cause.memberStr "requested_account_id").getD "unknown"
    some ⟨.invalidAccount accountId, blockHeight, blockHash⟩
  | "UNKNOWN_ACCESS_KEY" =>
    ((cause.memberStr "public_key").bind fun k => (PublicKey.fromStr k).toOption).map fun publicKey =>
      ⟨.accessKeyNotFound (requested.getD unknownAccountId) publicKey, blockHeight, blockHash⟩
  | "UNKNOWN_GAS_KEY" =>
    ((cause.memberStr "public_key").bind fun k => (PublicKey.fromStr k).toOption).map fun publicKey =>
      ⟨.gasKeyNotFound (requested.getD unknownAccountId) publicKey, blockHeight, blockHash⟩
  | "UNKNOWN_BLOCK" => some ⟨.unknownBlock dataStr, none, none⟩
  | "GARBAGE_COLLECTED_BLOCK" =>
    some ⟨.unknownBlock (collectedBlock blockHeight blockHash dataStr), none, none⟩
  | "UNKNOWN_CHUNK" =>
    some ⟨.unknownChunk ((cause.memberStr "chunk_hash").getD error.message), none, none⟩
  | "UNKNOWN_EPOCH" => some ⟨.unknownEpoch dataStr, none, none⟩
  | "UNKNOWN_RECEIPT" =>
    some ⟨.unknownReceipt ((cause.memberStr "receipt_id").getD "unknown"), none, none⟩
  | "NO_CONTRACT_CODE" =>
    (AccountId.validate ((cause.contractMember.bind asStr).getD "unknown")).map fun accountId =>
      ⟨.contractNotDeployed accountId, blockHeight, blockHash⟩
  | "NO_GLOBAL_CONTRACT_CODE" =>
    let identifier := (cause.member "identifier").bind GlobalContractIdentifierView.fromValue
    some ⟨.globalContractNotFound (identifier.getD (.accountId unknownAccountId)), blockHeight, blockHash⟩
  | "TOO_LARGE_CONTRACT_STATE" =>
    ((cause.contractMember.bind asStr).bind AccountId.validate).map fun accountId =>
      ⟨.contractStateTooLarge accountId, blockHeight, blockHash⟩
  | "CONTRACT_EXECUTION_ERROR" => some (contractError error cause blockHeight blockHash)
  | "UNAVAILABLE_SHARD" => some ⟨.shardUnavailable error.message, none, none⟩
  | "NO_SYNCED_BLOCKS" => some ⟨.nodeNotSynced error.message, none, none⟩
  | "NOT_SYNCED_YET" => some ⟨.nodeNotSynced error.message, none, none⟩
  | "INVALID_SHARD_ID" =>
    let shardId := ((cause.member "shard_id").map RpcCrates.jsonText).getD "unknown"
    some ⟨.invalidShardId shardId, none, none⟩
  | "INVALID_TRANSACTION" => some ⟨.ofRejection error.message error.data, none, none⟩
  | "TIMEOUT_ERROR" =>
    some ⟨.requestTimeout error.message (cause.memberStr "transaction_hash"), none, none⟩
  | "PARSE_ERROR" => some ⟨.parseError error.message, none, none⟩
  | "INTERNAL_ERROR" => some ⟨.internalError error.message, none, none⟩
  | "TOO_MANY_ACCESS_KEYS" => do
    let accountId ← requested
    let limit ← (cause.member "limit").bind asU64
    if limit.toNat < 2 ^ 32 then
      some ⟨.tooManyAccessKeys accountId limit.toUInt32, blockHeight, blockHash⟩
    else none
  | _ => none

/-! ## From a message to an error -/

/-- `str::split_whitespace` up to its first item. -/
def firstWord (text : List Char) : Option (List Char) :=
  match (Text.trimStart text).takeWhile fun c => !Text.isWhitespace c with
  | [] => none
  | word => some word

/-- The account of "account X does not exist while viewing". -/
def missingAccount (data : Json) : Option AccountId := do
  let text := (← data.asStr).toList
  if "does not exist".toList <:+: text then
    let start ← Text.stripPrefix "account ".toList text
    let word ← firstWord start
    AccountId.validate (String.ofList word)
  else none

def parseRpcError (error : JsonRpcError) : AtBlock :=
  match error.cause.bind (parseCause error) with
  | some typed => typed
  | none =>
    match error.data.bind missingAccount with
    | some accountId => ⟨.accountNotFound accountId, none, none⟩
    | none => ⟨.rpc error.code error.message, none, none⟩

/-! ## HTTP statuses -/

def isRetryableStatus (status : UInt16) : Bool :=
  status = 408 || status = 429 || status = 503 || (500 ≤ status && status < 600)

def httpMessage (status : UInt16) (body : String) : String := s!"HTTP {status}: {body}"

def preserveHttpRetryClassification (err : AtBlock) (status : UInt16) (body : String) : AtBlock :=
  match err.error with
  | .rpc _ _ =>
    if 400 ≤ status ∧ status < 500 then
      ⟨.network (httpMessage status body) (some status) false, none, none⟩
    else err
  | _ => err

/-- `serde_json::from_str::<JsonRpcResponse>`. -/
def parseResponse (body : String) : Except String JsonRpcResponse := do
  let json ← RpcCrates.parseJson body
  (JsonRpcResponse.fromJson json).mapError RpcCrates.jsonErrorText

/-- The error of a JSON-RPC response in a body, if it has one. -/
def errorEnvelope (body : String) : Option JsonRpcError :=
  match parseResponse body with
  | .ok response => response.error
  | .error _ => none

/-- The error of a body that holds no error envelope. -/
def fallbackError (status : UInt16) (body : String) : AtBlock :=
  ⟨.network (httpMessage status body) (some status) (isRetryableStatus status), none, none⟩

def httpError (status : UInt16) (body : String) : AtBlock :=
  match errorEnvelope body with
  | some error => preserveHttpRetryClassification (parseRpcError error) status body
  | none => fallbackError status body

/-- The error inside the result of the `query` method. -/
def queryError (method : String) (result : Json) : Option JsonRpcError := do
  if method = "query" then
    let errorStr ← (← result.get "error").asStr
    return ⟨-32600, errorStr, some (.string errorStr), none, none⟩
  else none

/-- `try_call` behind the transport. The body is text after the lossy decoding. -/
def tryCall {R : Type} (method : String) (decode : Decoder R) (status : UInt16) (body : String) :
    Except AtBlock R :=
  if 200 ≤ status ∧ status < 300 then
    match parseResponse body with
    | .error message => .error ⟨.json message, none, none⟩
    | .ok response =>
      match response.error, response.result with
      | some error, _ => .error (parseRpcError error)
      | none, none => .error ⟨.invalidResponse "Missing result in response", none, none⟩
      | none, some result =>
        match queryError method result with
        | some error => .error (parseRpcError error)
        | none => (decode result).mapError fun e => ⟨.json (RpcCrates.jsonErrorText e), none, none⟩
  else .error (httpError status body)

end RpcClient
end
end NearKit
