import NearKit.Base64Text
import NearKit.FunctionCallErrors
import NearKit.JsonDecoding
import NearKit.Numerals
import NearKit.TransactionOperations

/-!
# Transaction errors as JSON

How a node's reason to reject a transaction is decoded. A reason that is not recognized is
kept as JSON text, so there is no reason that fails to decode.
-/
namespace NearKit
open Borsh Json

/-- The answers of other crates about JSON: of `serde_json`, `serde_with`, `near-token` and
`near-gas`, and of the derived decoders of types that nothing here looks into. -/
class RpcCrates extends Crates where
  /-- The JSON of a text, or the error that it is none. -/
  parseJson : String → Except String Json
  /-- `Display` of a value. -/
  jsonText : Json → String
  /-- `Display` of `serde_json::Error`. -/
  jsonErrorText : SerdeError → String
  base64 : Decoder Bytes
  nearToken : Decoder NearToken
  gas : Decoder UInt64
  /-- A `FunctionCallError`, of which `Unknown` takes everything else. -/
  functionCallError : Json → FunctionCallError
  /-- `Display` of a `FunctionCallError`. -/
  functionCallErrorText : FunctionCallError → String
  /-- `Display` of a `Gas`. -/
  gasText : Gas → String
  /-- An `f64` with two decimals. -/
  twoDecimals : JsonNumber → String
  /-- `NearToken::exact_amount_display`. -/
  exactAmountDisplay : NearToken → String
  actionView : Json → Bool
  receipt : Json → Bool
  merklePathItem : Json → Bool
  executionMetadata : Json → Bool

/-- Answers that hold for the samples: one text is JSON, amounts are numerals. -/
@[reducible] def RpcCrates.reading (text : String) (json : Json) : RpcCrates where
  toCrates := .accepting
  parseJson s := if s = text then .ok json else .error "expected value"
  jsonText _ := ""
  jsonErrorText _ := ""
  base64
    | .string s =>
      match Base64.decode s with
      | some bytes => .ok bytes
      | none => .error .invalidType
    | _ => .error .invalidType
  nearToken
    | .string s =>
      match Numeral.fromStr (2 ^ 128) s.toList with
      | some n => .ok (BitVec.ofNat 128 n)
      | none => .error .invalidType
    | _ => .error .invalidType
  gas := u64
  functionCallError _ := .unknown ⟨[]⟩
  functionCallErrorText _ := ""
  gasText _ := ""
  twoDecimals _ := ""
  exactAmountDisplay _ := ""
  actionView _ := true
  receipt _ := true
  merklePathItem _ := true
  executionMetadata _ := true

section
variable [RpcCrates]

/-! ## Leaves -/

def accountIdFromJson : Decoder AccountId := fun json => do
  let name ← json.asString
  match AccountId.validate name with
  | some accountId => .ok accountId
  | none => .error .invalidAccountId

def cryptoHashFromStr (s : String) : Option CryptoHash := do
  let bytes ← Base58.decode s
  if h : bytes.length = 32 then some ⟨bytes, h⟩ else none

def cryptoHashFromJson : Decoder CryptoHash := fun json => do
  let s ← json.asString
  match cryptoHashFromStr s with
  | some hash => .ok hash
  | none => .error .invalidBase58

def publicKeyFromJson : Decoder PublicKey := fun json => do
  let s ← json.asString
  (PublicKey.fromStr s).mapError .parseKey

def signatureFromJson : Decoder Signature := fun json => do
  let s ← json.asString
  (Signature.fromStr s).mapError .parseKey

/-! ## Rejections -/

namespace InvalidAccessKeyError

def allowance : Decoder InvalidAccessKeyError := fun json => do
  let fields ← structFields ["account_id", "allowance", "cost", "public_key"] 4 json
  let accountId ← required fields "account_id" accountIdFromJson
  let allowance ← required fields "allowance" RpcCrates.nearToken
  let cost ← required fields "cost" RpcCrates.nearToken
  let publicKey ← required fields "public_key" publicKeyFromJson
  return notEnoughAllowance accountId allowance cost publicKey

def known : Decoder InvalidAccessKeyError := fun json => do
  let (name, payload) ← variant json
  match name with
  | "AccessKeyNotFound" =>
    newtype (twoFields "account_id" "public_key" accountIdFromJson publicKeyFromJson
      accessKeyNotFound) payload
  | "ReceiverMismatch" =>
    newtype (twoFields "ak_receiver" "tx_receiver" asString accountIdFromJson receiverMismatch) payload
  | "MethodNameMismatch" => newtype (oneField "method_name" asString methodNameMismatch) payload
  | "RequiresFullAccess" => unit requiresFullAccess payload
  | "NotEnoughAllowance" => newtype allowance payload
  | "DepositWithFunctionCall" => unit depositWithFunctionCall payload
  | _ => .error .invalidType

def fromJson (json : Json) : InvalidAccessKeyError :=
  match known json with
  | .ok error => error
  | .error _ => unknown (RpcCrates.jsonText json)

def display : InvalidAccessKeyError → String
  | accessKeyNotFound accountId publicKey =>
    s!"public key {publicKey.display} doesn't exist for account {accountId.name}"
  | receiverMismatch akReceiver txReceiver =>
    s!"transaction receiver {txReceiver.name} doesn't match access key receiver {akReceiver}"
  | methodNameMismatch methodName => s!"method {methodName} isn't allowed by the access key"
  | requiresFullAccess => "transaction requires a full access key"
  | notEnoughAllowance accountId allowance cost publicKey =>
    s!"access key {publicKey.display} for account {accountId.name} does not have enough " ++
      s!"allowance ({RpcCrates.exactAmountDisplay allowance}) to cover transaction cost " ++
      s!"({RpcCrates.exactAmountDisplay cost})"
  | depositWithFunctionCall => "deposits are not allowed with function call access keys"
  | unknown raw => s!"unknown access key error: {raw}"

end InvalidAccessKeyError

namespace ActionsValidationError

def known : Decoder ActionsValidationError := fun json => do
  let (name, payload) ← variant json
  match name with
  | "DeleteActionMustBeFinal" => unit deleteActionMustBeFinal payload
  | "TotalPrepaidGasExceeded" =>
    newtype (twoFields "limit" "total_prepaid_gas" RpcCrates.gas RpcCrates.gas
      totalPrepaidGasExceeded) payload
  | "TotalNumberOfActionsExceeded" =>
    newtype (twoFields "limit" "total_number_of_actions" u64 u64 totalNumberOfActionsExceeded) payload
  | "AddKeyMethodNamesNumberOfBytesExceeded" =>
    newtype (twoFields "limit" "total_number_of_bytes" u64 u64
      addKeyMethodNamesNumberOfBytesExceeded) payload
  | "AddKeyMethodNameLengthExceeded" =>
    newtype (twoFields "length" "limit" u64 u64 addKeyMethodNameLengthExceeded) payload
  | "IntegerOverflow" => unit integerOverflow payload
  | "InvalidAccountId" => newtype (oneField "account_id" asString invalidAccountId) payload
  | "ContractSizeExceeded" =>
    newtype (twoFields "limit" "size" u64 u64 contractSizeExceeded) payload
  | "FunctionCallMethodNameLengthExceeded" =>
    newtype (twoFields "length" "limit" u64 u64 functionCallMethodNameLengthExceeded) payload
  | "FunctionCallArgumentsLengthExceeded" =>
    newtype (twoFields "length" "limit" u64 u64 functionCallArgumentsLengthExceeded) payload
  | "UnsuitableStakingKey" =>
    newtype (oneField "public_key" publicKeyFromJson unsuitableStakingKey) payload
  | "FunctionCallZeroAttachedGas" => unit functionCallZeroAttachedGas payload
  | "DelegateActionMustBeOnlyOne" => unit delegateActionMustBeOnlyOne payload
  | "UnsupportedProtocolFeature" =>
    newtype (twoFields "protocol_feature" "version" asString u32 unsupportedProtocolFeature) payload
  | "InvalidDeterministicStateInitReceiver" =>
    newtype (twoFields "derived_id" "receiver_id" accountIdFromJson accountIdFromJson
      invalidDeterministicStateInitReceiver) payload
  | "DeterministicStateInitKeyLengthExceeded" =>
    newtype (twoFields "length" "limit" u64 u64 deterministicStateInitKeyLengthExceeded) payload
  | "DeterministicStateInitValueLengthExceeded" =>
    newtype (twoFields "length" "limit" u64 u64 deterministicStateInitValueLengthExceeded) payload
  | "GasKeyInvalidNumNonces" =>
    newtype (twoFields "limit" "requested_nonces" u16 u16 gasKeyInvalidNumNonces) payload
  | "AddGasKeyWithNonZeroBalance" =>
    newtype (oneField "balance" RpcCrates.nearToken addGasKeyWithNonZeroBalance) payload
  | "GasKeyFunctionCallAllowanceNotAllowed" => unit gasKeyFunctionCallAllowanceNotAllowed payload
  | "TotalNumberOfDeployActionsExceeded" =>
    newtype (twoFields "limit" "number_of_deploy_actions" u64 u64
      totalNumberOfDeployActionsExceeded) payload
  | _ => .error .invalidType

def fromJson (json : Json) : ActionsValidationError :=
  match known json with
  | .ok error => error
  | .error _ => unknown (RpcCrates.jsonText json)

def display : ActionsValidationError → String
  | deleteActionMustBeFinal => "delete action must be the final action in a transaction"
  | totalPrepaidGasExceeded limit totalPrepaidGas =>
    s!"total prepaid gas ({RpcCrates.gasText totalPrepaidGas}) exceeded the limit " ++
      s!"({RpcCrates.gasText limit})"
  | totalNumberOfActionsExceeded limit totalNumberOfActions =>
    s!"number of actions ({totalNumberOfActions}) exceeded the limit ({limit})"
  | addKeyMethodNamesNumberOfBytesExceeded limit totalNumberOfBytes =>
    s!"total size of method names ({totalNumberOfBytes} bytes) exceeded the limit ({limit}) " ++
      "in add key action"
  | addKeyMethodNameLengthExceeded length limit =>
    s!"method name length ({length}) exceeded the limit ({limit}) in add key action"
  | integerOverflow => "integer overflow"
  | invalidAccountId accountId => s!"invalid account ID {accountId}"
  | contractSizeExceeded limit size =>
    s!"contract size ({size}) exceeded the limit ({limit}) in deploy action"
  | functionCallMethodNameLengthExceeded length limit =>
    s!"method name length ({length}) exceeded the limit ({limit}) in function call action"
  | functionCallArgumentsLengthExceeded length limit =>
    s!"arguments length ({length}) exceeded the limit ({limit}) in function call action"
  | unsuitableStakingKey publicKey =>
    s!"public key {publicKey.display} is not suitable for staking"
  | functionCallZeroAttachedGas => "function call must have a positive amount of gas attached"
  | delegateActionMustBeOnlyOne => "transaction must contain only one delegate action"
  | unsupportedProtocolFeature protocolFeature version =>
    s!"protocol feature {protocolFeature} is unsupported in version {version}"
  | invalidDeterministicStateInitReceiver derivedId receiverId =>
    s!"invalid receiver {receiverId.name} for deterministic account {derivedId.name}"
  | deterministicStateInitKeyLengthExceeded length limit =>
    s!"deterministic state init key length ({length}) exceeded the limit ({limit})"
  | deterministicStateInitValueLengthExceeded length limit =>
    s!"deterministic state init value length ({length}) exceeded the limit ({limit})"
  | gasKeyInvalidNumNonces limit requestedNonces =>
    s!"gas key requested invalid number of nonces: {requestedNonces} (must be between 1 and {limit})"
  | addGasKeyWithNonZeroBalance balance =>
    s!"adding a gas key with non-zero balance ({RpcCrates.exactAmountDisplay balance}) " ++
      "is not allowed"
  | gasKeyFunctionCallAllowanceNotAllowed =>
    "gas keys with function call permission cannot have an allowance"
  | totalNumberOfDeployActionsExceeded limit numberOfDeployActions =>
    s!"number of deploy actions ({numberOfDeployActions}) exceeded the limit ({limit})"
  | unknown raw => s!"unknown actions validation error: {raw}"

end ActionsValidationError

namespace MissingTrieValueContext

def fromJson : Decoder MissingTrieValueContext := fun json => do
  let (name, payload) ← variant json
  match name with
  | "TrieIterator" => unit trieIterator payload
  | "TriePrefetchingStorage" => unit triePrefetchingStorage payload
  | "TrieMemoryPartialStorage" => unit trieMemoryPartialStorage payload
  | "TrieStorage" => unit trieStorage payload
  | _ => .error .invalidType

def display : MissingTrieValueContext → String
  | trieIterator => "trie iterator"
  | triePrefetchingStorage => "prefetching storage"
  | trieMemoryPartialStorage => "memory partial storage"
  | trieStorage => "trie storage"

end MissingTrieValueContext

def MissingTrieValue.fromJson : Decoder MissingTrieValue :=
  twoFields "context" "hash" MissingTrieValueContext.fromJson cryptoHashFromJson .mk

namespace StorageError

def known : Decoder StorageError := fun json => do
  let (name, payload) ← variant json
  match name with
  | "StorageInternalError" => unit storageInternalError payload
  | "MissingTrieValue" => missingTrieValue <$> newtype MissingTrieValue.fromJson payload
  | "UnexpectedTrieValue" => unit unexpectedTrieValue payload
  | "StorageInconsistentState" => storageInconsistentState <$> newtype asString payload
  | "FlatStorageBlockNotSupported" => flatStorageBlockNotSupported <$> newtype asString payload
  | "MemTrieLoadingError" => memTrieLoadingError <$> newtype asString payload
  | _ => .error .invalidType

def fromJson (json : Json) : StorageError :=
  match known json with
  | .ok error => error
  | .error _ => unknown (RpcCrates.jsonText json)

def display : StorageError → String
  | storageInternalError => "internal storage error"
  | missingTrieValue value =>
    s!"missing trie value {value.hash.display} in {value.context.display}"
  | unexpectedTrieValue => "unexpected trie value"
  | storageInconsistentState message => s!"storage is in an inconsistent state: {message}"
  | flatStorageBlockNotSupported message => s!"block is not supported by flat storage: {message}"
  | memTrieLoadingError message => s!"trie is not loaded in memory: {message}"
  | unknown raw => s!"unknown storage error: {raw}"

end StorageError

namespace DepositCostFailureReason

def fromJson : Decoder DepositCostFailureReason := fun json => do
  let (name, payload) ← variant json
  match name with
  | "NotEnoughBalance" => unit notEnoughBalance payload
  | "LackBalanceForState" => unit lackBalanceForState payload
  | _ => .error .invalidType

def display : DepositCostFailureReason → String
  | notEnoughBalance => "not enough balance"
  | lackBalanceForState => "not enough balance for state"

end DepositCostFailureReason

namespace InvalidTxError

/-- The struct variants with a balance, a cost and a signer. -/
def shortfall (error : NearToken → NearToken → AccountId → InvalidTxError) :
    Decoder InvalidTxError := fun json => do
  let fields ← structFields ["balance", "cost", "signer_id"] 3 json
  let balance ← required fields "balance" RpcCrates.nearToken
  let cost ← required fields "cost" RpcCrates.nearToken
  let signerId ← required fields "signer_id" accountIdFromJson
  return error balance cost signerId

def deposit : Decoder InvalidTxError := fun json => do
  let fields ← structFields ["balance", "cost", "reason", "signer_id"] 4 json
  let balance ← required fields "balance" RpcCrates.nearToken
  let cost ← required fields "cost" RpcCrates.nearToken
  let reason ← required fields "reason" DepositCostFailureReason.fromJson
  let signerId ← required fields "signer_id" accountIdFromJson
  return notEnoughBalanceForDeposit balance cost reason signerId

def nonceIndex : Decoder InvalidTxError := fun json => do
  let fields ← structFields ["num_nonces", "tx_nonce_index"] 1 json
  let numNonces ← required fields "num_nonces" u16
  let txNonceIndex ← optional fields "tx_nonce_index" u16
  return invalidNonceIndex numNonces txNonceIndex

/-- The variants with a name of their own. Three of the nested enums decode whatever they hold. -/
def known : Decoder InvalidTxError := fun json => do
  let (name, payload) ← variant json
  match name with
  | "InvalidAccessKeyError" =>
    newtype (fun error => .ok (invalidAccessKeyError (InvalidAccessKeyError.fromJson error))) payload
  | "InvalidSignerId" => newtype (oneField "signer_id" asString invalidSignerId) payload
  | "SignerDoesNotExist" => newtype (oneField "signer_id" accountIdFromJson signerDoesNotExist) payload
  | "InvalidNonce" => newtype (twoFields "ak_nonce" "tx_nonce" u64 u64 invalidNonce) payload
  | "NonceTooLarge" => newtype (twoFields "tx_nonce" "upper_bound" u64 u64 nonceTooLarge) payload
  | "InvalidReceiverId" => newtype (oneField "receiver_id" asString invalidReceiverId) payload
  | "InvalidSignature" => unit invalidSignature payload
  | "NotEnoughBalance" => newtype (shortfall notEnoughBalance) payload
  | "LackBalanceForState" =>
    newtype (twoFields "amount" "signer_id" RpcCrates.nearToken accountIdFromJson lackBalanceForState) payload
  | "CostOverflow" => unit costOverflow payload
  | "InvalidChain" => unit invalidChain payload
  | "Expired" => unit expired payload
  | "ActionsValidation" =>
    newtype (fun error => .ok (actionsValidation (ActionsValidationError.fromJson error))) payload
  | "TransactionSizeExceeded" =>
    newtype (twoFields "limit" "size" u64 u64 transactionSizeExceeded) payload
  | "InvalidTransactionVersion" => unit invalidTransactionVersion payload
  | "StorageError" =>
    newtype (fun error => .ok (storageError (StorageError.fromJson error))) payload
  | "ShardCongested" =>
    newtype (twoFields "congestion_level" "shard_id" f64 u64 shardCongested) payload
  | "ShardStuck" => newtype (twoFields "missed_chunks" "shard_id" u64 u64 shardStuck) payload
  | "InvalidNonceIndex" => newtype nonceIndex payload
  | "NotEnoughGasKeyBalance" => newtype (shortfall notEnoughGasKeyBalance) payload
  | "NotEnoughBalanceForDeposit" => newtype deposit payload
  | _ => .error .invalidType

def fromJson (json : Json) : InvalidTxError :=
  match known json with
  | .ok error => error
  | .error _ => unknown (RpcCrates.jsonText json)

def display : InvalidTxError → String
  | invalidAccessKeyError error => error.display
  | invalidSignerId signerId => s!"signer ID {signerId} is not a valid account ID"
  | signerDoesNotExist signerId => s!"signer account {signerId.name} does not exist"
  | invalidNonce akNonce txNonce =>
    s!"transaction nonce {txNonce} must be larger than access key nonce {akNonce}"
  | nonceTooLarge txNonce upperBound =>
    s!"transaction nonce {txNonce} is larger than the upper bound {upperBound}"
  | invalidReceiverId receiverId => s!"receiver ID {receiverId} is not a valid account ID"
  | invalidSignature => "transaction signature is not valid"
  | notEnoughBalance balance cost signerId =>
    s!"account {signerId.name} does not have enough balance ({RpcCrates.exactAmountDisplay balance}) " ++
      s!"to cover transaction cost ({RpcCrates.exactAmountDisplay cost})"
  | lackBalanceForState amount signerId =>
    s!"account {signerId.name} doesn't have enough balance ({RpcCrates.exactAmountDisplay amount}) " ++
      "after transaction"
  | costOverflow => "integer overflow during transaction cost estimation"
  | invalidChain => "transaction parent block hash doesn't belong to the current chain"
  | expired => "transaction has expired"
  | actionsValidation error => error.display
  | transactionSizeExceeded limit size =>
    s!"serialized transaction size ({size}) exceeded the limit ({limit})"
  | invalidTransactionVersion => "invalid transaction version"
  | storageError error => s!"storage error: {error.display}"
  | shardCongested congestionLevel shardId =>
    s!"shard {shardId} is too congested ({RpcCrates.twoDecimals congestionLevel}/1.00) " ++
      "to accept new transactions"
  | shardStuck missedChunks shardId =>
    s!"shard {shardId} is {missedChunks} blocks behind and can't accept transactions"
  | invalidNonceIndex numNonces (some txNonceIndex) =>
    s!"invalid nonce index {txNonceIndex} for key with {numNonces} nonces"
  | invalidNonceIndex numNonces none => s!"missing nonce index for key with {numNonces} nonces"
  | notEnoughGasKeyBalance balance cost signerId =>
    s!"gas key for {signerId.name} does not have enough balance " ++
      s!"({RpcCrates.exactAmountDisplay balance}) for gas cost ({RpcCrates.exactAmountDisplay cost})"
  | notEnoughBalanceForDeposit balance cost reason signerId =>
    s!"signer {signerId.name} does not have enough balance ({RpcCrates.exactAmountDisplay balance}) " ++
      s!"to cover deposit cost ({RpcCrates.exactAmountDisplay cost}): {reason.display}"
  | unknown raw => s!"unknown transaction error: {raw}"

end InvalidTxError

/-! ## Failures of a transaction -/

/-- `ActionError`. Its kind decodes whatever it holds. -/
def actionErrorFromJson : Decoder TxExecutionError := fun json => do
  let fields ← structFields ["index", "kind"] 2 json
  let _ ← optional fields "index" u64
  let _ ← required fields "kind" .ok
  return .actionError

def TxExecutionError.fromJson : Decoder TxExecutionError := fun json => do
  let (name, payload) ← variant json
  match name with
  | "ActionError" => newtype actionErrorFromJson payload
  | "InvalidTxError" => newtype (fun error => .ok (.invalidTxError (InvalidTxError.fromJson error))) payload
  | _ => .error .invalidType

def FinalExecutionStatus.fromJson : Decoder FinalExecutionStatus := fun json => do
  let (name, payload) ← variant json
  match name with
  | "NotStarted" => bufferedUnit notStarted payload
  | "Started" => bufferedUnit started payload
  | "Failure" => failure <$> newtype TxExecutionError.fromJson payload
  | "SuccessValue" => successValue <$> newtype asString payload
  | _ => .error .invalidType

end
end NearKit
