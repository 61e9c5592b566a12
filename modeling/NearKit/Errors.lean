import NearKit.Actions
import NearKit.JsonValues

/-!
# Errors

The errors of the RPC layer and of the operations on transactions, with the
predicate that each retry loop asks of them.
-/
namespace NearKit
open Borsh

inductive DepositCostFailureReason where
  | notEnoughBalance
  | lackBalanceForState
  deriving DecidableEq

inductive InvalidAccessKeyError where
  | accessKeyNotFound (accountId : AccountId) (publicKey : PublicKey)
  | receiverMismatch (akReceiver : String) (txReceiver : AccountId)
  | methodNameMismatch (methodName : String)
  | requiresFullAccess
  | notEnoughAllowance (accountId : AccountId) (allowance cost : NearToken) (publicKey : PublicKey)
  | depositWithFunctionCall
  | unknown (raw : String)
  deriving DecidableEq

inductive ActionsValidationError where
  | deleteActionMustBeFinal
  | totalPrepaidGasExceeded (limit totalPrepaidGas : Gas)
  | totalNumberOfActionsExceeded (limit totalNumberOfActions : UInt64)
  | addKeyMethodNamesNumberOfBytesExceeded (limit totalNumberOfBytes : UInt64)
  | addKeyMethodNameLengthExceeded (length limit : UInt64)
  | integerOverflow
  | invalidAccountId (accountId : String)
  | contractSizeExceeded (limit size : UInt64)
  | functionCallMethodNameLengthExceeded (length limit : UInt64)
  | functionCallArgumentsLengthExceeded (length limit : UInt64)
  | unsuitableStakingKey (publicKey : PublicKey)
  | functionCallZeroAttachedGas
  | delegateActionMustBeOnlyOne
  | unsupportedProtocolFeature (protocolFeature : String) (version : UInt32)
  | invalidDeterministicStateInitReceiver (derivedId receiverId : AccountId)
  | deterministicStateInitKeyLengthExceeded (length limit : UInt64)
  | deterministicStateInitValueLengthExceeded (length limit : UInt64)
  | gasKeyInvalidNumNonces (limit requestedNonces : UInt16)
  | addGasKeyWithNonZeroBalance (balance : NearToken)
  | gasKeyFunctionCallAllowanceNotAllowed
  | totalNumberOfDeployActionsExceeded (limit numberOfDeployActions : UInt64)
  | unknown (raw : String)
  deriving DecidableEq

inductive MissingTrieValueContext where
  | trieIterator
  | triePrefetchingStorage
  | trieMemoryPartialStorage
  | trieStorage
  deriving DecidableEq

structure MissingTrieValue where
  context : MissingTrieValueContext
  hash : CryptoHash
  deriving DecidableEq

inductive StorageError where
  | storageInternalError
  | missingTrieValue (value : MissingTrieValue)
  | unexpectedTrieValue
  | storageInconsistentState (message : String)
  | flatStorageBlockNotSupported (message : String)
  | memTrieLoadingError (message : String)
  | unknown (raw : String)
  deriving DecidableEq

/-- A node's reason to reject a transaction. Of a float, the number is kept that it was read
from, and of an error that is not recognized its text. -/
inductive InvalidTxError where
  | invalidAccessKeyError (error : InvalidAccessKeyError)
  | invalidSignerId (signerId : String)
  | signerDoesNotExist (signerId : AccountId)
  | invalidNonce (akNonce txNonce : Nonce)
  | nonceTooLarge (txNonce upperBound : Nonce)
  | invalidReceiverId (receiverId : String)
  | invalidSignature
  | notEnoughBalance (balance cost : NearToken) (signerId : AccountId)
  | lackBalanceForState (amount : NearToken) (signerId : AccountId)
  | costOverflow
  | invalidChain
  | expired
  | actionsValidation (error : ActionsValidationError)
  | transactionSizeExceeded (limit size : UInt64)
  | invalidTransactionVersion
  | storageError (error : StorageError)
  | shardCongested (congestionLevel : JsonNumber) (shardId : UInt64)
  | shardStuck (missedChunks shardId : UInt64)
  | invalidNonceIndex (numNonces : UInt16) (txNonceIndex : Option UInt16)
  | notEnoughGasKeyBalance (balance cost : NearToken) (signerId : AccountId)
  | notEnoughBalanceForDeposit (balance cost : NearToken) (reason : DepositCostFailureReason)
      (signerId : AccountId)
  | unknown (raw : String)
  deriving DecidableEq

def InvalidTxError.isRetryable : InvalidTxError → Bool
  | invalidNonce .. => true
  | shardCongested .. => true
  | shardStuck .. => true
  | _ => false

/-- The errors of the RPC layer, without the block and the JSON attached to them. -/
inductive RpcError where
  /-- `reqwest::Error`, as the two predicates the code asks of it. -/
  | http (isTimeout isConnect : Bool)
  | network (message : String) (statusCode : Option UInt16) (retryable : Bool)
  | timeout (retries : UInt32)
  | json (message : String)
  | invalidResponse (message : String)
  | rpc (code : Int64) (message : String)
  | accountNotFound (accountId : AccountId)
  | invalidAccount (accountId : String)
  | accessKeyNotFound (accountId : AccountId) (publicKey : PublicKey)
  | gasKeyNotFound (accountId : AccountId) (publicKey : PublicKey)
  | contractNotDeployed (accountId : AccountId)
  | contractStateTooLarge (accountId : AccountId)
  | globalContractNotFound (identifier : GlobalContractIdentifierView)
  | contractExecution (contractId : AccountId) (methodName : Option String) (message : String)
  | methodNotFound (contractId : AccountId) (methodName : String)
  | contractPanic (message : String)
  | unknownBlock (block : String)
  | unknownChunk (chunk : String)
  | unknownEpoch (block : String)
  | invalidShardId (shardId : String)
  | unknownReceipt (receipt : String)
  | invalidTx (error : InvalidTxError)
  | invalidTransaction (message : String)
  | shardUnavailable (message : String)
  | nodeNotSynced (message : String)
  | internalError (message : String)
  | parseError (message : String)
  | requestTimeout (message : String) (transactionHash : Option String)
  | tooManyAccessKeys (accountId : AccountId) (limit : UInt32)
  deriving DecidableEq

/-- `RpcError::is_retryable`: re-sending the same request may succeed. -/
def RpcError.isRetryable : RpcError → Bool
  | http isTimeout isConnect => isTimeout || isConnect
  | timeout _ => true
  | network _ _ retryable => retryable
  | shardUnavailable _ => true
  | nodeNotSynced _ => true
  | internalError _ => true
  | requestTimeout .. => true
  | invalidTx (.invalidNonce ..) => false
  | invalidTx e => e.isRetryable
  | rpc code _ => code == -32000 || code == -32603
  | _ => false

inductive SignerError where
  | invalidSeedPhrase
  | signingFailed (message : String)
  | keyDerivationFailed (message : String)
  deriving DecidableEq

inductive Error where
  | noSigner
  | rpc (error : RpcError)
  | invalidTx (error : InvalidTxError)
  | invalidTransaction (message : String)
  | signing (error : SignerError)
  deriving DecidableEq

/-- `From<RpcError>`: a structured rejection is promoted. -/
def Error.fromRpc : RpcError → Error
  | .invalidTx e => .invalidTx e
  | e => .rpc e

/-- The rejections after which a send may be signed anew. -/
def InvalidTxError.isTransient : InvalidTxError → Bool
  | invalidNonce .. => true
  | expired => true
  | _ => false

/-- A rejection that a new signature may overcome is never re-sent as it is. -/
theorem InvalidTxError.not_isRetryable_of_isTransient {e : InvalidTxError}
    (h : e.isTransient = true) : (RpcError.invalidTx e).isRetryable = false := by
  cases e <;> first | rfl | cases h

end NearKit
