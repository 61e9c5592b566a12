import NearKit.TransactionOperations

/-!
# The methods of the builders

A transaction builder collects actions, a call builder holds one more function call
that is not yet among them. Arguments that a method converts (amounts, account names)
are given converted; where the conversion fails, the source panics before it touches
the builder.
-/
namespace NearKit
open Borsh

/-- What the crate of global contracts computes. -/
class GlobalContracts where
  /-- `StateInit::derive_account_id`. -/
  deriveAccountId : StateInit → AccountId

inductive PublishMode where
  | updatable | immutable
  deriving DecidableEq, Repr

/-- The deploy mode that `Action::publish` takes for a publish mode. -/
def PublishMode.deployMode : PublishMode → GlobalContractDeployMode
  | updatable => .accountId
  | immutable => .codeHash

/-! ## Function calls -/

structure FunctionCall where
  method : String
  args : Bytes
  gas : Gas
  deposit : NearToken
  deriving DecidableEq

namespace FunctionCall

/-- `Gas::from_tgas(30)`. -/
def defaultGas : Gas := 30000000000000

def new (method : String) : FunctionCall := ⟨method, [], defaultGas, 0⟩

/-- The argument is what `serde_json::to_vec` returned. -/
def withArgs (call : FunctionCall) (serialized : Option Bytes) : FunctionCall :=
  { call with args := serialized.getD [] }

def withArgsRaw (call : FunctionCall) (args : Bytes) : FunctionCall := { call with args := args }

/-- The argument is what `borsh::to_vec` returned. -/
def withArgsBorsh (call : FunctionCall) (serialized : Option Bytes) : FunctionCall :=
  { call with args := serialized.getD [] }

def withGas (call : FunctionCall) (gas : Gas) : FunctionCall := { call with gas := gas }

def withDeposit (call : FunctionCall) (amount : NearToken) : FunctionCall :=
  { call with deposit := amount }

def toAction (call : FunctionCall) : Action :=
  .functionCall ⟨call.method, call.args, call.gas, call.deposit⟩

end FunctionCall

/-! ## The transaction builder -/

structure CallBuilder where
  builder : TransactionBuilder
  call : FunctionCall
  deriving DecidableEq

namespace TransactionBuilder

def new (url : Network) (signer : Option Signer) (receiverId : AccountId)
    (maxNonceRetries : UInt32) : TransactionBuilder :=
  ⟨url, signer, none, receiverId, [], maxNonceRetries⟩

variable (b : TransactionBuilder)

def addAction (action : Action) : TransactionBuilder := { b with actions := b.actions ++ [action] }

def createAccount : TransactionBuilder := b.addAction (.createAccount {})

def transfer (amount : NearToken) : TransactionBuilder := b.addAction (.transfer ⟨amount⟩)

def deploy (code : Bytes) : TransactionBuilder := b.addAction (.deployContract ⟨code⟩)

def call (method : String) : CallBuilder := ⟨b, .new method⟩

def addFullAccessKey (publicKey : PublicKey) : TransactionBuilder :=
  b.addAction (.addKey ⟨publicKey, 0, .fullAccess⟩)

def addFunctionCallKey (publicKey : PublicKey) (receiverId : AccountId) (methodNames : List String)
    (allowance : Option NearToken) : TransactionBuilder :=
  b.addAction (.addKey ⟨publicKey, 0, .functionCall ⟨allowance, receiverId, methodNames⟩⟩)

def deleteKey (publicKey : PublicKey) : TransactionBuilder := b.addAction (.deleteKey ⟨publicKey⟩)

def deleteAccount (beneficiaryId : AccountId) : TransactionBuilder :=
  b.addAction (.deleteAccount ⟨beneficiaryId⟩)

def stake (amount : NearToken) (publicKey : PublicKey) : TransactionBuilder :=
  b.addAction (.stake ⟨amount, publicKey⟩)

def signedDelegateAction (signedDelegate : SignedDelegateAction) : TransactionBuilder :=
  { b with
    receiverId := signedDelegate.delegateAction.senderId
    actions := b.actions ++ [.delegate signedDelegate] }

def publish (code : Bytes) (mode : PublishMode) : TransactionBuilder :=
  b.addAction (.deployGlobalContract ⟨code, mode.deployMode⟩)

def deployFrom (identifier : GlobalContractId) : TransactionBuilder :=
  b.addAction (.useGlobalContract ⟨identifier⟩)

def stateInit [GlobalContracts] (init : StateInit) (deposit : NearToken) : TransactionBuilder :=
  { b with
    receiverId := GlobalContracts.deriveAccountId init
    actions := b.actions ++ [.deterministicStateInit ⟨init, deposit⟩] }

def signWith (signer : Signer) : TransactionBuilder := { b with signerOverride := some signer }

def withMaxNonceRetries (retries : UInt32) : TransactionBuilder :=
  { b with maxNonceRetries := retries }

def send : TransactionSend := ⟨b, .executedOptimistic⟩

def buildOffline (signerId : AccountId) (publicKey : PublicKey) (blockHash : CryptoHash)
    (nonce : Nonce) : Except Error Transaction :=
  if b.actions.isEmpty then .error atLeastOneAction
  else .ok (b.transaction signerId publicKey nonce blockHash)

def signOffline [Crates] (blockHash : CryptoHash) (nonce : Nonce) : Operation SignedTransaction :=
  if b.actions.isEmpty then .done (.err atLeastOneAction)
  else match b.effectiveSigner with
  | none => .done (.err .noSigner)
  | some signer =>
    let signerId := signer.accountId
    .ask (.key signer) fun key =>
    let tx := b.transaction signerId key.publicKey nonce blockHash
    match tx.getHash with
    | .error _ => .done .panic
    | .ok txHash =>
      .ask (.sign key txHash) fun
      | .error e => .done (.err (.signing e))
      | .ok signature => .done (.ok ⟨tx, signature⟩)

end TransactionBuilder

namespace TransactionSend

def waitUntil (t : TransactionSend) (level : WaitLevel) : TransactionSend :=
  { t with waitLevel := level }

def withMaxNonceRetries (t : TransactionSend) (retries : UInt32) : TransactionSend :=
  { t with builder := t.builder.withMaxNonceRetries retries }

end TransactionSend

def TransactionBuilder.waitUntil (b : TransactionBuilder) (level : WaitLevel) : TransactionSend :=
  b.send.waitUntil level

/-! ## The call builder -/

namespace CallBuilder
variable (c : CallBuilder)

def args (serialized : Option Bytes) : CallBuilder := { c with call := c.call.withArgs serialized }

def argsRaw (args : Bytes) : CallBuilder := { c with call := c.call.withArgsRaw args }

def argsBorsh (serialized : Option Bytes) : CallBuilder :=
  { c with call := c.call.withArgsBorsh serialized }

def gas (gas : Gas) : CallBuilder := { c with call := c.call.withGas gas }

def deposit (amount : NearToken) : CallBuilder := { c with call := c.call.withDeposit amount }

/-- `CallBuilder::into_action`. It panics where it would drop actions. -/
def intoAction : Option Action :=
  if c.builder.actions.isEmpty then some c.call.toAction else none

def finish : TransactionBuilder := c.builder.addAction c.call.toAction

def addAction (action : Action) : TransactionBuilder := c.finish.addAction action

def thenCall (method : String) : CallBuilder := c.finish.call method

def createAccount : TransactionBuilder := c.finish.createAccount

def transfer (amount : NearToken) : TransactionBuilder := c.finish.transfer amount

def deploy (code : Bytes) : TransactionBuilder := c.finish.deploy code

def addFullAccessKey (publicKey : PublicKey) : TransactionBuilder :=
  c.finish.addFullAccessKey publicKey

def addFunctionCallKey (publicKey : PublicKey) (receiverId : AccountId) (methodNames : List String)
    (allowance : Option NearToken) : TransactionBuilder :=
  c.finish.addFunctionCallKey publicKey receiverId methodNames allowance

def deleteKey (publicKey : PublicKey) : TransactionBuilder := c.finish.deleteKey publicKey

def deleteAccount (beneficiaryId : AccountId) : TransactionBuilder :=
  c.finish.deleteAccount beneficiaryId

def stake (amount : NearToken) (publicKey : PublicKey) : TransactionBuilder :=
  c.finish.stake amount publicKey

def publish (code : Bytes) (mode : PublishMode) : TransactionBuilder := c.finish.publish code mode

def deployFrom (identifier : GlobalContractId) : TransactionBuilder := c.finish.deployFrom identifier

def stateInit [GlobalContracts] (init : StateInit) (deposit : NearToken) : TransactionBuilder :=
  c.finish.stateInit init deposit

def signWith (signer : Signer) : TransactionBuilder := c.finish.signWith signer

def withMaxNonceRetries (retries : UInt32) : TransactionBuilder :=
  c.finish.withMaxNonceRetries retries

def waitUntil (level : WaitLevel) : TransactionSend := c.finish.waitUntil level

def send : TransactionSend := c.finish.send

variable [Crates]

def delegate (options : DelegateOptions) : Operation DelegateResult := c.finish.delegate options

def sign : Operation SignedTransaction := c.finish.sign

def signOffline (blockHash : CryptoHash) (nonce : Nonce) : Operation SignedTransaction :=
  c.finish.signOffline blockHash nonce

end CallBuilder

/-! ## Chains of methods -/

/-- Which of the two builders a method is called on. -/
inductive Stage where
  | transaction | call
  deriving DecidableEq, Repr

@[reducible] def BuilderAt : Stage → Type
  | .transaction => TransactionBuilder
  | .call => CallBuilder

/-- The methods that both builders have and that add one action. -/
inductive ActionMethod where
  | createAccount
  | transfer (amount : NearToken)
  | deploy (code : Bytes)
  | addFullAccessKey (publicKey : PublicKey)
  | addFunctionCallKey (publicKey : PublicKey) (receiverId : AccountId) (methodNames : List String)
      (allowance : Option NearToken)
  | deleteKey (publicKey : PublicKey)
  | deleteAccount (beneficiaryId : AccountId)
  | stake (amount : NearToken) (publicKey : PublicKey)
  | publish (code : Bytes) (mode : PublishMode)
  | deployFrom (identifier : GlobalContractId)
  | stateInit (init : StateInit) (deposit : NearToken)
  | addAction (action : Action)

/-- The methods that set a parameter of the function call. -/
inductive Setting where
  | args (serialized : Option Bytes)
  | argsRaw (bytes : Bytes)
  | argsBorsh (serialized : Option Bytes)
  | gas (value : Gas)
  | deposit (amount : NearToken)

def Setting.apply : Setting → CallBuilder → CallBuilder
  | args serialized, c => c.args serialized
  | argsRaw bytes, c => c.argsRaw bytes
  | argsBorsh serialized, c => c.argsBorsh serialized
  | gas value, c => c.gas value
  | deposit amount, c => c.deposit amount

/-- A method of the builder at the first stage, which returns the builder at the second. -/
inductive MethodCall : Stage → Stage → Type where
  | action {s : Stage} (method : ActionMethod) : MethodCall s .transaction
  | signedDelegateAction (signedDelegate : SignedDelegateAction) : MethodCall .transaction .transaction
  | call {s : Stage} (method : String) : MethodCall s .call
  | setting (value : Setting) : MethodCall .call .call
  | finish : MethodCall .call .transaction
  | signWith {s : Stage} (signer : Signer) : MethodCall s .transaction
  | maxNonceRetries {s : Stage} (retries : UInt32) : MethodCall s .transaction

inductive Chain : Stage → Type where
  | start : Chain .transaction
  | step {s t : Stage} (chain : Chain s) (method : MethodCall s t) : Chain t

/-- The transaction builder with the pending call added, if there is one. -/
def BuilderAt.finish : {s : Stage} → BuilderAt s → TransactionBuilder
  | .transaction, b => b
  | .call, c => CallBuilder.finish c

variable [GlobalContracts]

namespace ActionMethod

def onTransaction (b : TransactionBuilder) : ActionMethod → TransactionBuilder
  | createAccount => b.createAccount
  | transfer amount => b.transfer amount
  | deploy code => b.deploy code
  | addFullAccessKey publicKey => b.addFullAccessKey publicKey
  | addFunctionCallKey publicKey receiverId methodNames allowance =>
    b.addFunctionCallKey publicKey receiverId methodNames allowance
  | deleteKey publicKey => b.deleteKey publicKey
  | deleteAccount beneficiaryId => b.deleteAccount beneficiaryId
  | stake amount publicKey => b.stake amount publicKey
  | publish code mode => b.publish code mode
  | deployFrom identifier => b.deployFrom identifier
  | stateInit init deposit => b.stateInit init deposit
  | addAction action => b.addAction action

def onCall (c : CallBuilder) : ActionMethod → TransactionBuilder
  | createAccount => c.createAccount
  | transfer amount => c.transfer amount
  | deploy code => c.deploy code
  | addFullAccessKey publicKey => c.addFullAccessKey publicKey
  | addFunctionCallKey publicKey receiverId methodNames allowance =>
    c.addFunctionCallKey publicKey receiverId methodNames allowance
  | deleteKey publicKey => c.deleteKey publicKey
  | deleteAccount beneficiaryId => c.deleteAccount beneficiaryId
  | stake amount publicKey => c.stake amount publicKey
  | publish code mode => c.publish code mode
  | deployFrom identifier => c.deployFrom identifier
  | stateInit init deposit => c.stateInit init deposit
  | addAction action => c.addAction action

/-- No method forgets the pending call. -/
theorem onCall_eq (c : CallBuilder) (m : ActionMethod) : m.onCall c = m.onTransaction c.finish := by
  cases m <;> rfl

end ActionMethod

def MethodCall.apply : {s t : Stage} → MethodCall s t → BuilderAt s → BuilderAt t
  | .transaction, _, .action method, b => method.onTransaction b
  | .call, _, .action method, c => method.onCall c
  | _, _, .signedDelegateAction signedDelegate, b =>
    TransactionBuilder.signedDelegateAction b signedDelegate
  | .transaction, _, .call method, b => TransactionBuilder.call b method
  | .call, _, .call method, c => CallBuilder.thenCall c method
  | _, _, .setting value, c => value.apply c
  | _, _, .finish, c => CallBuilder.finish c
  | .transaction, _, .signWith signer, b => TransactionBuilder.signWith b signer
  | .call, _, .signWith signer, c => CallBuilder.signWith c signer
  | .transaction, _, .maxNonceRetries retries, b => TransactionBuilder.withMaxNonceRetries b retries
  | .call, _, .maxNonceRetries retries, c => CallBuilder.withMaxNonceRetries c retries

def Chain.run (new : TransactionBuilder) : {s : Stage} → Chain s → BuilderAt s
  | _, .start => new
  | _, .step chain method => method.apply (chain.run new)

namespace BuilderAt
variable [Crates]

def build {s : Stage} (b : BuilderAt s) : Operation Transaction := b.finish.build

def sign : {s : Stage} → BuilderAt s → Operation SignedTransaction
  | .transaction, b => TransactionBuilder.sign b
  | .call, c => CallBuilder.sign c

def signOffline (blockHash : CryptoHash) (nonce : Nonce) :
    {s : Stage} → BuilderAt s → Operation SignedTransaction
  | .transaction, b => TransactionBuilder.signOffline b blockHash nonce
  | .call, c => CallBuilder.signOffline c blockHash nonce

def send : {s : Stage} → BuilderAt s → TransactionSend
  | .transaction, b => TransactionBuilder.send b
  | .call, c => CallBuilder.send c

def delegate (options : DelegateOptions) : {s : Stage} → BuilderAt s → Operation DelegateResult
  | .transaction, b => TransactionBuilder.delegate b options
  | .call, c => CallBuilder.delegate c options

end BuilderAt

/-! ## Samples -/

/-- The contract with code hash zero and no data. -/
def StateInit.sample : StateInit := .v1 ⟨.codeHash (.zeros 32), ⟨[], by decide⟩⟩

/-- The account that NEP-616 derives from the sample. -/
def StateInit.sampleAccount : AccountId :=
  ⟨"0s2da1ff2f6fd6170ac3094be0405cdcc5552e1a78", by decide, by decide⟩

@[reducible] def GlobalContracts.sample : GlobalContracts := ⟨fun _ => StateInit.sampleAccount⟩

end NearKit
