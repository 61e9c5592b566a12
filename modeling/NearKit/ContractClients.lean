import NearKit.ContractInterfaces
import NearKit.JsonValues
import NearKit.RpcMethods
import NearKit.TransactionBuilders

/-!
# Clients of contracts

What the functions do that are generated from an interface. A contract that reads method names
and arguments by the same interface gets the method that was called, and its argument; and what
a client is told by a view is what the contract returns.
-/
namespace NearKit
open Borsh Macros

/-! ## Types -/

/-- The types of an interface, with what `serde_json` and `borsh` make of their values. -/
class Serde (τ : Type) extends TypeSyntax τ where
  Value : τ → Type
  jsonToVec : {t : τ} → Value t → Option Bytes
  borshToVec : {t : τ} → Value t → Option Bytes
  jsonFromSlice : (t : τ) → Bytes → Except SerdeError (Value t)
  borshFromSlice : (t : τ) → Bytes → Except String (Value t)

abbrev Typed (τ : Type) [Serde τ] := Σ t : τ, Serde.Value t

def nullText : Bytes := [110, 117, 108, 108]

/-- What is written is read back. No JSON is empty, and `()` is `null`. -/
structure SerdeLaws (τ : Type) [Serde τ] : Prop where
  json : ∀ {t : τ} {v : Serde.Value t} {bytes}, Serde.jsonToVec v = some bytes →
    bytes ≠ [] ∧ Serde.jsonFromSlice t bytes = .ok v
  borsh : ∀ {t : τ} {v : Serde.Value t} {bytes}, Serde.borshToVec v = some bytes →
    Serde.borshFromSlice t bytes = .ok v
  void : ∀ v : Serde.Value (TypeSyntax.unit : τ),
    Serde.jsonFromSlice TypeSyntax.unit nullText = .ok v

/-! ## Views -/

variable {τ : Type}

/-- `ViewCall<output>`. Of its RPC client, it needs the retries. -/
structure ViewCall (τ : Type) where
  rpc : RetryConfig
  contractId : AccountId
  method : String
  args : Bytes
  blockRef : BlockReference
  output : τ

structure ViewCallBorsh (τ : Type) where
  rpc : RetryConfig
  contractId : AccountId
  method : String
  args : Bytes
  blockRef : BlockReference
  output : τ

namespace ViewCall

def new (rpc : RetryConfig) (contractId : AccountId) (method : String) (output : τ) : ViewCall τ :=
  ⟨rpc, contractId, method, [], .finality .final, output⟩

variable (c : ViewCall τ)

def withArgs (serialized : Option Bytes) : ViewCall τ := { c with args := serialized.getD [] }

def argsRaw (args : Bytes) : ViewCall τ := { c with args := args }

def argsBorsh (serialized : Option Bytes) : ViewCall τ := { c with args := serialized.getD [] }

def atBlock (height : UInt64) : ViewCall τ := { c with blockRef := .height height }

def atBlockHash (hash : CryptoHash) : ViewCall τ := { c with blockRef := .hash hash }

def finality (finality : Finality) : ViewCall τ := { c with blockRef := .finality finality }

def borsh : ViewCallBorsh τ := ⟨c.rpc, c.contractId, c.method, c.args, c.blockRef, c.output⟩

end ViewCall

inductive ViewError where
  | client (error : Error)
  | json (error : SerdeError)
  | borsh (text : String)

/-- A view in flight. A node answers with the bytes of the result. -/
abbrev ViewFuture (τ : Type) [Serde τ] :=
  Process (CallRequest CallParams) (CallAnswer CallParams Bytes) (Option (Except ViewError (Typed τ)))

section
variable [Serde τ]

/-- `ViewFunctionResult::json`: no bytes stand for `null`. -/
def viewResultJson (output : τ) (result : Bytes) : Except SerdeError (Serde.Value output) :=
  Serde.jsonFromSlice output (if result.isEmpty then nullText else result)

variable [Crates]

def finishView (decode : Bytes → Except ViewError (Typed τ)) :
    Except RpcError Bytes → Except ViewError (Typed τ)
  | .error e => .error (.client (.fromRpc e))
  | .ok result => decode result

def viewFuture (rpc : RetryConfig) (call : TypedCall)
    (decode : Bytes → Except ViewError (Typed τ)) : ViewFuture τ :=
  (call.perform rpc).map (Option.map (finishView decode))

def ViewCall.intoFuture (c : ViewCall τ) : ViewFuture τ :=
  viewFuture c.rpc (.viewFunction c.contractId c.method c.args c.blockRef) fun result =>
    ((viewResultJson c.output result).mapError .json).map (Sigma.mk c.output)

def ViewCallBorsh.intoFuture (c : ViewCallBorsh τ) : ViewFuture τ :=
  viewFuture c.rpc (.viewFunction c.contractId c.method c.args c.blockRef) fun result =>
    ((Serde.borshFromSlice c.output result).mapError .borsh).map (Sigma.mk c.output)

end

/-! ## Clients -/

/-- A client, with the network and the retries of its RPC client. -/
structure Near where
  network : Network
  retry : RetryConfig
  signer : Option Signer
  maxNonceRetries : UInt32

namespace Near
variable (near : Near)

def withSigner (signer : Signer) : Near := { near with signer := some signer }

def view (contractId : AccountId) (method : String) (output : τ) : ViewCall τ :=
  .new near.retry contractId method output

def transaction (receiverId : AccountId) : TransactionBuilder :=
  .new near.network near.signer receiverId near.maxNonceRetries

def call (contractId : AccountId) (method : String) : CallBuilder :=
  (near.transaction contractId).call method

end Near

structure ContractClient where
  near : Near
  contractId : AccountId

def ContractClient.withSigner (client : ContractClient) (signer : Signer) : ContractClient :=
  ⟨client.near.withSigner signer, client.contractId⟩

/-! ## Generated functions -/

/-- What a generated function returns. -/
inductive Built (τ : Type) where
  | viewCall (c : ViewCall τ)
  | viewCallBorsh (c : ViewCallBorsh τ)
  | callBuilder (c : CallBuilder)
  | functionCall (call : FunctionCall)

namespace Built

def type : Built τ → ReturnTy τ
  | viewCall c => .viewCall c.output
  | viewCallBorsh c => .viewCallBorsh c.output
  | callBuilder _ => .callBuilder
  | functionCall _ => .functionCall

def args (serialized : Option Bytes) : Built τ → Option (Built τ)
  | viewCall c => some (viewCall (c.withArgs serialized))
  | viewCallBorsh _ => none
  | callBuilder c => some (callBuilder (c.args serialized))
  | functionCall call => some (functionCall (call.withArgs serialized))

def argsBorsh (serialized : Option Bytes) : Built τ → Option (Built τ)
  | viewCall c => some (viewCall (c.argsBorsh serialized))
  | viewCallBorsh _ => none
  | callBuilder c => some (callBuilder (c.argsBorsh serialized))
  | functionCall call => some (functionCall (call.withArgsBorsh serialized))

def argsRaw (bytes : Bytes) : Built τ → Option (Built τ)
  | viewCall c => some (viewCall (c.argsRaw bytes))
  | viewCallBorsh _ => none
  | callBuilder c => some (callBuilder (c.argsRaw bytes))
  | functionCall call => some (functionCall (call.withArgsRaw bytes))

def borsh : Built τ → Option (Built τ)
  | viewCall c => some (viewCallBorsh c.borsh)
  | _ => none

end Built

section
variable [Serde τ]

/-- What the body of a function evaluates to. Without a type, it has no value. -/
def Macros.Expr.eval (client : Option ContractClient) (param : Option (String × Typed τ)) :
    Expr τ → Option (Built τ)
  | .view output method => client.map fun c => .viewCall (c.near.view c.contractId method output)
  | .call method => client.map fun c => .callBuilder (c.near.call c.contractId method)
  | .functionCall method => some (.functionCall (.new method))
  | .args e arg => do
    let (name, value) ← param
    if name = arg then (← e.eval client param).args (Serde.jsonToVec value.2) else none
  | .argsBorsh e arg => do
    let (name, value) ← param
    if name = arg then (← e.eval client param).argsBorsh (Serde.borshToVec value.2) else none
  | .argsRaw e bytes => do (← e.eval client param).argsRaw bytes
  | .borsh e => do (← e.eval client param).borsh

variable [DecidableEq τ]

/-- A call of a generated function, with the arguments it is called with. -/
def Macros.GeneratedFn.invoke (f : GeneratedFn τ) (client : Option ContractClient)
    (actual : Option (Typed τ)) : Option (Built τ) :=
  if f.selfRef = client.isSome ∧ f.param.map Prod.snd = actual.map Sigma.fst then
    f.body.eval client (Option.map₂ (fun param value => (param.1, value)) f.param actual)
  else none

/-! ### Well-typed functions have values -/

omit [Serde τ] [DecidableEq τ] in
private theorem Built.args_of_takesArgs {b : Built τ} {t : ReturnTy τ}
    (h : b.type.takesArgs = some t) (serialized : Option Bytes) :
    (∃ b', b.args serialized = some b' ∧ b'.type = t) ∧
      ∃ b', b.argsBorsh serialized = some b' ∧ b'.type = t := by
  cases b with
  | viewCallBorsh c => cases h
  | _ => cases h; exact ⟨⟨_, rfl, rfl⟩, ⟨_, rfl, rfl⟩⟩

omit [Serde τ] [DecidableEq τ] in
private theorem Built.argsRaw_of_takesArgs {b : Built τ} {t : ReturnTy τ}
    (h : b.type.takesArgs = some t) (bytes : Bytes) :
    ∃ b', b.argsRaw bytes = some b' ∧ b'.type = t := by
  cases b with
  | viewCallBorsh c => cases h
  | _ => cases h; exact ⟨_, rfl, rfl⟩

omit [DecidableEq τ] in
private theorem Macros.Expr.eval_of_typeOf {e : Expr τ} {client : Option ContractClient}
    {param : Option (String × τ)} {value : Option (String × Typed τ)} {t : ReturnTy τ}
    (hparam : param.map Prod.fst = value.map Prod.fst)
    (h : e.typeOf client.isSome param = some t) :
    ∃ b, e.eval client value = some b ∧ b.type = t := by
  induction e generalizing t with
  | view output method =>
    cases client with
    | none => cases h
    | some client => cases h; exact ⟨_, rfl, rfl⟩
  | call method =>
    cases client with
    | none => cases h
    | some client => cases h; exact ⟨_, rfl, rfl⟩
  | functionCall method =>
    cases h
    exact ⟨_, rfl, rfl⟩
  | args e arg ih =>
    simp only [typeOf] at h
    split at h
    · next hname =>
      obtain ⟨t', ht', ht⟩ := Option.bind_eq_some_iff.mp h
      obtain ⟨b, hb, rfl⟩ := ih ht'
      obtain ⟨⟨name, v⟩, rfl, rfl⟩ := Option.map_eq_some_iff.mp (hparam.symm.trans hname)
      simpa [eval, hb] using (Built.args_of_takesArgs ht _).1
    · cases h
  | argsBorsh e arg ih =>
    simp only [typeOf] at h
    split at h
    · next hname =>
      obtain ⟨t', ht', ht⟩ := Option.bind_eq_some_iff.mp h
      obtain ⟨b, hb, rfl⟩ := ih ht'
      obtain ⟨⟨name, v⟩, rfl, rfl⟩ := Option.map_eq_some_iff.mp (hparam.symm.trans hname)
      simpa [eval, hb] using (Built.args_of_takesArgs ht _).2
    · cases h
  | argsRaw e bytes ih =>
    obtain ⟨t', ht', ht⟩ := Option.bind_eq_some_iff.mp h
    obtain ⟨b, hb, rfl⟩ := ih ht'
    simpa [eval, hb] using Built.argsRaw_of_takesArgs ht bytes
  | borsh e ih =>
    simp only [typeOf] at h
    split at h
    · next output houtput =>
      obtain ⟨b, hb, hview⟩ := ih houtput
      cases h
      cases b with
      | viewCall c =>
        cases hview
        exact ⟨.viewCallBorsh c.borsh, by simp [eval, hb, Built.borsh], rfl⟩
      | _ => cases hview
    · cases h

private theorem Macros.GeneratedFn.WellTyped.invoke {f : GeneratedFn τ} (h : f.WellTyped)
    (client : Option ContractClient) (hself : f.selfRef = client.isSome) {actual : Option (Typed τ)}
    (hactual : f.param.map Prod.snd = actual.map Sigma.fst) :
    ∃ b, f.invoke client actual = some b ∧ b.type = f.returns := by
  rw [GeneratedFn.invoke, if_pos ⟨hself, hactual⟩]
  rw [GeneratedFn.WellTyped, hself] at h
  refine Expr.eval_of_typeOf ?_ h
  cases hparam : f.param with
  | none => rfl
  | some param =>
    cases actual with
    | none => simp [hparam] at hactual
    | some value => rfl

/-- Every function of an accepted interface returns a value of the type that it declares, on every
argument that fits its parameter. -/
theorem generated_functions_return {attr : List Token} {input : ItemTrait τ} {expansion : Expansion τ}
    (h : contract attr input = .ok expansion) (actual : Option (Typed τ)) :
    (∀ f ∈ expansion.clientMethods, f.param.map Prod.snd = actual.map Sigma.fst →
      ∀ client, ∃ b, f.invoke (some client) actual = some b ∧ b.type = f.returns) ∧
    ∀ f ∈ expansion.functionCallMethods, f.param.map Prod.snd = actual.map Sigma.fst →
      ∃ b, f.invoke none actual = some b ∧ b.type = f.returns := by
  obtain ⟨-, format, -, rfl⟩ := eq_expansion h
  constructor
  · intro f hf hactual client
    obtain ⟨htyped, hself⟩ := wellTyped_of_mem_clientMethods hf
    exact htyped.invoke (some client) hself hactual
  · intro f hf hactual
    obtain ⟨htyped, hself⟩ := wellTyped_of_mem_functionCallMethods hf
    exact htyped.invoke none hself hactual

end

/-! ## The contract's side -/

section
variable [Serde τ]

namespace Macros.SerializationFormat

/-- The arguments of a method as they are sent. -/
def write : SerializationFormat → Option (Typed τ) → Option Bytes
  | json, none => some emptyObject
  | json, some value => Serde.jsonToVec value.2
  | borsh, none => some []
  | borsh, some value => Serde.borshToVec value.2

def read : SerializationFormat → Option τ → Bytes → Option (Option (Typed τ))
  | _, none, _ => some none
  | json, some t, bytes => (Serde.jsonFromSlice t bytes).toOption.map fun v => some ⟨t, v⟩
  | borsh, some t, bytes => (Serde.borshFromSlice t bytes).toOption.map fun v => some ⟨t, v⟩

private theorem read_write (laws : SerdeLaws τ) {format : SerializationFormat}
    {actual : Option (Typed τ)} {bytes : Bytes} (h : format.write actual = some bytes) :
    format.read (actual.map Sigma.fst) bytes = some actual := by
  cases actual with
  | none => cases format <;> rfl
  | some value =>
    cases format with
    | json =>
      simp only [read, Option.map_some, (laws.json h).2]
      rfl
    | borsh =>
      simp only [read, Option.map_some, laws.borsh h]
      rfl

end Macros.SerializationFormat

namespace Macros.TraitItemFn

def format (method : TraitItemFn τ) (contractFormat : SerializationFormat) : SerializationFormat :=
  method.formatOverride.getD contractFormat

/-- The argument is written as an identifier, if there is one. -/
def ArgumentNamed (method : TraitItemFn τ) : Prop := method.argName.isSome = method.argType.isSome

abbrev outputType (method : TraitItemFn τ) : τ := method.output.getD TypeSyntax.unit

/-- A call of the method as the interface declares it, which can be written. -/
structure Calls (method : TraitItemFn τ) (contractFormat : SerializationFormat)
    (actual : Option (Typed τ)) (bytes : Bytes) : Prop where
  named : method.ArgumentNamed
  typed : actual.map Sigma.fst = method.argType
  written : (method.format contractFormat).write actual = some bytes

end Macros.TraitItemFn

/-- Which method of the interface is called, and with which argument. -/
def Macros.ItemTrait.receive (input : ItemTrait τ) (contractFormat : SerializationFormat)
    (name : String) (bytes : Bytes) : Option (TraitItemFn τ × Option (Typed τ)) := do
  let method ← input.methods.find? (·.ident = name)
  let actual ← (method.format contractFormat).read method.argType bytes
  return (method, actual)

omit [Serde τ] in
private theorem find_method {methods : List (TraitItemFn τ)}
    (h : (methods.map TraitItemFn.ident).Nodup) {method : TraitItemFn τ}
    (hmethod : method ∈ methods) :
    methods.find? (·.ident = method.ident) = some method := by
  induction methods with
  | nil => cases hmethod
  | cons method' methods ih =>
    rw [List.map_cons, List.nodup_cons] at h
    rcases List.mem_cons.mp hmethod with rfl | hmem
    · simp
    · have hne : method'.ident ≠ method.ident := fun heq =>
        h.1 (heq ▸ List.mem_map_of_mem hmem)
      rw [List.find?_cons_of_neg (by simpa using hne)]
      exact ih h.2 hmem

/-- The contract reads the call that was written. -/
theorem receive_written (laws : SerdeLaws τ) {input : ItemTrait τ}
    (hnames : (input.methods.map TraitItemFn.ident).Nodup) {method : TraitItemFn τ}
    (hmethod : method ∈ input.methods) {contractFormat : SerializationFormat}
    {actual : Option (Typed τ)} {bytes : Bytes} (h : method.Calls contractFormat actual bytes) :
    input.receive contractFormat method.ident bytes = some (method, actual) := by
  have hread := SerializationFormat.read_write laws h.written
  rw [h.typed] at hread
  simp [ItemTrait.receive, find_method hnames hmethod, hread]

/-! ### What the functions of a method do -/

section
variable {method : TraitItemFn τ} {contractFormat : SerializationFormat} {actual : Option (Typed τ)}
  {bytes : Bytes}

theorem Macros.TraitItemFn.Calls.cases (h : method.Calls contractFormat actual bytes) :
    (actual = none ∧ method.argName = none ∧ method.argType = none) ∨
      ∃ name value, actual = some value ∧ method.argName = some name ∧
        method.argType = some value.1 := by
  obtain ⟨hnamed, htyped, -⟩ := h
  rw [ArgumentNamed, ← htyped] at hnamed
  rw [← htyped]
  cases actual with
  | none => exact .inl ⟨rfl, Option.not_isSome_iff_eq_none.mp (by simp [hnamed]), rfl⟩
  | some value =>
    obtain ⟨name, hname⟩ := Option.isSome_iff_exists.mp hnamed
    exact .inr ⟨name, value, rfl, hname, rfl⟩

def passed (method : TraitItemFn τ) (actual : Option (Typed τ)) : Option (String × Typed τ) :=
  Option.map₂ (fun param value => (param.1, value)) method.info.param actual

omit [Serde τ] in
private theorem Built.args_some (b : Built τ) : b.args (some bytes) = b.argsRaw bytes := by
  cases b <;> rfl

omit [Serde τ] in
private theorem Built.argsBorsh_some (b : Built τ) :
    b.argsBorsh (some bytes) = b.argsRaw bytes := by
  cases b <;> rfl

/-- The arguments that are set are those of the call. -/
theorem Macros.TraitItemFn.Calls.eval_generateArgs (h : method.Calls contractFormat actual bytes)
    {client : Option ContractClient} {start : Expr τ} {b : Built τ}
    (hstart : start.eval client (passed method actual) = some b) (hempty : b.argsRaw [] = some b) :
    (generateArgs method.info contractFormat start).eval client (passed method actual) =
      b.argsRaw bytes := by
  have hwritten := h.written
  rw [TraitItemFn.format] at hwritten
  rcases h.cases with ⟨rfl, hname, htype⟩ | ⟨name, value, rfl, hname, htype⟩
  · unfold generateArgs
    simp only [TraitItemFn.info, hname]
    cases hformat : method.formatOverride.getD contractFormat with
    | json =>
      rw [hformat] at hwritten
      cases hwritten
      simp [Expr.eval, hstart]
    | borsh =>
      rw [hformat] at hwritten
      cases hwritten
      rw [hempty]
      exact hstart
  · have hpassed : passed method (some value) = some (name, value) := by
      simp [passed, MethodInfo.param, TraitItemFn.info, hname, htype]
    rw [hpassed] at hstart ⊢
    unfold generateArgs
    simp only [TraitItemFn.info, hname, htype]
    cases hformat : method.formatOverride.getD contractFormat with
    | json =>
      rw [hformat] at hwritten
      have hvec : Serde.jsonToVec value.2 = some bytes := hwritten
      simp [Expr.eval, hstart, hvec, Built.args_some]
    | borsh =>
      rw [hformat] at hwritten
      have hvec : Serde.borshToVec value.2 = some bytes := hwritten
      simp [Expr.eval, hstart, hvec, Built.argsBorsh_some]

/-- The arguments of a call fit the parameters of its functions. -/
theorem Macros.TraitItemFn.Calls.takes (h : method.Calls contractFormat actual bytes) :
    method.info.param.map Prod.snd = actual.map Sigma.fst := by
  rcases h.cases with ⟨rfl, hname, htype⟩ | ⟨name, value, rfl, hname, htype⟩ <;>
    simp [MethodInfo.param, TraitItemFn.info, hname, htype]

variable [DecidableEq τ]

theorem Macros.TraitItemFn.Calls.invoke (h : method.Calls contractFormat actual bytes)
    {f : GeneratedFn τ} {client : Option ContractClient} (hself : f.selfRef = client.isSome)
    (hparam : f.param = method.info.param) :
    f.invoke client actual = f.body.eval client (passed method actual) := by
  rw [GeneratedFn.invoke, hparam, if_pos ⟨hself, h.takes⟩]
  rfl

/-- The call of a method, with the gas and the deposit it has if they are not set. -/
def Macros.TraitItemFn.call (method : TraitItemFn τ) (bytes : Bytes) : FunctionCall :=
  ⟨method.ident, bytes, FunctionCall.defaultGas, 0⟩

theorem invoke_functionCall (h : method.Calls contractFormat actual bytes) :
    (generateFunctionCallMethod method.info contractFormat).invoke none actual =
      some (.functionCall (method.call bytes)) := by
  rw [h.invoke rfl rfl]
  exact h.eval_generateArgs (b := .functionCall (.new method.ident)) rfl rfl

theorem invoke_call (h : method.Calls contractFormat actual bytes) (client : ContractClient) :
    (generateCallMethod method.info contractFormat).invoke (some client) actual =
      some (.callBuilder ⟨client.near.transaction client.contractId, method.call bytes⟩) := by
  rw [h.invoke rfl rfl]
  exact h.eval_generateArgs (b := .callBuilder (client.near.call client.contractId method.ident)) rfl rfl

/-- The view of a method, and how its result is read. -/
def Macros.TraitItemFn.view (method : TraitItemFn τ) (contractFormat : SerializationFormat)
    (client : ContractClient) (bytes : Bytes) : Built τ :=
  let c : ViewCall τ := ⟨client.near.retry, client.contractId, method.ident, bytes,
    .finality .final, method.outputType⟩
  match method.format contractFormat with
  | .json => .viewCall c
  | .borsh => .viewCallBorsh c.borsh

theorem invoke_view (h : method.Calls contractFormat actual bytes) (client : ContractClient) :
    (generateViewMethod method.info contractFormat).invoke (some client) actual =
      some (method.view contractFormat client bytes) := by
  obtain ⟨-, hself, hparam⟩ := generateViewMethod_signature method.info contractFormat
  rw [h.invoke hself hparam, generateViewMethod_body, TraitItemFn.view, TraitItemFn.format]
  have hargs : (generateArgs method.info contractFormat (.view method.outputType method.ident)).eval
      (some client) (passed method actual) = some (.viewCall ⟨client.near.retry, client.contractId,
        method.ident, bytes, .finality .final, method.outputType⟩) :=
    h.eval_generateArgs
      (b := .viewCall (client.near.view client.contractId method.ident method.outputType)) rfl rfl
  cases hformat : method.formatOverride.getD contractFormat with
  | json =>
    have hinfo : method.info.formatOverride.getD contractFormat = .json := hformat
    simp only [hinfo]
    exact hargs
  | borsh =>
    have hinfo : method.info.formatOverride.getD contractFormat = .borsh := hformat
    simp only [hinfo, Expr.eval]
    exact congrArg (Option.bind · Built.borsh) hargs

end

/-! ## A contract that implements an interface -/

/-- What the methods of a contract do. -/
structure Implementation (τ σ : Type) [Serde τ] where
  view : (method : TraitItemFn τ) → Option (Typed τ) → σ → Serde.Value method.outputType
  call : TraitItemFn τ → Option (Typed τ) → σ → σ

namespace Implementation
variable {σ : Type} (impl : Implementation τ σ) (input : ItemTrait τ)
  (contractFormat : SerializationFormat)

/-- The contract returns no bytes from a method that declares no result. -/
def reply (method : TraitItemFn τ) (value : Serde.Value method.outputType) : Option Bytes :=
  match method.format contractFormat, method.output with
  | .json, none => some []
  | .json, some _ => Serde.jsonToVec value
  | .borsh, _ => Serde.borshToVec value

/-- The result of a view, by the name of the method and the bytes of its argument. -/
def answer (s : σ) (name : String) (bytes : Bytes) : Option Bytes := do
  let (method, actual) ← input.receive contractFormat name bytes
  reply contractFormat method (impl.view method actual s)

/-- The effect of an action on the contract. -/
def apply (s : σ) : Action → Option σ
  | .functionCall action => do
    let (method, actual) ← input.receive contractFormat action.methodName action.args
    return impl.call method actual s
  | _ => none

end Implementation

/-- A call that is written in a program, with the gas and the deposit it sets. -/
structure MethodUse (τ : Type) [Serde τ] where
  method : TraitItemFn τ
  actual : Option (Typed τ)
  gas : Gas
  deposit : NearToken

variable [DecidableEq τ]

/-- A constructor of the interface makes the call. -/
def Macros.Expansion.Constructs (expansion : Expansion τ) (method : TraitItemFn τ)
    (actual : Option (Typed τ)) (call : FunctionCall) : Prop :=
  ∃ g ∈ expansion.functionCallMethods, g.name = method.ident ∧
    g.invoke none actual = some (.functionCall call)

/-- The action of a call is made by a constructor, and then given its gas and its deposit. -/
def MethodUse.IsAction (use : MethodUse τ) (expansion : Expansion τ) (action : Action) : Prop :=
  ∃ call, expansion.Constructs use.method use.actual call ∧
    action = ((call.withGas use.gas).withDeposit use.deposit).toAction

section
variable {attr : List Token} {input : ItemTrait τ} {expansion : Expansion τ}
  {contractFormat : SerializationFormat}

omit [Serde τ] [DecidableEq τ] in
theorem Macros.FormatDeclared.unique {format format' : SerializationFormat}
    (h : FormatDeclared attr format) (h' : FormatDeclared attr format') : format = format' := by
  cases format <;> cases format' <;> simp_all [FormatDeclared]

omit [Serde τ] [DecidableEq τ] in
theorem Macros.eq_of_ident {method method' : TraitItemFn τ}
    (hnames : (input.methods.map TraitItemFn.ident).Nodup) (h : method ∈ input.methods)
    (h' : method' ∈ input.methods) (heq : method.ident = method'.ident) : method = method' :=
  List.inj_on_of_nodup_map hnames h h' heq

omit [DecidableEq τ] in
/-- The functions of a client are found by their names. -/
theorem Macros.clientMethod_eq (h : contract attr input = .ok expansion)
    (hformat : FormatDeclared attr contractFormat)
    (hnames : (input.methods.map TraitItemFn.ident).Nodup) {method : TraitItemFn τ}
    (hmethod : method ∈ input.methods) {f : GeneratedFn τ} (hf : f ∈ expansion.clientMethods)
    (hname : f.name = method.ident) : f = generateClientMethod method.info contractFormat := by
  obtain ⟨-, format', hformat', rfl⟩ := eq_expansion h
  cases hformat.unique hformat'
  obtain ⟨info, hinfo, rfl⟩ := List.mem_map.mp hf
  obtain ⟨method', hmethod', rfl⟩ := List.mem_map.mp hinfo
  have hident : method'.ident = method.ident :=
    (generateClientMethod_signature method'.info contractFormat).1.symm.trans hname
  rw [eq_of_ident hnames hmethod' hmethod hident]

/-- The call that a constructor makes. -/
theorem Macros.Expansion.Constructs.call_eq (h : contract attr input = .ok expansion)
    (hformat : FormatDeclared attr contractFormat)
    (hnames : (input.methods.map TraitItemFn.ident).Nodup) {method : TraitItemFn τ}
    (hmethod : method ∈ input.methods) {actual : Option (Typed τ)} {bytes : Bytes}
    (hcalls : method.Calls contractFormat actual bytes) {call : FunctionCall}
    (hcall : expansion.Constructs method actual call) : call = method.call bytes := by
  obtain ⟨hinterface, format', hformat', rfl⟩ := eq_expansion h
  cases hformat.unique hformat'
  obtain ⟨g, hg, hname, hinvoke⟩ := hcall
  rw [hinterface.functionCallMethods_eq] at hg
  obtain ⟨method', hmethod', rfl⟩ := List.mem_map.mp hg
  cases eq_of_ident hnames (List.mem_of_mem_filter hmethod') hmethod hname
  rw [invoke_functionCall hcalls] at hinvoke
  cases hinvoke
  rfl

theorem Macros.constructs_call (h : contract attr input = .ok expansion)
    (hformat : FormatDeclared attr contractFormat) {method : TraitItemFn τ}
    (hmethod : method ∈ input.methods) (hmut : method.isMut = true) {actual : Option (Typed τ)}
    {bytes : Bytes} (hcalls : method.Calls contractFormat actual bytes) :
    expansion.Constructs method actual (method.call bytes) := by
  obtain ⟨hinterface, format', hformat', rfl⟩ := eq_expansion h
  cases hformat.unique hformat'
  refine ⟨generateFunctionCallMethod method.info contractFormat, ?_, rfl, invoke_functionCall hcalls⟩
  rw [hinterface.functionCallMethods_eq]
  exact List.mem_map_of_mem (List.mem_filter.mpr ⟨hmethod, hmut⟩)

/-- A use of a call method that the interface has, with an argument that can be written. -/
structure MethodUse.Admitted (use : MethodUse τ) (input : ItemTrait τ)
    (contractFormat : SerializationFormat) : Prop where
  declared : use.method ∈ input.methods
  mutates : use.method.isMut = true
  written : ∃ bytes, use.method.Calls contractFormat use.actual bytes

private theorem foldl_addAction (b : TransactionBuilder) (actions : List Action) :
    (actions.foldl TransactionBuilder.addAction b).actions = b.actions ++ actions := by
  induction actions generalizing b with
  | nil => simp
  | cons action actions ih =>
    rw [List.foldl_cons, ih]
    simp [TransactionBuilder.addAction]

theorem apply_action (laws : SerdeLaws τ) (h : contract attr input = .ok expansion)
    (hformat : FormatDeclared attr contractFormat)
    (hnames : (input.methods.map TraitItemFn.ident).Nodup) {σ : Type} (impl : Implementation τ σ)
    {use : MethodUse τ} (huse : use.Admitted input contractFormat) {action : Action}
    (haction : use.IsAction expansion action) (s : σ) :
    impl.apply input contractFormat s action = some (impl.call use.method use.actual s) := by
  obtain ⟨bytes, hcalls⟩ := huse.written
  obtain ⟨call, hcall, rfl⟩ := haction
  cases hcall.call_eq h hformat hnames huse.declared hcalls
  have hreceive := receive_written laws hnames huse.declared hcalls
  simp only [Implementation.apply, FunctionCall.toAction, FunctionCall.withGas,
    FunctionCall.withDeposit, TraitItemFn.call, hreceive]
  rfl

/-- A transaction that is composed of the constructors of an interface has the effect of its
methods, one after the other. What a client calls is what the constructor makes, in a
transaction to the contract. -/
theorem transactions_run_methods (laws : SerdeLaws τ) (h : contract attr input = .ok expansion)
    (hformat : FormatDeclared attr contractFormat)
    (hnames : (input.methods.map TraitItemFn.ident).Nodup) {σ : Type} (impl : Implementation τ σ)
    (client : ContractClient) :
    (∀ uses actions, (∀ use ∈ uses, MethodUse.Admitted use input contractFormat) →
      List.Forall₂ (fun use action => MethodUse.IsAction use expansion action) uses actions →
      ∀ s, (actions.foldl TransactionBuilder.addAction
          (client.near.transaction client.contractId)).actions.foldlM
            (impl.apply input contractFormat) s =
        some (uses.foldl (fun s use => impl.call use.method use.actual s) s)) ∧
    ∀ use, MethodUse.Admitted use input contractFormat → ∀ f ∈ expansion.clientMethods,
      f.name = use.method.ident → ∃ call, expansion.Constructs use.method use.actual call ∧
        f.invoke (some client) use.actual =
          some (.callBuilder ⟨client.near.transaction client.contractId, call⟩) := by
  constructor
  · intro uses actions huses hactions s
    rw [foldl_addAction, show (client.near.transaction client.contractId).actions = [] from rfl,
      List.nil_append]
    induction hactions generalizing s with
    | nil => rfl
    | cons haction _ ih =>
      rw [List.forall_mem_cons] at huses
      rw [List.foldlM_cons, apply_action laws h hformat hnames impl huses.1 haction]
      exact ih huses.2 _
  · intro use huse f hf hname
    obtain ⟨bytes, hcalls⟩ := huse.written
    refine ⟨_, constructs_call h hformat huse.declared huse.mutates hcalls, ?_⟩
    have hview : use.method.isView = false := by
      have hboth := use.method.not_isView_and_isMut
      simpa [huse.mutates] using hboth
    rw [clientMethod_eq h hformat hnames huse.declared hf hname, generateClientMethod,
      if_neg (by simp [TraitItemFn.info, hview])]
    exact invoke_call hcalls client

/-! ## Views over a run -/

omit [DecidableEq τ] in
/-- What the contract returns is what the client reads. -/
theorem viewResultJson_reply (laws : SerdeLaws τ) {method : TraitItemFn τ}
    (hjson : method.format contractFormat = .json) {value : Serde.Value method.outputType}
    {bytes : Bytes} (h : Implementation.reply contractFormat method value = some bytes) :
    viewResultJson method.outputType bytes = .ok value := by
  unfold Implementation.reply at h
  rw [hjson] at h
  unfold viewResultJson
  obtain ⟨attrs, ident, receiver, inputs, output, default⟩ := method
  cases output with
  | none =>
    cases h
    exact laws.void value
  | some output =>
    obtain ⟨hne, hread⟩ := laws.json h
    rw [if_neg (by simpa using hne)]
    exact hread

omit [DecidableEq τ] in
private theorem borshFromSlice_reply (laws : SerdeLaws τ) {method : TraitItemFn τ}
    (hborsh : method.format contractFormat = .borsh) {value : Serde.Value method.outputType}
    {bytes : Bytes} (h : Implementation.reply contractFormat method value = some bytes) :
    Serde.borshFromSlice method.outputType bytes = .ok value := by
  unfold Implementation.reply at h
  rw [hborsh] at h
  exact laws.borsh h

omit [DecidableEq τ] in
theorem answer_written (laws : SerdeLaws τ) (hnames : (input.methods.map TraitItemFn.ident).Nodup)
    {σ : Type} {impl : Implementation τ σ} {method : TraitItemFn τ} (hmethod : method ∈ input.methods)
    {actual : Option (Typed τ)} {bytes : Bytes} (hcalls : method.Calls contractFormat actual bytes)
    (s : σ) : impl.answer input contractFormat s method.ident bytes =
      Implementation.reply contractFormat method (impl.view method actual s) := by
  rw [Implementation.answer, receive_written laws hnames hmethod hcalls]
  rfl

section
variable [Crates]

/-- A process that calls a view through the client, at the block that it is set to. -/
inductive Macros.Expansion.Starts (expansion : Expansion τ) (client : ContractClient)
    (method : TraitItemFn τ) (actual : Option (Typed τ)) : ViewFuture τ → Prop
  | json {f : GeneratedFn τ} {c : ViewCall τ} (block : BlockReference)
      (hf : f ∈ expansion.clientMethods) (hname : f.name = method.ident)
      (hc : f.invoke (some client) actual = some (.viewCall c)) :
      Starts expansion client method actual (ViewCall.intoFuture { c with blockRef := block })
  | borsh {f : GeneratedFn τ} {c : ViewCallBorsh τ}
      (hf : f ∈ expansion.clientMethods) (hname : f.name = method.ident)
      (hc : f.invoke (some client) actual = some (.viewCallBorsh c)) :
      Starts expansion client method actual c.intoFuture

/-- A client is told the value, or the error of the node. -/
def ViewTold (client : ContractClient) (method : TraitItemFn τ)
    (value : Serde.Value method.outputType) :
    Except RpcError Bytes → Except ViewError (Typed τ) → Prop
  | .ok _, told => told = .ok ⟨method.outputType, value⟩
  | .error e, told => ∃ bytes block, told = .error (.client (.fromRpc
      (TypedCall.mapErr (.viewFunction client.contractId method.ident bytes block) e)))

omit [DecidableEq τ] in
private theorem viewFuture_obeys {rpc : RetryConfig} {call : TypedCall}
    {decode : Bytes → Except ViewError (Typed τ)} :
    (viewFuture rpc call decode).Obeys (callMonitor call.Asked)
      (Attempted fun answer told => told = finishView decode (answer.mapError call.mapErr)) [] := by
  apply Process.Obeys.map
  apply call.perform_obeys.imp
  intro xs r hr told htold
  obtain ⟨response, hresponse, rfl⟩ := Option.mem_map.mp htold
  obtain ⟨request, answer, hattempt, rfl⟩ := hr response hresponse
  exact ⟨request, answer, hattempt, rfl⟩

/-- A view in flight, and how it decodes what the contract returns. -/
theorem Macros.Expansion.Starts.eq_viewFuture (laws : SerdeLaws τ)
    (h : contract attr input = .ok expansion) (hformat : FormatDeclared attr contractFormat)
    (hnames : (input.methods.map TraitItemFn.ident).Nodup) {method : TraitItemFn τ}
    (hmethod : method ∈ input.methods) (hview : method.isView = true) {actual : Option (Typed τ)}
    {bytes : Bytes} (hcalls : method.Calls contractFormat actual bytes) {client : ContractClient}
    {p : ViewFuture τ} (hp : expansion.Starts client method actual p) :
    ∃ block decode, p = viewFuture client.near.retry
        (.viewFunction client.contractId method.ident bytes block) decode ∧
      ∀ value : Serde.Value method.outputType, ∀ result,
        Implementation.reply contractFormat method value = some result →
        decode result = .ok ⟨method.outputType, value⟩ := by
  have hbuilt {f : GeneratedFn τ} (hf : f ∈ expansion.clientMethods) (hname : f.name = method.ident) :
      f.invoke (some client) actual = some (method.view contractFormat client bytes) := by
    rw [clientMethod_eq h hformat hnames hmethod hf hname, generateClientMethod,
      if_pos (by simp [TraitItemFn.info, hview])]
    exact invoke_view hcalls client
  cases hp with
  | json block hf hname hc =>
    rw [hbuilt hf hname, TraitItemFn.view] at hc
    cases hmethodFormat : method.format contractFormat with
    | borsh => simp [hmethodFormat] at hc
    | json =>
      simp only [hmethodFormat, Option.some.injEq, Built.viewCall.injEq] at hc
      subst hc
      refine ⟨block, _, rfl, ?_⟩
      intro value result hreply
      rw [viewResultJson_reply laws hmethodFormat hreply]
      rfl
  | borsh hf hname hc =>
    rw [hbuilt hf hname, TraitItemFn.view] at hc
    cases hmethodFormat : method.format contractFormat with
    | json => simp [hmethodFormat] at hc
    | borsh =>
      simp only [hmethodFormat, Option.some.injEq, Built.viewCallBorsh.injEq] at hc
      subst hc
      refine ⟨.finality .final, _, rfl, ?_⟩
      intro value result hreply
      show ((Serde.borshFromSlice method.outputType result).mapError ViewError.borsh).map
        (Sigma.mk method.outputType) = _
      rw [borshFromSlice_reply laws hmethodFormat hreply]
      rfl

/-- In every interleaving of views with each other and with whatever changes the contract, each
attempt calls the very method of its view, and each result is the value that the method returns
in a state of the contract that it was answered in, or the error that the node answered. -/
theorem views_run_methods {ι σ : Type} [DecidableEq ι] (laws : SerdeLaws τ)
    (h : contract attr input = .ok expansion) (hformat : FormatDeclared attr contractFormat)
    (hnames : (input.methods.map TraitItemFn.ident).Nodup) (impl : Implementation τ σ)
    (client : ContractClient)
    (H : ι → σ → (q : CallRequest CallParams) → CallAnswer CallParams Bytes q → σ → Prop)
    (hH : ∀ i s request result s' name args block, H i s (.tryCall request) (.ok result) s' →
      CallBody.read ⟨request.method, request.params⟩ =
        some (.viewFunction client.contractId name args block) →
      impl.answer input contractFormat s name args = some result)
    (method : ι → TraitItemFn τ) (actual : ι → Option (Typed τ)) (bytes : ι → Bytes)
    (hmethod : ∀ i, method i ∈ input.methods ∧ (method i).isView = true)
    (hcalls : ∀ i, (method i).Calls contractFormat (actual i) (bytes i))
    (start : ι → ViewFuture τ) (hstart : ∀ i, expansion.Starts client (method i) (actual i) (start i))
    {s₀ s : σ} {es : List (Occurrence ι σ (CallRequest CallParams) (CallAnswer CallParams Bytes)
      (Option (Except ViewError (Typed τ))))} {ps}
    (run : Interleaving H start s₀ es s ps) (i : ι) : ∃ block,
    (∀ t request answer, .asked i t (.tryCall request) answer ∈ es →
      CallBody.read ⟨request.method, request.params⟩ =
        some (.viewFunction client.contractId (method i).ident (bytes i) block)) ∧
    ∀ told, .returned i (some told) ∈ es → ∃ t request answer,
      .asked i t (.tryCall request) answer ∈ es ∧
      ViewTold client (method i) (impl.view (method i) (actual i) t) answer told := by
  obtain ⟨hdeclared, hview⟩ := hmethod i
  obtain ⟨block, decode, hp, hdecode⟩ :=
    (hstart i).eq_viewFuture laws h hformat hnames hdeclared hview (hcalls i)
  obtain ⟨hasked, hreturned⟩ := run.answered (hp ▸ viewFuture_obeys)
  refine ⟨block, hasked, ?_⟩
  intro told htold
  obtain ⟨t, request, answer, t', ht, hstep, hread, rfl⟩ := hreturned told htold
  refine ⟨t, request, answer, ht, ?_⟩
  cases answer with
  | error e => exact ⟨bytes i, block, rfl⟩
  | ok result =>
    have hanswer := hH i t request result t' _ _ _ hstep hread
    rw [answer_written laws hnames hdeclared (hcalls i)] at hanswer
    exact hdecode _ result hanswer

end
end
end

/-! ### A contract with a switch -/

namespace Macros

inductive SampleTy where
  | unit | bool
  deriving DecidableEq

def trueText : Bytes := [116, 114, 117, 101]

def falseText : Bytes := [102, 97, 108, 115, 101]

@[reducible] def SampleTy.Value : SampleTy → Type
  | unit => Unit
  | bool => Bool

namespace SampleTy

def jsonToVec : {t : SampleTy} → t.Value → Option Bytes
  | unit, _ => some nullText
  | bool, b => some (if b then trueText else falseText)

def borshToVec : {t : SampleTy} → t.Value → Option Bytes
  | unit, _ => some []
  | bool, b => some [if b then 1 else 0]

def jsonFromSlice : (t : SampleTy) → Bytes → Except SerdeError t.Value
  | unit, bytes => if bytes = nullText then .ok () else .error .invalidType
  | bool, bytes =>
    if bytes = trueText then .ok true else if bytes = falseText then .ok false
    else .error .invalidType

def borshFromSlice : (t : SampleTy) → Bytes → Except String t.Value
  | unit, [] => .ok ()
  | bool, [0] => .ok false
  | bool, [1] => .ok true
  | _, _ => .error "Invalid data"

end SampleTy

instance : Serde SampleTy where
  unit := .unit
  Value := SampleTy.Value
  jsonToVec := SampleTy.jsonToVec
  borshToVec := SampleTy.borshToVec
  jsonFromSlice := SampleTy.jsonFromSlice
  borshFromSlice := SampleTy.borshFromSlice

theorem SampleTy.laws : SerdeLaws SampleTy where
  json := by
    intro t v bytes h
    cases t with
    | unit => cases h; exact ⟨List.cons_ne_nil _ _, rfl⟩
    | bool => cases v <;> cases h <;> exact ⟨List.cons_ne_nil _ _, rfl⟩
  borsh := by
    intro t v bytes h
    cases t with
    | unit => cases h; rfl
    | bool => cases v <;> cases h <;> rfl
  void _ := rfl

/-- `fn is(&self, on: bool) -> bool` -/
def TraitItemFn.is : TraitItemFn SampleTy :=
  ⟨[], "is", some (.reference false), [⟨.ident "on", .bool⟩], some .bool, false⟩

/-- `#[call] #[borsh] fn set(&mut self, on: bool)` -/
def TraitItemFn.set : TraitItemFn SampleTy :=
  ⟨[⟨["call"], .path⟩, ⟨["borsh"], .path⟩], "set", some (.reference true),
    [⟨.ident "on", .bool⟩], none, false⟩

/-- `#[call] fn toggle(&mut self)` -/
def TraitItemFn.toggle : TraitItemFn SampleTy :=
  ⟨[⟨["call"], .path⟩], "toggle", some (.reference true), [], none, false⟩

def ItemTrait.sample : ItemTrait SampleTy :=
  ⟨[], "pub", false, false, "Switch", [], false, [], [.fn .is, .fn .set, .fn .toggle]⟩

theorem ItemTrait.sample_accepted :
    contract [] ItemTrait.sample = .ok (ItemTrait.sample.expansion .json) :=
  rfl

theorem ItemTrait.sample_methods : ItemTrait.sample.methods = [.is, .set, .toggle] := rfl

theorem ItemTrait.sample_names : (ItemTrait.sample.methods.map TraitItemFn.ident).Nodup := by
  simp [sample_methods, TraitItemFn.is, TraitItemFn.set, TraitItemFn.toggle]

private theorem TraitItemFn.is_calls (on : Bool) :
    TraitItemFn.is.Calls .json (some ⟨.bool, on⟩) (if on then trueText else falseText) :=
  ⟨rfl, rfl, rfl⟩

private theorem TraitItemFn.set_calls : TraitItemFn.set.Calls .json (some ⟨.bool, true⟩) [1] :=
  ⟨rfl, rfl, rfl⟩

private theorem TraitItemFn.toggle_calls : TraitItemFn.toggle.Calls .json none emptyObject :=
  ⟨rfl, rfl, rfl⟩

end Macros

def Implementation.sample : Implementation SampleTy Bool where
  view method actual s := match method.outputType with
    | .unit => ()
    | .bool => match actual with
      | some ⟨.bool, on⟩ => Bool.not (Bool.xor on s)
      | _ => s
  call _ actual s := match actual with
    | some ⟨.bool, on⟩ => on
    | _ => !s

def ContractClient.sample : ContractClient := ⟨⟨"testnet", ⟨3, 100, 1000⟩, none, 3⟩, .bob⟩

theorem generated_functions_return_sample : ∃ expansion,
    contract [] ItemTrait.sample = .ok expansion ∧
    ∃ f ∈ expansion.functionCallMethods, ∃ b,
      f.invoke none (some ⟨.bool, true⟩) = some b ∧ b.type = f.returns := by
  refine ⟨_, ItemTrait.sample_accepted, _, List.mem_cons_self, ?_⟩
  exact (generated_functions_return ItemTrait.sample_accepted (some ⟨.bool, true⟩)).2 _ List.mem_cons_self rfl

/-- In a transaction the switch is turned on and then the other way. -/
theorem transactions_run_methods_sample : ∃ expansion set toggle,
    contract [] ItemTrait.sample = .ok expansion ∧
    MethodUse.IsAction ⟨.set, some ⟨.bool, true⟩, 1, 0⟩ expansion set ∧
    MethodUse.IsAction ⟨.toggle, none, 2, 5⟩ expansion toggle ∧
    ([set, toggle].foldl TransactionBuilder.addAction
        (ContractClient.sample.near.transaction ContractClient.sample.contractId)).actions.foldlM
      (Implementation.sample.apply .sample .json) false = some false := by
  have hformat : FormatDeclared [] .json := Or.inl rfl
  have hset : TraitItemFn.set ∈ ItemTrait.sample.methods := by simp [ItemTrait.sample_methods]
  have htoggle : TraitItemFn.toggle ∈ ItemTrait.sample.methods := by simp [ItemTrait.sample_methods]
  have hsetAction : MethodUse.IsAction ⟨.set, some ⟨.bool, true⟩, 1, 0⟩
      (ItemTrait.sample.expansion .json) _ :=
    ⟨_, constructs_call ItemTrait.sample_accepted hformat hset rfl TraitItemFn.set_calls, rfl⟩
  have htoggleAction : MethodUse.IsAction ⟨.toggle, none, 2, 5⟩ (ItemTrait.sample.expansion .json) _ :=
    ⟨_, constructs_call ItemTrait.sample_accepted hformat htoggle rfl TraitItemFn.toggle_calls, rfl⟩
  refine ⟨_, _, _, ItemTrait.sample_accepted, hsetAction, htoggleAction, ?_⟩
  refine (transactions_run_methods SampleTy.laws ItemTrait.sample_accepted hformat
    ItemTrait.sample_names Implementation.sample .sample).1
    [⟨.set, some ⟨.bool, true⟩, 1, 0⟩, ⟨.toggle, none, 2, 5⟩] _ ?_
    (.cons hsetAction (.cons htoggleAction .nil)) false
  simp only [List.forall_mem_cons, List.not_mem_nil, false_imp_iff, implies_true, and_true]
  exact ⟨⟨hset, rfl, _, TraitItemFn.set_calls⟩, ⟨htoggle, rfl, _, TraitItemFn.toggle_calls⟩⟩

/-- A node that answers calls to the switch, which others may switch at any time. -/
def sampleContractHandler [Crates] (_ : Bool) (on : Bool) :
    (q : CallRequest CallParams) → CallAnswer CallParams Bytes q → Bool → Prop
  | .tryCall request, .ok result, _ => ∀ name args block,
      CallBody.read ⟨request.method, request.params⟩ = some (.viewFunction .bob name args block) →
        Implementation.sample.answer .sample .json on name args = some result
  | _, _, _ => True

def sampleArgs (on : Bool) : Bytes := if on then trueText else falseText

/-- Is the switch so? -/
def sampleView [Crates] (on : Bool) : ViewFuture SampleTy :=
  ViewCall.intoFuture ⟨⟨3, 100, 1000⟩, .bob, "is", sampleArgs on, .finality .final, .bool⟩

def sampleViewRequest (id : UInt64) (on : Bool) : JsonRpcRequest CallParams :=
  ⟨"2.0", id, "EXPERIMENTAL_call_function", .named ([("account_id", .text AccountId.bob.name),
    ("method_name", .text "is"), ("args_base64", .text (Base64.encode (sampleArgs on)))] ++
      (BlockReference.finality .final).toRpcParams)⟩

/-- The switch is as it is asked about. -/
theorem sampleContractHandler_view [Crates] (id : UInt64) (on next : Bool) :
    sampleContractHandler on on (.tryCall (sampleViewRequest id on)) (.ok trueText) next := by
  intro name args block hread
  have hbody := TypedCall.read_body
    (show TypedCall.body (.viewFunction .bob "is" (sampleArgs on) (.finality .final)) = some _ from rfl)
  cases hread.symm.trans hbody
  cases on <;> rfl

/-- Two views, of which the first one gets no response at first. Then the switch is turned
off. -/
theorem exists_sampleViews [Crates] : ∃ es s ps,
    Interleaving sampleContractHandler sampleView true es s ps ∧
      ∀ on, .returned on (some (.ok ⟨.bool, true⟩)) ∈ es := by
  have run₀ : Interleaving sampleContractHandler sampleView true [] true
      fun on => some (sampleView on) := .init
  obtain ⟨ps₁, run₁, hps₁, hother₁⟩ := run₀.ask (i := true) rfl (q := .requestId) rfl 0 (t := true)
    trivial
  obtain ⟨ps₂, run₂, hps₂, hother₂⟩ := run₁.ask hps₁ (q := .tryCall (sampleViewRequest 0 true)) rfl
    (.error (.timeout 0)) (t := true) trivial
  obtain ⟨ps₃, run₃, hps₃, hother₃⟩ := run₂.ask hps₂ (q := .sleep 100) rfl () (t := true) trivial
  obtain ⟨ps₄, run₄, hps₄, hother₄⟩ := run₃.ask hps₃ (q := .requestId) rfl 1 (t := true) trivial
  obtain ⟨ps₅, run₅, hps₅, hother₅⟩ := run₄.ask hps₄ (q := .tryCall (sampleViewRequest 1 true)) rfl
    (.ok trueText) (t := false) (sampleContractHandler_view 1 true false)
  have run₆ := Interleaving.returned run₅ hps₅
  have hother : ps₅ false = some (sampleView false) := by
    rw [hother₅ false (by decide), hother₄ false (by decide), hother₃ false (by decide),
      hother₂ false (by decide), hother₁ false (by decide)]
  have hps₆ : Function.update ps₅ true none false = some (sampleView false) := hother
  obtain ⟨ps₇, run₇, hps₇, -⟩ := run₆.ask hps₆ (q := .requestId) rfl 2 (t := false) trivial
  obtain ⟨ps₈, run₈, hps₈, -⟩ := run₇.ask hps₇ (q := .tryCall (sampleViewRequest 2 false)) rfl
    (.ok trueText) (t := false) (sampleContractHandler_view 2 false false)
  refine ⟨_, _, _, .returned run₈ hps₈, fun on => ?_⟩
  cases on with
  | false => exact List.mem_cons_self
  | true =>
    exact List.mem_cons_of_mem _ (List.mem_cons_of_mem _ (List.mem_cons_of_mem _ List.mem_cons_self))

theorem views_run_methods_sample :
    ∃ es s ps, Interleaving (@sampleContractHandler Crates.accepting)
        (@sampleView Crates.accepting) true es s ps ∧ ∀ on, ∃ t request answer,
      .asked on t (.tryCall request) answer ∈ es ∧
      ViewTold ContractClient.sample .is (Implementation.sample.view .is (some ⟨.bool, on⟩) t) answer
        (.ok ⟨.bool, true⟩) := by
  let _ := Crates.accepting
  have hformat : FormatDeclared [] .json := Or.inl rfl
  have hmethod : TraitItemFn.is ∈ ItemTrait.sample.methods := by simp [ItemTrait.sample_methods]
  have hstart (on : Bool) : (ItemTrait.sample.expansion .json).Starts ContractClient.sample .is
      (some ⟨.bool, on⟩) (sampleView on) :=
    .json (.finality .final) List.mem_cons_self rfl (invoke_view (TraitItemFn.is_calls on) .sample)
  obtain ⟨es, s, ps, run, htrue⟩ := exists_sampleViews
  refine ⟨es, s, ps, run, fun on => ?_⟩
  obtain ⟨-, -, htold⟩ := views_run_methods SampleTy.laws ItemTrait.sample_accepted hformat
    ItemTrait.sample_names Implementation.sample .sample sampleContractHandler
    (fun _ _ _ _ _ name args block hstep => hstep name args block)
    (fun _ => .is) (fun on => some ⟨.bool, on⟩) sampleArgs (fun _ => ⟨hmethod, rfl⟩)
    TraitItemFn.is_calls sampleView hstart run on
  exact htold _ (htrue on)

end NearKit
