import NearKit.BorshReader
import NearKit.OrderedChecks

/-!
# Contract interfaces

The attribute macro `contract` takes a trait apart, and rejects what a contract cannot have.
Identifiers are given as `to_string` prints them, so a raw one begins with `r#`. Of an error of
`syn` itself, only that there is one is modelled. From what is accepted it generates functions,
and these have the types they declare.
-/
namespace NearKit.Macros
open Borsh

/-! ## What the macro is given -/

inductive Token where
  | ident (name : String)
  | other (text : String)
  deriving DecidableEq, Repr

/-- What stands behind the path of an attribute. -/
inductive AttributeArgs where
  | path
  | list (tokens : List Token)
  | nameValue
  deriving DecidableEq

/-- An attribute with the segments of its path. A leading `::` is an empty first one. -/
structure Attribute where
  path : List String
  args : AttributeArgs
  deriving DecidableEq

/-- A receiver is a reference, or it is by value or has a type of its own. -/
inductive ReceiverKind where
  | reference (mutability : Bool)
  | other
  deriving DecidableEq

inductive Pat where
  | ident (name : String)
  | other
  deriving DecidableEq

/-- An argument, where `τ` are the types that can be written. -/
structure PatType (τ : Type) where
  pat : Pat
  ty : τ

/-- A method of a trait. The receiver is not among its inputs. -/
structure TraitItemFn (τ : Type) where
  attrs : List Attribute
  ident : String
  receiver : Option ReceiverKind
  inputs : List (PatType τ)
  output : Option τ
  default : Bool

inductive TraitItem (τ : Type) where
  | fn (method : TraitItemFn τ)
  | other

structure ItemTrait (τ : Type) where
  attrs : List Attribute
  vis : String
  unsafety : Bool
  autoToken : Bool
  ident : String
  genericParams : List String
  whereClause : Bool
  supertraits : List String
  items : List (TraitItem τ)

variable {τ : Type}

namespace Attribute

/-- `attr.path().is_ident(name)`. -/
def isIdent (attr : Attribute) (name : String) : Bool := attr.path = [name]

end Attribute

/-! ## The checks of the macro -/

inductive CompileError where
  | message (text : String)
  | syn
  deriving DecidableEq

/-- A parser of tokens returns the tokens it leaves. -/
abbrev Parser (α : Type) := List Token → Except CompileError (α × List Token)

def Token.parseIdent : Parser String
  | .ident name :: rest => .ok (name, rest)
  | _ => .error .syn

def parseAll {α : Type} (parser : Parser α) (tokens : List Token) : Except CompileError α := do
  let (a, rest) ← parser tokens
  if rest.isEmpty then return a else .error .syn

inductive SerializationFormat where
  | json | borsh
  deriving DecidableEq, Repr

structure ContractArgs where
  format : SerializationFormat

def unknownFormat (other : String) : CompileError :=
  .message ("unknown format '" ++ other ++ "', expected 'json' or 'borsh'")

def ContractArgs.parse : Parser ContractArgs := fun input =>
  if input.isEmpty then .ok (⟨.json⟩, input) else do
    let (ident, rest) ← Token.parseIdent input
    match ident with
    | "json" => return (⟨.json⟩, rest)
    | "borsh" => return (⟨.borsh⟩, rest)
    | other => .error (unknownFormat other)

structure CallArgs where
  payable : Bool

def unknownCallOption (ident : String) : CompileError :=
  .message ("unknown call option '" ++ ident ++ "', expected 'payable'")

def CallArgs.parse : Parser CallArgs := fun input =>
  if input.isEmpty then .ok (⟨false⟩, input) else do
    let (ident, rest) ← Token.parseIdent input
    if ident ≠ "payable" then .error (unknownCallOption ident) else
    return (⟨true⟩, rest)

/-- The options of `#[call]`. -/
def Attribute.callArgs (attr : Attribute) : Except CompileError CallArgs :=
  match attr.args with
  | .path => .ok ⟨false⟩
  | .list tokens => parseAll CallArgs.parse tokens
  | .nameValue => .error .syn

structure MethodInfo (τ : Type) where
  name : String
  isView : Bool
  isCall : Bool
  isPayable : Bool
  formatOverride : Option SerializationFormat
  argName : Option String
  argType : Option τ
  returnType : Option τ

def referenceReceiver : CompileError := .message "contract methods must take &self or &mut self"

def someReceiver : CompileError :=
  .message "contract methods must have a receiver (&self or &mut self)"

def viewWithCall : CompileError :=
  .message "view methods (&self) should not have #[call] attribute"

def callWithoutCall : CompileError :=
  .message "call methods (&mut self) must have #[call] attribute"

def oneArgument : CompileError := .message
  "contract methods can have at most one argument (use a struct for multiple parameters)"

namespace TraitItemFn
variable (method : TraitItemFn τ)

/-- Whether the method is a view, and whether it takes `&mut self`. -/
def parseReceiver : Except CompileError (Bool × Bool) :=
  match method.receiver with
  | some (.reference mutability) => .ok (!mutability, mutability)
  | some .other => .error referenceReceiver
  | none => .error someReceiver

/-- The attribute `#[call]`. Of several ones, the first counts. -/
def callAttr : Option Attribute := method.attrs.find? (·.isIdent "call")

/-- Whether the method is a call, and whether it is payable. -/
def parseCall : Except CompileError (Bool × Bool) :=
  match method.callAttr with
  | some attr => do
    let args ← attr.callArgs
    return (true, args.payable)
  | none => .ok (false, false)

def formatOverride : Option SerializationFormat :=
  if method.attrs.any (·.isIdent "json") then some .json
  else if method.attrs.any (·.isIdent "borsh") then some .borsh
  else none

/-- The loop over the arguments, with its `arg_count`. A name is taken from identifiers only. -/
def parseInputs : ℕ → Option String × Option τ → List (PatType τ) →
    Except CompileError (Option String × Option τ)
  | _, arg, [] => .ok arg
  | argCount, (argName, _), input :: inputs =>
    if argCount + 1 > 1 then .error oneArgument else
    let argName := match input.pat with
      | .ident name => some name
      | .other => argName
    parseInputs (argCount + 1) (argName, some input.ty) inputs

def parseMethod : Except CompileError (MethodInfo τ) := do
  let (isView, isMut) ← method.parseReceiver
  let (isCall, isPayable) ← method.parseCall
  if isView && isCall then .error viewWithCall else
  if isMut && !isCall then .error callWithoutCall else
  let (argName, argType) ← parseInputs 0 (none, none) method.inputs
  return ⟨method.ident, isView, isCall, isPayable, method.formatOverride, argName, argType,
    method.output⟩

end TraitItemFn

def unsafeTrait : CompileError := .message "#[near_kit::contract] does not support unsafe traits"

def autoTrait : CompileError := .message "#[near_kit::contract] does not support auto traits"

def genericTrait : CompileError :=
  .message "#[near_kit::contract] does not support generic parameters"

def whereTrait : CompileError := .message "#[near_kit::contract] does not support where clauses"

def superTrait : CompileError := .message "#[near_kit::contract] does not support supertraits"

def defaultMethod : CompileError :=
  .message "#[near_kit::contract] does not support default method implementations"

def onlyMethods : CompileError := .message "#[near_kit::contract] only supports methods in traits"

def TraitItem.parse : TraitItem τ → Except CompileError (MethodInfo τ)
  | .fn method => if method.default then .error defaultMethod else method.parseMethod
  | .other => .error onlyMethods

/-- The checks of `contract_impl`, and the methods it goes on with. -/
def ItemTrait.parseMethods (input : ItemTrait τ) : Except CompileError (List (MethodInfo τ)) :=
  if input.unsafety then .error unsafeTrait else
  if input.autoToken then .error autoTrait else
  if !input.genericParams.isEmpty then .error genericTrait else
  if input.whereClause then .error whereTrait else
  if !input.supertraits.isEmpty then .error superTrait else
  input.items.mapM TraitItem.parse

/-! ## What the macro generates -/

/-- The types that can be written. -/
class TypeSyntax (τ : Type) where
  /-- The type `()`. -/
  unit : τ

inductive ReturnTy (τ : Type) where
  | viewCall (output : τ)
  | viewCallBorsh (output : τ)
  | callBuilder
  | functionCall
  deriving DecidableEq

/-- The bodies of generated functions. -/
inductive Expr (τ : Type) where
  /-- `self.near.view::<output>(&self.contract_id, method)` -/
  | view (output : τ) (method : String)
  /-- `self.near.call(&self.contract_id, method)` -/
  | call (method : String)
  /-- `near_kit::FunctionCall::new(method)` -/
  | functionCall (method : String)
  | args (e : Expr τ) (arg : String)
  | argsBorsh (e : Expr τ) (arg : String)
  | argsRaw (e : Expr τ) (bytes : Bytes)
  | borsh (e : Expr τ)

structure GeneratedFn (τ : Type) where
  name : String
  selfRef : Bool
  param : Option (String × τ)
  returns : ReturnTy τ
  body : Expr τ

/-- `b"\x7b\x7d"`, the empty object. -/
def emptyObject : Bytes := [0x7b, 0x7d]

section
variable [TypeSyntax τ] (method : MethodInfo τ) (contractFormat : SerializationFormat)

def generateViewMethod : GeneratedFn τ :=
  let format := method.formatOverride.getD contractFormat
  let returnType := method.returnType.getD TypeSyntax.unit
  let viewReturnType := match format with
    | .json => .viewCall returnType
    | .borsh => .viewCallBorsh returnType
  let view := .view returnType method.name
  match method.argName, method.argType with
  | some argName, some argType =>
    let body := match format with
      | .json => .args view argName
      | .borsh => .borsh (.argsBorsh view argName)
    ⟨method.name, true, some (argName, argType), viewReturnType, body⟩
  | _, _ => match format with
    | .json => ⟨method.name, true, none, viewReturnType, .argsRaw view emptyObject⟩
    | .borsh => ⟨method.name, true, none, viewReturnType, .borsh view⟩

/-- The arguments that both functions of a call method set. -/
def generateArgs (start : Expr τ) : Expr τ :=
  let format := method.formatOverride.getD contractFormat
  match method.argName, method.argType with
  | some argName, some _ => match format with
    | .json => .args start argName
    | .borsh => .argsBorsh start argName
  | _, _ => match format with
    | .json => .argsRaw start emptyObject
    | .borsh => start

/-- The parameter of a generated function, which needs a name and a type. -/
def MethodInfo.param : Option (String × τ) :=
  match method.argName, method.argType with
  | some argName, some argType => some (argName, argType)
  | _, _ => none

def generateCallMethod : GeneratedFn τ :=
  ⟨method.name, true, method.param, .callBuilder,
    generateArgs method contractFormat (.call method.name)⟩

def generateFunctionCallMethod : GeneratedFn τ :=
  ⟨method.name, false, method.param, .functionCall,
    generateArgs method contractFormat (.functionCall method.name)⟩

def generateClientMethod : GeneratedFn τ :=
  if method.isView then generateViewMethod method contractFormat
  else generateCallMethod method contractFormat

end

/-- The struct with the constructors of function calls, and the struct of the client. -/
structure Expansion (τ : Type) where
  attrs : List Attribute
  vis : String
  structName : String
  functionCallMethods : List (GeneratedFn τ)
  clientName : String
  clientMethods : List (GeneratedFn τ)

/-- What `format_ident!` writes for an identifier: a raw one loses its prefix. -/
def identFragment (ident : String) : String :=
  match ident.toList with
  | 'r' :: '#' :: rest => String.ofList rest
  | _ => ident

section
variable [TypeSyntax τ]

def contractImpl (args : ContractArgs) (input : ItemTrait τ) :
    Except CompileError (Expansion τ) := do
  let methods ← input.parseMethods
  let clientMethods := methods.map fun m => generateClientMethod m args.format
  let functionCallMethods := (methods.filter (!·.isView)).map
    fun m => generateFunctionCallMethod m args.format
  return ⟨input.attrs, input.vis, input.ident, functionCallMethods,
    identFragment input.ident ++ "Client", clientMethods⟩

/-- The attribute `#[near_kit::contract]`. -/
def contract (attr : List Token) (input : ItemTrait τ) : Except CompileError (Expansion τ) := do
  let args ← parseAll ContractArgs.parse attr
  contractImpl args input

end

/-! ### Types of expressions -/

/-- What `args`, `args_borsh` and `args_raw` can be called on. -/
def ReturnTy.takesArgs : ReturnTy τ → Option (ReturnTy τ)
  | .viewCallBorsh _ => none
  | t => some t

namespace Expr

def typeOf (selfRef : Bool) (param : Option (String × τ)) : Expr τ → Option (ReturnTy τ)
  | .view output _ => if selfRef then some (.viewCall output) else none
  | .call _ => if selfRef then some .callBuilder else none
  | .functionCall _ => some .functionCall
  | .args e arg | .argsBorsh e arg =>
    if param.map Prod.fst = some arg then (e.typeOf selfRef param).bind ReturnTy.takesArgs else none
  | .argsRaw e _ => (e.typeOf selfRef param).bind ReturnTy.takesArgs
  | .borsh e => match e.typeOf selfRef param with
    | some (.viewCall output) => some (.viewCallBorsh output)
    | _ => none

end Expr

/-- The body has the type that the function declares. -/
def GeneratedFn.WellTyped (f : GeneratedFn τ) : Prop :=
  f.body.typeOf f.selfRef f.param = some f.returns

section
variable (method : MethodInfo τ) (format : SerializationFormat)

private theorem generateViewMethod_wellTyped [TypeSyntax τ] :
    (generateViewMethod method format).WellTyped := by
  unfold generateViewMethod GeneratedFn.WellTyped
  cases method.argName <;> cases method.argType <;> cases method.formatOverride.getD format <;>
    simp [Expr.typeOf, ReturnTy.takesArgs]

theorem generateArgs_typeOf {selfRef : Bool} {start : Expr τ} {t : ReturnTy τ}
    (hstart : start.typeOf selfRef method.param = some t) (ht : t.takesArgs = some t) :
    (generateArgs method format start).typeOf selfRef method.param = some t := by
  unfold generateArgs
  cases hname : method.argName with
  | none => cases method.formatOverride.getD format <;> simp [Expr.typeOf, hstart, ht]
  | some argName =>
    cases htype : method.argType with
    | none => cases method.formatOverride.getD format <;> simp [Expr.typeOf, hstart, ht]
    | some argType =>
      have hparam : method.param = some (argName, argType) := by
        simp [MethodInfo.param, hname, htype]
      rw [hparam] at hstart ⊢
      cases method.formatOverride.getD format <;> simp [Expr.typeOf, hstart, ht]

theorem generateViewMethod_signature [TypeSyntax τ] :
    (generateViewMethod method format).name = method.name ∧
    (generateViewMethod method format).selfRef = true ∧
    (generateViewMethod method format).param = method.param := by
  unfold generateViewMethod MethodInfo.param
  cases method.argName <;> cases method.argType <;> cases method.formatOverride.getD format <;>
    simp

theorem generateViewMethod_body [TypeSyntax τ] : (generateViewMethod method format).body =
    let view := .view (method.returnType.getD TypeSyntax.unit) method.name
    match method.formatOverride.getD format with
    | .json => generateArgs method format view
    | .borsh => .borsh (generateArgs method format view) := by
  unfold generateViewMethod generateArgs
  cases method.argName <;> cases method.argType <;> cases method.formatOverride.getD format <;>
    simp

private theorem generateCallMethod_wellTyped : (generateCallMethod method format).WellTyped :=
  generateArgs_typeOf method format rfl rfl

private theorem generateFunctionCallMethod_wellTyped :
    (generateFunctionCallMethod method format).WellTyped :=
  generateArgs_typeOf method format rfl rfl

private theorem generateClientMethod_wellTyped [TypeSyntax τ] :
    (generateClientMethod method format).WellTyped := by
  unfold generateClientMethod
  split
  · exact generateViewMethod_wellTyped method format
  · exact generateCallMethod_wellTyped method format

theorem generateClientMethod_signature [TypeSyntax τ] :
    (generateClientMethod method format).name = method.name ∧
    (generateClientMethod method format).selfRef = true ∧
    (generateClientMethod method format).param = method.param := by
  unfold generateClientMethod
  split
  · exact generateViewMethod_signature method format
  · exact ⟨rfl, rfl, rfl⟩

end

/-! ## What the macro accepts -/

def Attribute.IsCallOption (attr : Attribute) : Prop :=
  attr.args = .path ∨ attr.args = .list [] ∨ attr.args = .list [.ident "payable"]

namespace TraitItemFn
variable (method : TraitItemFn τ)

def isView : Bool := method.receiver = some (.reference false)

def isMut : Bool := method.receiver = some (.reference true)

/-- A method that a contract can have. -/
structure IsContractMethod : Prop where
  no_default : method.default = false
  receiver : method.isView = true ∨ method.isMut = true
  call : method.callAttr.isSome = method.isMut
  call_option : ∀ attr ∈ method.callAttr, attr.IsCallOption
  one_argument : method.inputs.length ≤ 1

end TraitItemFn

/-- The formats that a contract can have. -/
def FormatDeclared (attr : List Token) (format : SerializationFormat) : Prop :=
  match format with
  | .json => attr = [] ∨ attr = [.ident "json"]
  | .borsh => attr = [.ident "borsh"]

structure ItemTrait.IsInterface (input : ItemTrait τ) : Prop where
  not_unsafe : input.unsafety = false
  not_auto : input.autoToken = false
  not_generic : input.genericParams = []
  no_where : input.whereClause = false
  no_supertraits : input.supertraits = []
  methods : ∀ item ∈ input.items, ∃ method, item = .fn method ∧ method.IsContractMethod

/-! ### What there is to complain about -/

def formatComplaints : List Token → List CompileError
  | [] => []
  | .ident name :: rest =>
    complain (unknownFormat name) (name ≠ "json" ∧ name ≠ "borsh") ++ complain .syn (rest ≠ [])
  | .other _ :: _ => [.syn]

def callComplaints : AttributeArgs → List CompileError
  | .path | .list [] => []
  | .list (.ident name :: rest) =>
    complain (unknownCallOption name) (name ≠ "payable") ++ complain .syn (rest ≠ [])
  | .list (.other _ :: _) | .nameValue => [.syn]

def receiverComplaints : Option ReceiverKind → List CompileError
  | some (.reference _) => []
  | some .other => [referenceReceiver]
  | none => [someReceiver]

def TraitItemFn.complaints (method : TraitItemFn τ) : List CompileError :=
  receiverComplaints method.receiver ++
  (method.callAttr.toList.flatMap (callComplaints ·.args) ++
  (complain viewWithCall (method.isView && method.callAttr.isSome) ++
  (complain callWithoutCall (method.isMut && !method.callAttr.isSome) ++
  complain oneArgument (1 < method.inputs.length))))

def TraitItem.complaints : TraitItem τ → List CompileError
  | .fn method => complain defaultMethod method.default ++ method.complaints
  | .other => [onlyMethods]

def ItemTrait.complaints (input : ItemTrait τ) : List CompileError :=
  complain unsafeTrait input.unsafety ++ (complain autoTrait input.autoToken ++
  (complain genericTrait (!input.genericParams.isEmpty) ++
  (complain whereTrait input.whereClause ++ (complain superTrait (!input.supertraits.isEmpty) ++
  input.items.flatMap TraitItem.complaints))))

/-- All that is wrong with a trait and its attribute, in the order of the source. -/
def complaints (attr : List Token) (input : ItemTrait τ) : List CompileError :=
  formatComplaints attr ++ input.complaints

/-! ### Without complaints -/

private theorem formatComplaints_eq_nil {attr : List Token} :
    formatComplaints attr = [] ↔ ∃ format, FormatDeclared attr format := by
  constructor
  · intro h
    cases attr with
    | nil => exact ⟨.json, .inl rfl⟩
    | cons token rest =>
      cases token with
      | other text => cases h
      | ident name =>
        simp only [formatComplaints, List.append_eq_nil_iff, complain_eq_nil, decide_eq_false_iff_not,
          not_and_or, not_not] at h
        obtain ⟨rfl | rfl, rfl⟩ := h
        · exact ⟨.json, .inr rfl⟩
        · exact ⟨.borsh, rfl⟩
  · rintro ⟨format, h⟩
    cases format with
    | json => rcases h with rfl | rfl <;> rfl
    | borsh => cases h; rfl

private theorem callComplaints_eq_nil {attr : Attribute} :
    callComplaints attr.args = [] ↔ attr.IsCallOption := by
  unfold Attribute.IsCallOption
  cases attr.args with
  | path => simp [callComplaints]
  | nameValue => simp [callComplaints]
  | list tokens =>
    cases tokens with
    | nil => simp [callComplaints]
    | cons token rest => cases token <;> simp [callComplaints]

private theorem receiverComplaints_eq_nil {method : TraitItemFn τ} :
    receiverComplaints method.receiver = [] ↔ method.isView = true ∨ method.isMut = true := by
  unfold TraitItemFn.isView TraitItemFn.isMut
  cases method.receiver with
  | none => simp [receiverComplaints]
  | some kind =>
    cases kind with
    | reference mutability => cases mutability <;> simp [receiverComplaints]
    | other => simp [receiverComplaints]

theorem TraitItemFn.not_isView_and_isMut (method : TraitItemFn τ) :
    ¬ (method.isView = true ∧ method.isMut = true) := by
  simp only [isView, isMut, decide_eq_true_eq]
  rintro ⟨hview, hmut⟩
  rw [hview] at hmut
  cases hmut

private theorem TraitItem.complaints_eq_nil {item : TraitItem τ} :
    item.complaints = [] ↔ ∃ method, item = .fn method ∧ method.IsContractMethod := by
  cases item with
  | other => simp [TraitItem.complaints]
  | fn method =>
    have hcall : method.callAttr.toList.flatMap (callComplaints ·.args) = [] ↔
        ∀ attr ∈ method.callAttr, attr.IsCallOption := by
      simp only [List.flatMap_eq_nil_iff, callComplaints_eq_nil, Option.mem_toList, Option.mem_def]
    simp only [TraitItem.complaints, TraitItemFn.complaints, List.append_eq_nil_iff, complain_eq_nil,
      receiverComplaints_eq_nil, hcall, fn.injEq, exists_eq_left']
    have hboth := method.not_isView_and_isMut
    constructor
    · rintro ⟨hdefault, hreceiver, hoption, hview, hmut, hone⟩
      refine ⟨hdefault, hreceiver, ?_, hoption, by simpa using hone⟩
      rcases hreceiver with h | h
      · have hnot : method.isMut = false := by simpa [h] using hboth
        rw [hnot]
        simpa [h] using hview
      · rw [h]
        simpa [h] using hmut
    · rintro ⟨hdefault, hreceiver, hcall, hoption, hone⟩
      refine ⟨hdefault, hreceiver, hoption, ?_, ?_, by simpa using hone⟩
      · rw [hcall]
        simpa using hboth
      · rw [hcall]
        simp

theorem ItemTrait.complaints_eq_nil {input : ItemTrait τ} :
    input.complaints = [] ↔ input.IsInterface := by
  simp only [ItemTrait.complaints, List.append_eq_nil_iff, complain_eq_nil, List.flatMap_eq_nil_iff,
    TraitItem.complaints_eq_nil, Bool.not_eq_false', List.isEmpty_iff]
  constructor
  · rintro ⟨h₁, h₂, h₃, h₄, h₅, h₆⟩
    exact ⟨h₁, h₂, h₃, h₄, h₅, h₆⟩
  · rintro ⟨h₁, h₂, h₃, h₄, h₅, h₆⟩
    exact ⟨h₁, h₂, h₃, h₄, h₅, h₆⟩

/-! ### The complaints are those of the macro -/

namespace TraitItemFn
variable (method : TraitItemFn τ)

def argName : Option String := method.inputs.head?.bind fun input =>
  match input.pat with
  | .ident name => some name
  | .other => none

def argType : Option τ := method.inputs.head?.map PatType.ty

def info : MethodInfo τ :=
  ⟨method.ident, method.isView, method.callAttr.isSome,
    method.callAttr.any (·.args = .list [.ident "payable"]), method.formatOverride,
    method.argName, method.argType, method.output⟩

end TraitItemFn

private theorem vetted_contractArgs (attr : List Token) :
    Vetted (formatComplaints attr) (fun args => FormatDeclared attr args.format)
      (parseAll ContractArgs.parse attr) := by
  cases attr with
  | nil => exact .ok (.inl rfl)
  | cons token rest =>
    cases token with
    | other text => exact .error _ [] _
    | ident name =>
      by_cases hjson : name = "json"
      · subst hjson
        cases rest with
        | nil => exact .ok (.inr rfl)
        | cons token rest => exact .error _ [] _
      · by_cases hborsh : name = "borsh"
        · subst hborsh
          cases rest with
          | nil => exact .ok rfl
          | cons token rest => exact .error _ [] _
        · have hparse : parseAll ContractArgs.parse (.ident name :: rest) =
              .error (unknownFormat name) := by
            simp [parseAll, ContractArgs.parse, Token.parseIdent, Bind.bind, Except.bind]
          rw [hparse]
          simp [formatComplaints, hjson, hborsh, Vetted]

private theorem vetted_callArgs (attr : Attribute) :
    Vetted (callComplaints attr.args)
      (fun args => args.payable = decide (attr.args = .list [.ident "payable"])) attr.callArgs := by
  unfold Attribute.callArgs
  cases attr.args with
  | path => exact .ok rfl
  | nameValue => exact .error _ [] _
  | list tokens =>
    cases tokens with
    | nil => exact .ok rfl
    | cons token rest =>
      cases token with
      | other text => exact .error _ [] _
      | ident name =>
        by_cases hname : name = "payable"
        · subst hname
          cases rest with
          | nil => exact .ok rfl
          | cons token rest => exact .error _ [] _
        · have hparse : parseAll CallArgs.parse (.ident name :: rest) =
              .error (unknownCallOption name) := by
            simp [parseAll, CallArgs.parse, Token.parseIdent, hname, Bind.bind, Except.bind]
          simp only [hparse]
          simp [callComplaints, hname, Vetted]

namespace TraitItemFn
variable (method : TraitItemFn τ)

private theorem vetted_parseReceiver :
    Vetted (receiverComplaints method.receiver) (· = (method.isView, method.isMut))
      method.parseReceiver := by
  unfold parseReceiver isView isMut
  cases method.receiver with
  | none => exact .error _ [] _
  | some kind =>
    cases kind with
    | other => exact .error _ [] _
    | reference mutability => cases mutability <;> exact .ok rfl

private theorem vetted_parseCall :
    Vetted (method.callAttr.toList.flatMap (callComplaints ·.args))
      (· = (method.callAttr.isSome, method.callAttr.any (·.args = .list [.ident "payable"])))
      method.parseCall := by
  unfold parseCall
  cases method.callAttr with
  | none => exact .ok rfl
  | some attr =>
    apply (vetted_callArgs attr).bind
    intro args hargs
    exact .ok (by simp [hargs])

private theorem vetted_parseInputs :
    Vetted (complain oneArgument (1 < method.inputs.length)) (· = (method.argName, method.argType))
      (parseInputs 0 (none, none) method.inputs) := by
  unfold argName argType
  cases method.inputs with
  | nil => exact .ok rfl
  | cons input inputs =>
    cases inputs with
    | nil =>
      obtain ⟨pat, ty⟩ := input
      cases pat <;> exact .ok rfl
    | cons input' inputs =>
      have hmany : decide (1 < (input :: input' :: inputs).length) = true := by simp
      rw [hmany]
      exact .error _ [] _

private theorem vetted_parseMethod :
    Vetted method.complaints (· = method.info) method.parseMethod := by
  apply method.vetted_parseReceiver.bind
  rintro _ rfl
  apply method.vetted_parseCall.bind
  rintro _ rfl
  apply Vetted.check
  intro _
  apply Vetted.check
  intro _
  rw [← List.append_nil (complain _ _)]
  apply method.vetted_parseInputs.bind
  rintro _ rfl
  exact .ok rfl

end TraitItemFn

private theorem vetted_parse (item : TraitItem τ) :
    Vetted item.complaints (fun info => ∃ method, item = .fn method ∧ info = method.info)
      item.parse := by
  cases item with
  | other => exact .error _ [] _
  | fn method =>
    apply Vetted.check
    intro _
    exact method.vetted_parseMethod.imp fun _ h => ⟨method, rfl, h⟩

private theorem vetted_parseMethods (input : ItemTrait τ) :
    Vetted input.complaints
      (List.Forall₂ (fun item info => ∃ method, item = .fn method ∧ info = method.info) input.items)
      input.parseMethods :=
  .check _ fun _ => .check _ fun _ => .check _ fun _ => .check _ fun _ => .check _ fun _ =>
    .mapM fun item _ => vetted_parse item

def ItemTrait.methods (input : ItemTrait τ) : List (TraitItemFn τ) :=
  input.items.filterMap fun
    | .fn method => some method
    | .other => none

private theorem infos_eq {items : List (TraitItem τ)} {infos : List (MethodInfo τ)}
    (h : List.Forall₂ (fun item info => ∃ method, item = .fn method ∧ info = method.info) items infos) :
    infos = (items.filterMap fun
      | .fn method => some method
      | .other => none).map TraitItemFn.info := by
  induction h with
  | nil => rfl
  | cons hinfo _ ih =>
    obtain ⟨method, rfl, rfl⟩ := hinfo
    rw [ih]
    rfl

private theorem ItemTrait.IsInterface.isContractMethod {input : ItemTrait τ} (h : input.IsInterface)
    {method : TraitItemFn τ} (hmethod : method ∈ input.methods) : method.IsContractMethod := by
  obtain ⟨item, hitem, hfn⟩ := List.mem_filterMap.mp hmethod
  obtain ⟨method', rfl, hmethod'⟩ := h.methods item hitem
  cases hfn
  exact hmethod'

private theorem TraitItemFn.IsContractMethod.not_isView {method : TraitItemFn τ}
    (h : method.IsContractMethod) : (!method.isView) = method.isMut := by
  have hboth := method.not_isView_and_isMut
  rcases h.receiver with hview | hmut
  · rw [hview] at hboth ⊢
    simpa using hboth
  · rw [hmut] at hboth ⊢
    simpa using hboth

section
variable [TypeSyntax τ]

def ItemTrait.expansion (input : ItemTrait τ) (format : SerializationFormat) : Expansion τ :=
  ⟨input.attrs, input.vis, input.ident,
    ((input.methods.map TraitItemFn.info).filter (!·.isView)).map (generateFunctionCallMethod · format),
    identFragment input.ident ++ "Client", (input.methods.map TraitItemFn.info).map (generateClientMethod · format)⟩

theorem vetted_contract (attr : List Token) (input : ItemTrait τ) :
    Vetted (complaints attr input)
      (fun expansion => ∃ format, FormatDeclared attr format ∧ expansion = input.expansion format)
      (contract attr input) := by
  apply (vetted_contractArgs attr).bind
  intro args hargs
  rw [← List.append_nil input.complaints]
  apply (vetted_parseMethods input).bind
  intro infos hinfos
  refine .ok ⟨args.format, hargs, ?_⟩
  rw [infos_eq hinfos]
  rfl

/-- What the macro accepts is an interface, and what it generates belongs to its methods. -/
theorem eq_expansion {attr : List Token} {input : ItemTrait τ} {expansion : Expansion τ}
    (h : contract attr input = .ok expansion) :
    input.IsInterface ∧ ∃ format, FormatDeclared attr format ∧ expansion = input.expansion format := by
  have hvetted := vetted_contract attr input
  have hnil := hvetted.exists_ok_iff.mp ⟨_, h⟩
  rw [complaints, List.append_eq_nil_iff, ItemTrait.complaints_eq_nil] at hnil
  exact ⟨hnil.2, hvetted.post_of_eq_ok h⟩

/-- The constructors of an interface, method by method. -/
theorem ItemTrait.IsInterface.functionCallMethods_eq {input : ItemTrait τ} (h : input.IsInterface)
    (format : SerializationFormat) : (input.expansion format).functionCallMethods =
      (input.methods.filter TraitItemFn.isMut).map (generateFunctionCallMethod ·.info format) := by
  have hfilter : input.methods.filter ((!·.isView) ∘ TraitItemFn.info) =
      input.methods.filter TraitItemFn.isMut :=
    List.filter_congr fun method hmethod => (h.isContractMethod hmethod).not_isView
  rw [ItemTrait.expansion, List.filter_map, List.map_map, hfilter]
  rfl

theorem wellTyped_of_mem_clientMethods {input : ItemTrait τ} {format : SerializationFormat}
    {f : GeneratedFn τ} (hf : f ∈ (input.expansion format).clientMethods) :
    f.WellTyped ∧ f.selfRef = true := by
  obtain ⟨info, -, rfl⟩ := List.mem_map.mp hf
  exact ⟨generateClientMethod_wellTyped info format, (generateClientMethod_signature info format).2.1⟩

theorem wellTyped_of_mem_functionCallMethods {input : ItemTrait τ} {format : SerializationFormat}
    {f : GeneratedFn τ} (hf : f ∈ (input.expansion format).functionCallMethods) :
    f.WellTyped ∧ f.selfRef = false := by
  obtain ⟨info, -, rfl⟩ := List.mem_map.mp hf
  exact ⟨generateFunctionCallMethod_wellTyped info format, rfl⟩

/-- Exactly the interfaces are accepted, and what is wrong first is reported. From an interface
come a function of the client for each method and a constructor for each call, and all of them
have the types that they declare. -/
theorem contract_accepts_interfaces (attr : List Token) (input : ItemTrait τ) :
    (∀ e, contract attr input = .error e ↔ (complaints attr input).head? = some e) ∧
    ((∃ expansion, contract attr input = .ok expansion) ↔
      (∃ format, FormatDeclared attr format) ∧ input.IsInterface) ∧
    ∀ expansion, contract attr input = .ok expansion →
      expansion.clientMethods.map GeneratedFn.name = input.methods.map TraitItemFn.ident ∧
      expansion.functionCallMethods.map GeneratedFn.name =
        (input.methods.filter TraitItemFn.isMut).map TraitItemFn.ident ∧
      (∀ f ∈ expansion.clientMethods, f.WellTyped) ∧
      ∀ f ∈ expansion.functionCallMethods, f.WellTyped := by
  have hvetted := vetted_contract attr input
  refine ⟨fun e => hvetted.error_iff, ?_, ?_⟩
  · rw [hvetted.exists_ok_iff, complaints, List.append_eq_nil_iff, formatComplaints_eq_nil,
      ItemTrait.complaints_eq_nil]
  · intro expansion h
    obtain ⟨hinterface, format, -, rfl⟩ := eq_expansion h
    refine ⟨?_, ?_, fun f hf => (wellTyped_of_mem_clientMethods hf).1,
      fun f hf => (wellTyped_of_mem_functionCallMethods hf).1⟩
    · simp only [ItemTrait.expansion, List.map_map]
      apply List.map_congr_left
      intro method _
      exact (generateClientMethod_signature method.info format).1
    · rw [hinterface.functionCallMethods_eq, List.map_map]
      rfl

end
end NearKit.Macros
