import NearKit.SharedNonces
import NearKit.TransactionBuilders

/-!
# What a chain of builder methods requests

The actions that a chain of method calls asks for are read off the chain itself. The
transaction builder holds them in order, except for a pending function call, which the
call builder holds and every way out of it adds.
-/
namespace NearKit
open Borsh

/-! ## Requests -/

/-- An action that a chain asks for, a function call with its settings in order. -/
inductive Requested where
  | action (action : Action)
  | call (method : String) (settings : List Setting)

/-- The action that a method asks for. -/
def ActionMethod.action : ActionMethod → Action
  | createAccount => .createAccount {}
  | transfer amount => .transfer ⟨amount⟩
  | deploy code => .deployContract ⟨code⟩
  | addFullAccessKey publicKey => .addKey ⟨publicKey, 0, .fullAccess⟩
  | addFunctionCallKey publicKey receiverId methodNames allowance =>
    .addKey ⟨publicKey, 0, .functionCall ⟨allowance, receiverId, methodNames⟩⟩
  | deleteKey publicKey => .deleteKey ⟨publicKey⟩
  | deleteAccount beneficiaryId => .deleteAccount ⟨beneficiaryId⟩
  | stake amount publicKey => .stake ⟨amount, publicKey⟩
  | publish code mode => .deployGlobalContract ⟨code, mode.deployMode⟩
  | deployFrom identifier => .useGlobalContract ⟨identifier⟩
  | stateInit init deposit => .deterministicStateInit ⟨init, deposit⟩
  | addAction action => action

namespace Setting

def args? : Setting → Option Bytes
  | args serialized => some (serialized.getD [])
  | argsRaw bytes => some bytes
  | argsBorsh serialized => some (serialized.getD [])
  | _ => none

def gas? : Setting → Option Gas
  | gas value => some value
  | _ => none

def deposit? : Setting → Option NearToken
  | deposit amount => some amount
  | _ => none

def last {α : Type} (value? : Setting → Option α) (settings : List Setting) (default : α) : α :=
  (settings.filterMap value?).getLast?.getD default

private theorem last_concat {α : Type} (value? : Setting → Option α) (settings : List Setting)
    (x : Setting) (default : α) : last value? (settings ++ [x]) default =
      (value? x).getD (last value? settings default) := by
  unfold last
  rw [List.filterMap_append]
  cases hx : value? x <;> simp [hx]

end Setting

/-- A function call with the last args, gas and deposit set on it. -/
def FunctionCall.configured (method : String) (settings : List Setting) : FunctionCall where
  method := method
  args := Setting.last Setting.args? settings []
  gas := Setting.last Setting.gas? settings FunctionCall.defaultGas
  deposit := Setting.last Setting.deposit? settings 0

namespace Requested

def toAction : Requested → Action
  | action a => a
  | call method settings => (FunctionCall.configured method settings).toAction

/-- A setting goes to the latest function call. -/
def configure (x : Setting) : List Requested → List Requested
  | [] => []
  | [call method settings] => [call method (settings ++ [x])]
  | r :: rs => r :: configure x rs

private theorem configure_concat (x : Setting) (rs : List Requested) (method : String)
    (settings : List Setting) : configure x (rs ++ [call method settings]) =
      rs ++ [call method (settings ++ [x])] := by
  induction rs with
  | nil => rfl
  | cons r rs ih =>
    have hcons : configure x (r :: (rs ++ [call method settings])) =
        r :: configure x (rs ++ [call method settings]) := by
      cases rs <;> cases r <;> rfl
    rw [List.cons_append, hcons, ih]
    rfl

end Requested

/-- What has been requested after a method call. -/
def MethodCall.request {s t : Stage} (rs : List Requested) : MethodCall s t → List Requested
  | action method => rs ++ [.action method.action]
  | signedDelegateAction signedDelegate => rs ++ [.action (.delegate signedDelegate)]
  | call method => rs ++ [.call method []]
  | setting x => Requested.configure x rs
  | finish => rs
  | signWith _ => rs
  | maxNonceRetries _ => rs

def Chain.requested : {s : Stage} → Chain s → List Requested
  | _, .start => []
  | _, .step chain method => method.request chain.requested

def Chain.actions {s : Stage} (chain : Chain s) : List Action :=
  chain.requested.map Requested.toAction

/-! ## The builders hold the requests -/

/-- The requests are in the transaction builder, but for the pending call. -/
def BuilderAt.Holds (rs : List Requested) : {s : Stage} → BuilderAt s → Prop
  | .transaction, b => b.actions = rs.map Requested.toAction
  | .call, c => ∃ earlier settings, rs = earlier ++ [.call c.call.method settings] ∧
      c.builder.actions = earlier.map Requested.toAction ∧
      c.call = .configured c.call.method settings

section
variable {rs : List Requested}

private theorem TransactionBuilder.actions_addAction (b : TransactionBuilder) (a : Action) :
    (b.addAction a).actions = b.actions ++ [a] :=
  rfl

theorem BuilderAt.Holds.finish {s : Stage} {b : BuilderAt s} (h : BuilderAt.Holds rs b) :
    b.finish.actions = rs.map Requested.toAction := by
  cases s with
  | transaction => exact h
  | call =>
    obtain ⟨earlier, settings, rfl, hactions, hcall⟩ := h
    show (TransactionBuilder.addAction b.builder b.call.toAction).actions = _
    rw [TransactionBuilder.actions_addAction, hactions, List.map_append, hcall]
    rfl

private theorem FunctionCall.configured_setting (c : CallBuilder) (settings : List Setting)
    (x : Setting) (h : c.call = .configured c.call.method settings) :
    (x.apply c).call = .configured c.call.method (settings ++ [x]) := by
  have hargs := Setting.last_concat Setting.args? settings x []
  have hgas := Setting.last_concat Setting.gas? settings x FunctionCall.defaultGas
  have hdeposit := Setting.last_concat Setting.deposit? settings x 0
  unfold FunctionCall.configured at h ⊢
  rw [hargs, hgas, hdeposit]
  cases x with
  | args serialized =>
    show { c.call with args := serialized.getD [] } = _
    rw [h]
    rfl
  | argsRaw bytes =>
    show { c.call with args := bytes } = _
    rw [h]
    rfl
  | argsBorsh serialized =>
    show { c.call with args := serialized.getD [] } = _
    rw [h]
    rfl
  | gas value =>
    show { c.call with gas := value } = _
    rw [h]
    rfl
  | deposit amount =>
    show { c.call with deposit := amount } = _
    rw [h]
    rfl

variable [GlobalContracts]

private theorem ActionMethod.actions_onTransaction (b : TransactionBuilder) (m : ActionMethod) :
    (m.onTransaction b).actions = b.actions ++ [m.action] := by
  cases m <;> rfl

/-- One method call keeps the requests, whichever builder it is called on. -/
theorem MethodCall.holds_apply {s t : Stage} {b : BuilderAt s} (h : BuilderAt.Holds rs b)
    (m : MethodCall s t) : BuilderAt.Holds (m.request rs) (m.apply b) := by
  have hfinish := h.finish
  cases m with
  | action method =>
    have happly : (MethodCall.action (s := s) method).apply b = method.onTransaction b.finish := by
      cases s with
      | transaction => rfl
      | call => exact ActionMethod.onCall_eq b method
    show TransactionBuilder.actions ((MethodCall.action (s := s) method).apply b) = _
    rw [happly, ActionMethod.actions_onTransaction, hfinish]
    simp [request, Requested.toAction]
  | signedDelegateAction signedDelegate =>
    show TransactionBuilder.actions b ++ [.delegate signedDelegate] = _
    rw [show TransactionBuilder.actions b = _ from hfinish]
    simp [request, Requested.toAction]
  | call method =>
    refine ⟨rs, [], ?_, ?_, ?_⟩
    · cases s <;> rfl
    · cases s with
      | transaction => exact hfinish
      | call => exact hfinish
    · cases s <;> rfl
  | setting x =>
    obtain ⟨earlier, settings, rfl, hactions, hcall⟩ := h
    have hmethod : (x.apply b).call.method = b.call.method := by cases x <;> rfl
    have hbuilder : (x.apply b).builder = b.builder := by cases x <;> rfl
    refine ⟨earlier, settings ++ [x], ?_, ?_, ?_⟩
    · show Requested.configure x (earlier ++ [.call b.call.method settings]) =
        earlier ++ [.call (x.apply b).call.method (settings ++ [x])]
      rw [Requested.configure_concat, hmethod]
    · show (x.apply b).builder.actions = _
      rw [hbuilder, hactions]
    · show (x.apply b).call = .configured (x.apply b).call.method (settings ++ [x])
      rw [hmethod]
      exact FunctionCall.configured_setting b settings x hcall
  | finish => exact hfinish
  | signWith signer =>
    cases s with
    | transaction => exact hfinish
    | call => exact hfinish
  | maxNonceRetries retries =>
    cases s with
    | transaction => exact hfinish
    | call => exact hfinish

private theorem Chain.holds_run {new : TransactionBuilder} (hnew : new.actions = []) {s : Stage}
    (chain : Chain s) : BuilderAt.Holds chain.requested (chain.run new) := by
  induction chain with
  | start => exact hnew
  | step chain method ih => exact method.holds_apply ih

/-- Whatever the last method was, the finished builder holds the requested actions. -/
theorem Chain.actions_run {new : TransactionBuilder} (hnew : new.actions = []) {s : Stage}
    (chain : Chain s) : (chain.run new).finish.actions = chain.actions :=
  (chain.holds_run hnew).finish

end
end NearKit
