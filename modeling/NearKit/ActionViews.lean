import NearKit.Base64Text
import NearKit.NestedActions
import NearKit.WireFormats

/-!
# Action views

The actions as a node reports them, and their conversion into actions. A delegate view
holds views of any kind; the conversion of what is inside it refuses delegate actions.
-/
namespace NearKit
open Borsh

/-! ## Views -/

inductive AccessKeyPermissionView where
  | fullAccess
  | functionCall (allowance : Option NearToken) (receiverId : AccountId) (methodNames : List String)
  | gasKeyFunctionCall (balance : NearToken) (numNonces : UInt16) (allowance : Option NearToken)
      (receiverId : AccountId) (methodNames : List String)
  | gasKeyFullAccess (balance : NearToken) (numNonces : UInt16)
  deriving DecidableEq

structure AccessKeyDetails where
  nonce : UInt64
  permission : AccessKeyPermissionView
  deriving DecidableEq

inductive TransactionNonceView where
  | nonce (nonce : Nonce)
  | gasKeyNonce (nonce : Nonce) (nonceIndex : NonceIndex)
  deriving DecidableEq

mutual

inductive ActionView where
  | createAccount
  | deployContract (code : String)
  | functionCall (methodName : String) (args : String) (gas : Gas) (deposit : NearToken)
  | transfer (deposit : NearToken)
  | stake (stake : NearToken) (publicKey : PublicKey)
  | addKey (publicKey : PublicKey) (accessKey : AccessKeyDetails)
  | deleteKey (publicKey : PublicKey)
  | deleteAccount (beneficiaryId : AccountId)
  | delegate (delegateAction : DelegateActionView) (signature : Signature)
  | delegateV2 (delegateAction : VersionedDelegateActionPayloadView) (signature : Signature)
  | deployGlobalContract (code : String)
  | deployGlobalContractByAccountId (code : String)
  | useGlobalContract (codeHash : CryptoHash)
  | useGlobalContractByAccountId (accountId : AccountId)
  | deterministicStateInit (code : GlobalContractIdentifierView) (data : SortedMap String String)
      (deposit : NearToken)
  | transferToGasKey (publicKey : PublicKey) (deposit : NearToken)
  | withdrawFromGasKey (publicKey : PublicKey) (amount : NearToken)

structure DelegateActionView where
  senderId : AccountId
  receiverId : AccountId
  actions : List ActionView
  nonce : UInt64
  maxBlockHeight : UInt64
  publicKey : PublicKey

structure DelegateActionV2View where
  senderId : AccountId
  receiverId : AccountId
  actions : List ActionView
  nonce : TransactionNonceView
  maxBlockHeight : UInt64
  publicKey : PublicKey

inductive VersionedDelegateActionPayloadView where
  | v2 (action : DelegateActionV2View)

end

/-- The source of a base64 error is left out. -/
inductive ActionViewConversionError where
  | invalidBase64 (field : String)
  | invalidCodeHash (actual : ℕ)
  | nestedDelegate
  deriving DecidableEq

/-! ## Conversions of the parts -/

def AccessKeyPermissionView.toPermission : AccessKeyPermissionView → AccessKeyPermission
  | fullAccess => .fullAccess
  | functionCall allowance receiverId methodNames => .functionCall ⟨allowance, receiverId, methodNames⟩
  | gasKeyFunctionCall balance numNonces allowance receiverId methodNames =>
    .gasKeyFunctionCall ⟨balance, numNonces⟩ ⟨allowance, receiverId, methodNames⟩
  | gasKeyFullAccess balance numNonces => .gasKeyFullAccess ⟨balance, numNonces⟩

def AccessKeyDetails.toAccessKey (view : AccessKeyDetails) : AccessKey :=
  ⟨view.nonce, view.permission.toPermission⟩

def GlobalContractIdentifierView.toContractId : GlobalContractIdentifierView → GlobalContractId
  | codeHash hash => .codeHash hash
  | accountId id => .accountId id

def TransactionNonceView.toNonce : TransactionNonceView → TransactionNonce
  | nonce value => .nonce value
  | gasKeyNonce value index => .gasKeyNonce value index

def decodeViewBase64 (field : String) (s : String) : Except ActionViewConversionError Bytes :=
  match Base64.decode s with
  | some bytes => .ok bytes
  | none => .error (.invalidBase64 field)

def decodeCodeHash (code : String) : Except ActionViewConversionError CryptoHash := do
  let bytes ← decodeViewBase64 "code" code
  if h : bytes.length = 32 then return ⟨bytes, h⟩ else .error (.invalidCodeHash bytes.length)

instance Bytes.lawfulOrderLT : Std.LawfulOrderLT Bytes := inferInstance

/-- The entries of a state init, in the order of the map. -/
def decodeStateData (data : SortedMap String String) :
    Except ActionViewConversionError (SortedMap Bytes Bytes) := do
  let entries ← data.entries.mapM fun (k, v) => do
    let k ← decodeViewBase64 "data" k
    let v ← decodeViewBase64 "data" v
    return (k, v)
  return .ofList entries

/-! ## The conversion of actions -/

mutual

def ActionView.toAction : ActionView → Except ActionViewConversionError Raw.Action
  | .createAccount => return .mk (.createAccount {})
  | .deployContract code => do
    let hash ← decodeCodeHash code
    return .mk (.deployContract ⟨hash.val⟩)
  | .functionCall methodName args gas deposit => do
    let args ← decodeViewBase64 "args" args
    return .mk (.functionCall ⟨methodName, args, gas, deposit⟩)
  | .transfer deposit => return .mk (.transfer ⟨deposit⟩)
  | .stake stake publicKey => return .mk (.stake ⟨stake, publicKey⟩)
  | .addKey publicKey accessKey => return .mk (.addKey ⟨publicKey, accessKey.toAccessKey⟩)
  | .deleteKey publicKey => return .mk (.deleteKey ⟨publicKey⟩)
  | .deleteAccount beneficiaryId => return .mk (.deleteAccount ⟨beneficiaryId⟩)
  | .delegate delegateAction signature => do
    let delegateAction ← delegateAction.toDelegateAction
    return .delegate ⟨delegateAction, signature⟩
  | .delegateV2 delegateAction signature => do
    let delegateAction ← delegateAction.toPayload
    return .delegateV2 ⟨delegateAction, signature⟩
  | .deployGlobalContract code => do
    let hash ← decodeCodeHash code
    return .mk (.deployGlobalContract ⟨hash.val, .codeHash⟩)
  | .deployGlobalContractByAccountId code => do
    let hash ← decodeCodeHash code
    return .mk (.deployGlobalContract ⟨hash.val, .accountId⟩)
  | .useGlobalContract codeHash => return .mk (.useGlobalContract ⟨.codeHash codeHash⟩)
  | .useGlobalContractByAccountId accountId => return .mk (.useGlobalContract ⟨.accountId accountId⟩)
  | .deterministicStateInit code data deposit => do
    let data ← decodeStateData data
    return .mk (.deterministicStateInit ⟨.v1 ⟨code.toContractId, data⟩, deposit⟩)
  | .transferToGasKey publicKey deposit => return .mk (.transferToGasKey ⟨publicKey, deposit⟩)
  | .withdrawFromGasKey publicKey amount => return .mk (.withdrawFromGasKey ⟨publicKey, amount⟩)

def DelegateActionView.toDelegateAction :
    DelegateActionView → Except ActionViewConversionError Raw.DelegateAction
  | ⟨senderId, receiverId, actions, nonce, maxBlockHeight, publicKey⟩ => do
    let actions ← nonDelegateActions actions
    return ⟨senderId, receiverId, actions, nonce, maxBlockHeight, publicKey⟩

def DelegateActionV2View.toDelegateActionV2 :
    DelegateActionV2View → Except ActionViewConversionError Raw.DelegateActionV2
  | ⟨senderId, receiverId, actions, nonce, maxBlockHeight, publicKey⟩ => do
    let actions ← nonDelegateActions actions
    return ⟨senderId, receiverId, actions, nonce.toNonce, maxBlockHeight, publicKey⟩

def VersionedDelegateActionPayloadView.toPayload :
    VersionedDelegateActionPayloadView →
      Except ActionViewConversionError Raw.VersionedDelegateActionPayload
  | .v2 action => do
    let action ← action.toDelegateActionV2
    return .v2 action

/-- `non_delegate_actions`, with the conversion of each view written out. -/
def nonDelegateActions : List ActionView → Except ActionViewConversionError (List Raw.Action)
  | [] => return []
  | view :: views => do
    let action ← view.toAction
    match action.fromAction with
    | none => .error .nestedDelegate
    | some action =>
      let actions ← nonDelegateActions views
      return action :: actions

end

def ActionView.toNonDelegate (view : ActionView) : Except ActionViewConversionError Raw.Action := do
  let action ← view.toAction
  match action.fromAction with
  | some action => .ok action
  | none => .error .nestedDelegate

theorem nonDelegateActions_eq (views : List ActionView) :
    nonDelegateActions views = views.mapM ActionView.toNonDelegate := by
  induction views with
  | nil => simp [nonDelegateActions]
  | cons view views ih =>
    rw [nonDelegateActions, List.mapM_cons, ← ih, ActionView.toNonDelegate, bind_assoc]
    apply bind_congr
    intro action
    cases action.fromAction with
    | none => rfl
    | some action => rfl

/-! ## What a conversion returns -/

theorem isDelegate_of_nonDelegateActions {views : List ActionView} {actions : List Raw.Action}
    (h : nonDelegateActions views = .ok actions) : ∀ a ∈ actions, a.isDelegate = false := by
  induction views generalizing actions with
  | nil =>
    rw [nonDelegateActions] at h
    cases h
    exact nofun
  | cons view views ih =>
    rw [nonDelegateActions] at h
    obtain ⟨action, -, h⟩ := bind_eq_ok.mp h
    cases hx : action.fromAction with
    | none =>
      rw [hx] at h
      cases h
    | some x =>
      rw [hx] at h
      obtain ⟨rest, hrest, h⟩ := bind_eq_ok.mp h
      cases h
      obtain ⟨rfl, hd⟩ := Raw.Action.fromAction_eq_some.mp hx
      exact List.forall_mem_cons.mpr ⟨hd, ih hrest⟩

theorem DelegateActionView.isDelegate_of_toDelegateAction {view : DelegateActionView}
    {d : Raw.DelegateAction} (h : view.toDelegateAction = .ok d) :
    ∀ a ∈ d.actions, a.isDelegate = false := by
  obtain ⟨senderId, receiverId, views, nonce, maxBlockHeight, publicKey⟩ := view
  rw [DelegateActionView.toDelegateAction] at h
  obtain ⟨actions, hactions, h⟩ := bind_eq_ok.mp h
  cases h
  exact isDelegate_of_nonDelegateActions hactions

theorem DelegateActionV2View.isDelegate_of_toDelegateActionV2 {view : DelegateActionV2View}
    {d : Raw.DelegateActionV2} (h : view.toDelegateActionV2 = .ok d) :
    ∀ a ∈ d.actions, a.isDelegate = false := by
  obtain ⟨senderId, receiverId, views, nonce, maxBlockHeight, publicKey⟩ := view
  rw [DelegateActionV2View.toDelegateActionV2] at h
  obtain ⟨actions, hactions, h⟩ := bind_eq_ok.mp h
  cases h
  exact isDelegate_of_nonDelegateActions hactions

/-- A converted action has no delegate action directly inside. -/
theorem ActionView.children_of_toAction {view : ActionView} {a : Raw.Action}
    (h : view.toAction = .ok a) : ∀ c ∈ a.children, c.isDelegate = false := by
  cases view with
  | delegate delegateAction signature =>
    rw [ActionView.toAction] at h
    obtain ⟨d, hd, h⟩ := bind_eq_ok.mp h
    cases h
    exact delegateAction.isDelegate_of_toDelegateAction hd
  | delegateV2 delegateAction signature =>
    rw [ActionView.toAction] at h
    obtain ⟨payload, hpayload, h⟩ := bind_eq_ok.mp h
    cases h
    obtain ⟨action⟩ := delegateAction
    rw [VersionedDelegateActionPayloadView.toPayload] at hpayload
    obtain ⟨d, hd, h⟩ := bind_eq_ok.mp hpayload
    cases h
    exact action.isDelegate_of_toDelegateActionV2 hd
  | deployContract | functionCall | deployGlobalContract | deployGlobalContractByAccountId
  | deterministicStateInit =>
    rw [ActionView.toAction] at h
    obtain ⟨x, -, h⟩ := bind_eq_ok.mp h
    cases h
    exact nofun
  | _ =>
    rw [ActionView.toAction] at h
    cases h
    exact nofun

theorem ActionView.isDelegate_of_toNonDelegate {view : ActionView} {a : Raw.Action}
    (h : view.toNonDelegate = .ok a) : a.isDelegate = false := by
  obtain ⟨action, -, h⟩ := bind_eq_ok.mp h
  cases hx : action.fromAction with
  | none =>
    rw [hx] at h
    cases h
  | some x =>
    rw [hx] at h
    cases h
    obtain ⟨rfl, hd⟩ := Raw.Action.fromAction_eq_some.mp hx
    exact hd

end NearKit
