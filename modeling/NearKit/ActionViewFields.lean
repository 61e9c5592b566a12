import NearKit.ActionViews
import Mathlib.Data.List.Nodup

/-!
# Fields of action views

Which views are converted and what becomes of their fields. A view is converted when its
own texts decode and every view directly inside it is converted and is no delegate view,
and this carries over to every depth. No two entries of a state init decode to one key,
since a text is the only base64 of its bytes.
-/
namespace NearKit
open Borsh

namespace ActionView

/-! ## Views inside a view -/

def isDelegate : ActionView → Bool
  | .delegate _ _ => true
  | .delegateV2 _ _ => true
  | _ => false

/-- The views directly inside a delegate view. -/
def children : ActionView → List ActionView
  | .delegate d _ => d.actions
  | .delegateV2 (.v2 d) _ => d.actions
  | _ => []

/-- The first view is the second or is inside it, at some depth. -/
inductive Within : ActionView → ActionView → Prop where
  | self (view) : Within view view
  | child {inner view child} (mem : child ∈ view.children) (within : Within inner child) :
      Within inner view

private theorem sizeOf_child {child view : ActionView} (h : child ∈ view.children) :
    sizeOf child < sizeOf view := by
  cases view with
  | delegate d signature =>
    obtain ⟨senderId, receiverId, actions, nonce, maxBlockHeight, publicKey⟩ := d
    have hmem := List.sizeOf_lt_of_mem (show child ∈ actions from h)
    simp only [delegate.sizeOf_spec, DelegateActionView.mk.sizeOf_spec]
    omega
  | delegateV2 d signature =>
    obtain ⟨⟨senderId, receiverId, actions, nonce, maxBlockHeight, publicKey⟩⟩ := d
    have hmem := List.sizeOf_lt_of_mem (show child ∈ actions from h)
    simp only [delegateV2.sizeOf_spec, VersionedDelegateActionPayloadView.v2.sizeOf_spec,
      DelegateActionV2View.mk.sizeOf_spec]
    omega
  | _ => cases h

/-- What passes from the children of a view to the view holds of every view. -/
theorem children_induction {P : ActionView → Prop}
    (step : ∀ view : ActionView, (∀ child ∈ view.children, P child) → P view)
    (view : ActionView) : P view :=
  step view fun child _ => children_induction step child
termination_by sizeOf view
decreasing_by exact sizeOf_child ‹_›

/-! ## Texts of a view -/

/-- The base64 texts of the view itself. -/
def base64Fields : ActionView → List String
  | .deployContract code => [code]
  | .functionCall _ args _ _ => [args]
  | .deployGlobalContract code => [code]
  | .deployGlobalContractByAccountId code => [code]
  | .deterministicStateInit _ data _ => data.entries.flatMap fun (k, v) => [k, v]
  | _ => []

/-- The texts of the view itself that are code hashes. -/
def codeFields : ActionView → List String
  | .deployContract code => [code]
  | .deployGlobalContract code => [code]
  | .deployGlobalContractByAccountId code => [code]
  | _ => []

/-- Every text of the view itself decodes, the code hashes to 32 bytes. -/
structure TextsDecode (view : ActionView) : Prop where
  base64 : ∀ text ∈ view.base64Fields, ∃ bytes, Base64.decode text = some bytes
  code : ∀ text ∈ view.codeFields, ∀ bytes, Base64.decode text = some bytes → bytes.length = 32

/-- The texts decode at every depth and no delegate view is inside another. -/
structure Convertible (view : ActionView) : Prop where
  texts : ∀ inner, Within inner view → inner.TextsDecode
  notNested : ∀ inner child, Within inner view → child ∈ inner.children → child.isDelegate = false

private theorem convertible_iff (view : ActionView) :
    view.Convertible ↔ view.TextsDecode ∧
      ∀ child ∈ view.children, child.isDelegate = false ∧ child.Convertible := by
  constructor
  · intro h
    refine ⟨h.texts view (.self view), fun child hchild => ⟨?_, ?_, ?_⟩⟩
    · exact h.notNested view child (.self view) hchild
    · exact fun inner hinner => h.texts inner (.child hchild hinner)
    · exact fun inner c hinner hc => h.notNested inner c (.child hchild hinner) hc
  · rintro ⟨htexts, hchildren⟩
    constructor
    · intro inner hinner
      cases hinner with
      | self => exact htexts
      | child hmem hinner => exact (hchildren _ hmem).2.texts inner hinner
    · intro inner c hinner hc
      cases hinner with
      | self => exact (hchildren c hc).1
      | child hmem hinner => exact (hchildren _ hmem).2.notNested inner c hinner hc

end ActionView

/-! ## Decoding one text -/

theorem decodeViewBase64_eq_ok {field s : String} {bytes : Bytes} :
    decodeViewBase64 field s = .ok bytes ↔ Base64.decode s = some bytes := by
  unfold decodeViewBase64
  cases Base64.decode s with
  | none => exact iff_of_false nofun nofun
  | some bytes' => exact ⟨fun h => congrArg some (Except.ok.inj h), fun h => congrArg _ (Option.some.inj h)⟩

theorem decodeCodeHash_eq_ok {code : String} {hash : CryptoHash} :
    decodeCodeHash code = .ok hash ↔ Base64.decode code = some hash.val := by
  unfold decodeCodeHash
  constructor
  · intro h
    obtain ⟨bytes, hbytes, h⟩ := bind_eq_ok.mp h
    split at h
    · cases h
      exact decodeViewBase64_eq_ok.mp hbytes
    · cases h
  · intro h
    exact bind_eq_ok.mpr ⟨hash.val, decodeViewBase64_eq_ok.mpr h, dif_pos hash.2⟩

private theorem exists_decodeCodeHash {code : String} : (∃ hash, decodeCodeHash code = .ok hash) ↔
    (∃ bytes, Base64.decode code = some bytes) ∧
      ∀ bytes, Base64.decode code = some bytes → bytes.length = 32 := by
  constructor
  · rintro ⟨hash, h⟩
    have hdecode := decodeCodeHash_eq_ok.mp h
    refine ⟨⟨hash.val, hdecode⟩, fun bytes hbytes => ?_⟩
    rw [hdecode] at hbytes
    cases hbytes
    exact hash.2
  · rintro ⟨⟨bytes, hbytes⟩, hlen⟩
    exact ⟨⟨bytes, hlen bytes hbytes⟩, decodeCodeHash_eq_ok.mpr hbytes⟩

/-! ## Decoding a state init -/

/-- The entry of bytes is the decoded entry of texts. -/
def EntryDecodes (texts : String × String) (bytes : Bytes × Bytes) : Prop :=
  Base64.decode texts.1 = some bytes.1 ∧ Base64.decode texts.2 = some bytes.2

/-- The map of bytes holds the decoded entries of the map of texts, and nothing else. -/
def StateDecodes (data : SortedMap String String) (decoded : SortedMap Bytes Bytes) : Prop :=
  ∃ entries, List.Forall₂ EntryDecodes data.entries entries ∧ decoded.entries.Perm entries

private theorem StateDecodes.length_eq {data : SortedMap String String}
    {decoded : SortedMap Bytes Bytes} (h : StateDecodes data decoded) :
    decoded.entries.length = data.entries.length := by
  obtain ⟨entries, hentries, hperm⟩ := h
  rw [hperm.length_eq, hentries.length_eq]

/-- One entry of a state init. -/
def decodeEntry (texts : String × String) : Except ActionViewConversionError (Bytes × Bytes) := do
  let k ← decodeViewBase64 "data" texts.1
  let v ← decodeViewBase64 "data" texts.2
  return (k, v)

theorem decodeEntry_eq_ok {texts : String × String} {bytes : Bytes × Bytes} :
    decodeEntry texts = .ok bytes ↔ EntryDecodes texts bytes := by
  constructor
  · intro h
    obtain ⟨k, hk, h⟩ := bind_eq_ok.mp h
    obtain ⟨v, hv, h⟩ := bind_eq_ok.mp h
    cases h
    exact ⟨decodeViewBase64_eq_ok.mp hk, decodeViewBase64_eq_ok.mp hv⟩
  · rintro ⟨hk, hv⟩
    exact bind_eq_ok.mpr ⟨bytes.1, decodeViewBase64_eq_ok.mpr hk,
      bind_eq_ok.mpr ⟨bytes.2, decodeViewBase64_eq_ok.mpr hv, rfl⟩⟩

theorem decodeStateData_eq (data : SortedMap String String) :
    decodeStateData data = (data.entries.mapM decodeEntry).map SortedMap.ofList := by
  have hbind : decodeStateData data = data.entries.mapM decodeEntry >>= fun es => pure (.ofList es) :=
    rfl
  rw [hbind]
  cases data.entries.mapM decodeEntry <;> rfl

theorem nodup_of_forall₂ {texts : List (String × String)} {entries : List (Bytes × Bytes)}
    (h : List.Forall₂ EntryDecodes texts entries) (hnodup : (texts.map Prod.fst).Nodup) :
    (entries.map Prod.fst).Nodup := by
  have hencode : (entries.map Prod.fst).map Base64.encode = texts.map Prod.fst := by
    clear hnodup
    induction h with
    | nil => rfl
    | cons hentry hrest ih =>
      simp only [List.map_cons, ih]
      rw [Base64.decode_eq_some.mp hentry.1]
  rw [← hencode] at hnodup
  exact List.Nodup.of_map Base64.encode hnodup

private theorem SortedMap.nodup_keys (data : SortedMap String String) :
    (data.entries.map Prod.fst).Nodup := by
  rw [List.Nodup, List.pairwise_map]
  exact data.sorted.imp fun h => Std.ne_of_lt h

/-- No entry of a state init is lost. -/
theorem stateDecodes_of_eq_ok {data : SortedMap String String} {decoded : SortedMap Bytes Bytes}
    (h : decodeStateData data = .ok decoded) : StateDecodes data decoded := by
  rw [decodeStateData_eq] at h
  cases hentries : data.entries.mapM decodeEntry with
  | error e =>
    rw [hentries] at h
    cases h
  | ok entries =>
    rw [hentries] at h
    cases h
    have hdecodes : List.Forall₂ EntryDecodes data.entries entries :=
      (mapM_eq_ok.mp hentries).imp fun _ _ => decodeEntry_eq_ok.mp
    exact ⟨entries, hdecodes, SortedMap.perm_ofList (nodup_of_forall₂ hdecodes data.nodup_keys)⟩

private theorem exists_decodeStateData {data : SortedMap String String} :
    (∃ decoded, decodeStateData data = .ok decoded) ↔
      ∀ text ∈ data.entries.flatMap fun (k, v) => [k, v],
        ∃ bytes, Base64.decode text = some bytes := by
  have hmap : (∃ decoded, decodeStateData data = .ok decoded) ↔
      ∃ entries, data.entries.mapM decodeEntry = .ok entries := by
    rw [decodeStateData_eq]
    cases data.entries.mapM decodeEntry with
    | error e => exact iff_of_false nofun nofun
    | ok entries => exact iff_of_true ⟨_, rfl⟩ ⟨entries, rfl⟩
  have hentry (texts : String × String) : (∃ bytes, decodeEntry texts = .ok bytes) ↔
      (∃ k, Base64.decode texts.1 = some k) ∧ ∃ v, Base64.decode texts.2 = some v := by
    simp only [decodeEntry_eq_ok]
    exact ⟨fun ⟨bytes, hk, hv⟩ => ⟨⟨_, hk⟩, ⟨_, hv⟩⟩, fun ⟨⟨k, hk⟩, ⟨v, hv⟩⟩ => ⟨(k, v), hk, hv⟩⟩
  rw [hmap, exists_mapM_eq_ok]
  simp only [hentry, List.mem_flatMap, List.mem_cons, List.not_mem_nil, or_false]
  constructor
  · rintro h text ⟨texts, hmem, rfl | rfl⟩
    · exact (h texts hmem).1
    · exact (h texts hmem).2
  · intro h texts hmem
    exact ⟨h _ ⟨texts, hmem, .inl rfl⟩, h _ ⟨texts, hmem, .inr rfl⟩⟩

/-! ## When a view is converted -/

namespace ActionView

private theorem isDelegate_of_toAction {view : ActionView} {a : Raw.Action}
    (h : view.toAction = .ok a) : a.isDelegate = view.isDelegate := by
  cases view with
  | delegate | delegateV2 | deployContract | functionCall | deployGlobalContract
  | deployGlobalContractByAccountId | deterministicStateInit =>
    rw [toAction] at h
    obtain ⟨x, -, h⟩ := bind_eq_ok.mp h
    cases h
    rfl
  | _ =>
    rw [toAction] at h
    cases h
    rfl

theorem toNonDelegate_eq_ok {view : ActionView} {a : Raw.Action} :
    view.toNonDelegate = .ok a ↔ view.toAction = .ok a ∧ view.isDelegate = false := by
  constructor
  · intro h
    obtain ⟨action, haction, h⟩ := bind_eq_ok.mp h
    cases hx : action.fromAction with
    | none =>
      rw [hx] at h
      cases h
    | some x =>
      rw [hx] at h
      cases h
      obtain ⟨rfl, hd⟩ := Raw.Action.fromAction_eq_some.mp hx
      exact ⟨haction, isDelegate_of_toAction haction ▸ hd⟩
  · rintro ⟨h, hd⟩
    refine bind_eq_ok.mpr ⟨a, h, ?_⟩
    rw [← isDelegate_of_toAction h] at hd
    rw [Raw.Action.fromAction_eq_some.mpr ⟨rfl, hd⟩]

theorem exists_nonDelegateActions {views : List ActionView} :
    (∃ actions, nonDelegateActions views = .ok actions) ↔
      ∀ view ∈ views, view.isDelegate = false ∧ ∃ a, view.toAction = .ok a := by
  rw [nonDelegateActions_eq, exists_mapM_eq_ok]
  refine forall₂_congr fun view _ => ?_
  simp only [toNonDelegate_eq_ok]
  exact ⟨fun ⟨a, h, hd⟩ => ⟨hd, a, h⟩, fun ⟨hd, a, h⟩ => ⟨a, h, hd⟩⟩

theorem exists_bind_pure {ε α β : Type} {x : Except ε α} {f : α → β} :
    (∃ y, (do let a ← x; return f a) = Except.ok y) ↔ ∃ a, x = .ok a := by
  cases x with
  | error e => exact iff_of_false nofun nofun
  | ok a => exact iff_of_true ⟨_, rfl⟩ ⟨a, rfl⟩

private theorem exists_toDelegateAction {d : DelegateActionView} :
    (∃ x, d.toDelegateAction = .ok x) ↔
      ∀ view ∈ d.actions, view.isDelegate = false ∧ ∃ a, view.toAction = .ok a := by
  obtain ⟨senderId, receiverId, views, nonce, maxBlockHeight, publicKey⟩ := d
  rw [← exists_nonDelegateActions, DelegateActionView.toDelegateAction]
  exact exists_bind_pure

private theorem exists_toPayload {d : DelegateActionV2View} :
    (∃ x, (VersionedDelegateActionPayloadView.v2 d).toPayload = .ok x) ↔
      ∀ view ∈ d.actions, view.isDelegate = false ∧ ∃ a, view.toAction = .ok a := by
  obtain ⟨senderId, receiverId, views, nonce, maxBlockHeight, publicKey⟩ := d
  rw [← exists_nonDelegateActions, VersionedDelegateActionPayloadView.toPayload, exists_bind_pure,
    DelegateActionV2View.toDelegateActionV2]
  exact exists_bind_pure

private theorem textsDecode_of_nil {view : ActionView} (hbase64 : view.base64Fields = [])
    (hcode : view.codeFields = []) : view.TextsDecode := by
  constructor
  · rw [hbase64]
    exact nofun
  · rw [hcode]
    exact nofun

theorem textsDecode_iff_of_code {view : ActionView} {code : String}
    (hbase64 : view.base64Fields = [code]) (hcode : view.codeFields = [code]) :
    view.TextsDecode ↔ ∃ hash, decodeCodeHash code = .ok hash := by
  rw [exists_decodeCodeHash]
  constructor
  · rintro ⟨h₁, h₂⟩
    rw [hbase64] at h₁
    rw [hcode] at h₂
    exact ⟨h₁ code (List.mem_singleton_self code), h₂ code (List.mem_singleton_self code)⟩
  · rintro ⟨h₁, h₂⟩
    constructor
    · rw [hbase64]
      exact List.forall_mem_singleton.mpr h₁
    · rw [hcode]
      exact List.forall_mem_singleton.mpr h₂

theorem textsDecode_iff_of_base64 {view : ActionView} (hcode : view.codeFields = []) :
    view.TextsDecode ↔ ∀ text ∈ view.base64Fields, ∃ bytes, Base64.decode text = some bytes := by
  refine ⟨fun h => h.base64, fun h => ⟨h, ?_⟩⟩
  rw [hcode]
  exact nofun

/-- What a view asks of its texts and of its children. -/
theorem exists_toAction_iff_step (view : ActionView) : (∃ a, view.toAction = .ok a) ↔
    view.TextsDecode ∧
      ∀ child ∈ view.children, child.isDelegate = false ∧ ∃ a, child.toAction = .ok a := by
  cases view with
  | deployContract code | deployGlobalContract code | deployGlobalContractByAccountId code =>
    have htexts (view : ActionView) (hbase64 : view.base64Fields = [code])
        (hcode : view.codeFields = [code]) :
        view.TextsDecode ↔ ∃ hash, decodeCodeHash code = .ok hash :=
      textsDecode_iff_of_code hbase64 hcode
    rw [toAction, exists_bind_pure, htexts _ rfl rfl]
    exact (and_iff_left (List.forall_mem_nil _)).symm
  | functionCall methodName args gas deposit =>
    rw [toAction, exists_bind_pure, textsDecode_iff_of_base64 rfl]
    simp only [decodeViewBase64_eq_ok, base64Fields, List.forall_mem_singleton]
    exact (and_iff_left (List.forall_mem_nil _)).symm
  | deterministicStateInit code data deposit =>
    rw [toAction, exists_bind_pure, textsDecode_iff_of_base64 rfl, exists_decodeStateData]
    exact (and_iff_left (List.forall_mem_nil _)).symm
  | delegate d signature =>
    rw [toAction, exists_bind_pure, exists_toDelegateAction]
    exact (and_iff_right (textsDecode_of_nil rfl rfl)).symm
  | delegateV2 d signature =>
    obtain ⟨d⟩ := d
    rw [toAction, exists_bind_pure, exists_toPayload]
    exact (and_iff_right (textsDecode_of_nil rfl rfl)).symm
  | _ =>
    rw [toAction]
    exact iff_of_true ⟨_, rfl⟩ ⟨textsDecode_of_nil rfl rfl, List.forall_mem_nil _⟩

/-- A view is converted exactly when its texts decode, at every depth, and no delegate view
is inside another. -/
theorem exists_toAction_iff (view : ActionView) :
    (∃ a, view.toAction = .ok a) ↔ view.Convertible := by
  induction view using children_induction with
  | step view ih =>
    rw [exists_toAction_iff_step, convertible_iff]
    refine and_congr_right fun _ => forall₂_congr fun child hchild => ?_
    exact and_congr_right fun _ => ih child hchild

/-! ## The fields of a converted view -/

/-- The action has the fields of the view, decoded. -/
inductive Matches : ActionView → Raw.Action → Prop where
  | createAccount : Matches .createAccount (.mk (.createAccount {}))
  | deployContract {code bytes} (decodes : Base64.decode code = some bytes) :
      Matches (.deployContract code) (.mk (.deployContract ⟨bytes⟩))
  | functionCall {methodName args bytes gas deposit} (decodes : Base64.decode args = some bytes) :
      Matches (.functionCall methodName args gas deposit)
        (.mk (.functionCall ⟨methodName, bytes, gas, deposit⟩))
  | transfer (deposit) : Matches (.transfer deposit) (.mk (.transfer ⟨deposit⟩))
  | stake (stake publicKey) : Matches (.stake stake publicKey) (.mk (.stake ⟨stake, publicKey⟩))
  | addKey (publicKey) (accessKey : AccessKeyDetails) :
      Matches (.addKey publicKey accessKey) (.mk (.addKey ⟨publicKey, accessKey.toAccessKey⟩))
  | deleteKey (publicKey) : Matches (.deleteKey publicKey) (.mk (.deleteKey ⟨publicKey⟩))
  | deleteAccount (beneficiaryId) :
      Matches (.deleteAccount beneficiaryId) (.mk (.deleteAccount ⟨beneficiaryId⟩))
  | delegate {senderId receiverId views actions nonce maxBlockHeight publicKey signature}
      (inside : List.Forall₂ Matches views actions) :
      Matches
        (.delegate ⟨senderId, receiverId, views, nonce, maxBlockHeight, publicKey⟩ signature)
        (.delegate ⟨⟨senderId, receiverId, actions, nonce, maxBlockHeight, publicKey⟩, signature⟩)
  | delegateV2 {senderId receiverId views actions maxBlockHeight publicKey signature}
      {nonce : TransactionNonceView} (inside : List.Forall₂ Matches views actions) :
      Matches
        (.delegateV2 (.v2 ⟨senderId, receiverId, views, nonce, maxBlockHeight, publicKey⟩) signature)
        (.delegateV2 ⟨.v2 ⟨senderId, receiverId, actions, nonce.toNonce, maxBlockHeight, publicKey⟩,
          signature⟩)
  | deployGlobalContract {code bytes} (decodes : Base64.decode code = some bytes) :
      Matches (.deployGlobalContract code) (.mk (.deployGlobalContract ⟨bytes, .codeHash⟩))
  | deployGlobalContractByAccountId {code bytes} (decodes : Base64.decode code = some bytes) :
      Matches (.deployGlobalContractByAccountId code)
        (.mk (.deployGlobalContract ⟨bytes, .accountId⟩))
  | useGlobalContract (codeHash) :
      Matches (.useGlobalContract codeHash) (.mk (.useGlobalContract ⟨.codeHash codeHash⟩))
  | useGlobalContractByAccountId (accountId) :
      Matches (.useGlobalContractByAccountId accountId)
        (.mk (.useGlobalContract ⟨.accountId accountId⟩))
  | deterministicStateInit {data decoded deposit} {code : GlobalContractIdentifierView}
      (decodes : StateDecodes data decoded) :
      Matches (.deterministicStateInit code data deposit)
        (.mk (.deterministicStateInit ⟨.v1 ⟨code.toContractId, decoded⟩, deposit⟩))
  | transferToGasKey (publicKey deposit) :
      Matches (.transferToGasKey publicKey deposit) (.mk (.transferToGasKey ⟨publicKey, deposit⟩))
  | withdrawFromGasKey (publicKey amount) :
      Matches (.withdrawFromGasKey publicKey amount)
        (.mk (.withdrawFromGasKey ⟨publicKey, amount⟩))

private theorem forall₂_of_nonDelegateActions {views : List ActionView} {actions : List Raw.Action}
    (h : nonDelegateActions views = .ok actions)
    (ih : ∀ view ∈ views, ∀ a, view.toAction = .ok a → Matches view a) :
    List.Forall₂ Matches views actions := by
  rw [nonDelegateActions_eq, mapM_eq_ok] at h
  induction h with
  | nil => exact .nil
  | cons hview hviews ihviews =>
    obtain ⟨hhead, hrest⟩ := List.forall_mem_cons.mp ih
    exact .cons (hhead _ (toNonDelegate_eq_ok.mp hview).1) (ihviews hrest)

theorem matches_of_toAction (view : ActionView) : ∀ a, view.toAction = .ok a → Matches view a := by
  induction view using children_induction with
  | step view ih =>
    intro a h
    cases view with
    | deployContract code =>
      rw [toAction] at h
      obtain ⟨hash, hhash, h⟩ := bind_eq_ok.mp h
      cases h
      exact .deployContract (decodeCodeHash_eq_ok.mp hhash)
    | deployGlobalContract code =>
      rw [toAction] at h
      obtain ⟨hash, hhash, h⟩ := bind_eq_ok.mp h
      cases h
      exact .deployGlobalContract (decodeCodeHash_eq_ok.mp hhash)
    | deployGlobalContractByAccountId code =>
      rw [toAction] at h
      obtain ⟨hash, hhash, h⟩ := bind_eq_ok.mp h
      cases h
      exact .deployGlobalContractByAccountId (decodeCodeHash_eq_ok.mp hhash)
    | functionCall methodName args gas deposit =>
      rw [toAction] at h
      obtain ⟨bytes, hbytes, h⟩ := bind_eq_ok.mp h
      cases h
      exact .functionCall (decodeViewBase64_eq_ok.mp hbytes)
    | deterministicStateInit code data deposit =>
      rw [toAction] at h
      obtain ⟨decoded, hdecoded, h⟩ := bind_eq_ok.mp h
      cases h
      exact .deterministicStateInit (stateDecodes_of_eq_ok hdecoded)
    | delegate d signature =>
      obtain ⟨senderId, receiverId, views, nonce, maxBlockHeight, publicKey⟩ := d
      rw [toAction, DelegateActionView.toDelegateAction] at h
      obtain ⟨d, hd, h⟩ := bind_eq_ok.mp h
      obtain ⟨actions, hactions, hd⟩ := bind_eq_ok.mp hd
      cases hd
      cases h
      exact .delegate (forall₂_of_nonDelegateActions hactions ih)
    | delegateV2 d signature =>
      obtain ⟨⟨senderId, receiverId, views, nonce, maxBlockHeight, publicKey⟩⟩ := d
      rw [toAction, VersionedDelegateActionPayloadView.toPayload,
        DelegateActionV2View.toDelegateActionV2] at h
      obtain ⟨payload, hpayload, h⟩ := bind_eq_ok.mp h
      obtain ⟨d, hd, hpayload⟩ := bind_eq_ok.mp hpayload
      obtain ⟨actions, hactions, hd⟩ := bind_eq_ok.mp hd
      cases hd
      cases hpayload
      cases h
      exact .delegateV2 (forall₂_of_nonDelegateActions hactions ih)
    | _ =>
      rw [toAction] at h
      cases h
      constructor

/-- Every entry of a state init is in the action. -/
theorem stateDecodes_of_toAction {code : GlobalContractIdentifierView}
    {data : SortedMap String String} {deposit : NearToken} {a : Raw.Action}
    (h : (deterministicStateInit code data deposit).toAction = .ok a) :
    ∃ decoded, a = .mk (.deterministicStateInit ⟨.v1 ⟨code.toContractId, decoded⟩, deposit⟩) ∧
      StateDecodes data decoded ∧ decoded.entries.length = data.entries.length := by
  cases matches_of_toAction _ a h with
  | deterministicStateInit decodes => exact ⟨_, rfl, decodes, decodes.length_eq⟩

/-- Which views are converted, and that the action has every field of the view and every
entry of a state init. -/
theorem toAction_spec (view : ActionView) :
    ((∃ a, view.toAction = .ok a) ↔ view.Convertible) ∧
      ∀ a, view.toAction = .ok a → Matches view a ∧
        ∀ code data deposit, view = deterministicStateInit code data deposit →
          ∃ decoded, a = .mk (.deterministicStateInit ⟨.v1 ⟨code.toContractId, decoded⟩, deposit⟩) ∧
            StateDecodes data decoded ∧ decoded.entries.length = data.entries.length := by
  refine ⟨exists_toAction_iff view, fun a h => ⟨matches_of_toAction view a h, ?_⟩⟩
  rintro code data deposit rfl
  exact stateDecodes_of_toAction h

end ActionView
end NearKit
