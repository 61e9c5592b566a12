import NearKit.JsonValues

/-!
# Derived decoders

What a derived `Deserialize` makes of a JSON tree: a struct by the names or by the order of
its fields, an enum by the name of a variant. Also the accessors of a value.
-/
namespace NearKit
open Borsh

namespace Json

/-- The JSON of a type. A field that is not decoded further is kept as it is. -/
abbrev Decoder (α : Type) := Json → Except SerdeError α

/-! ## Accessors -/

/-- `Value::get`. Of a repeated key the last entry counts. -/
def get (json : Json) (key : String) : Option Json :=
  match json with
  | object fields => (fields.reverse.find? (·.1 = key)).map Prod.snd
  | _ => none

def asStr : Json → Option String
  | string s => some s
  | _ => none

def asU64 : Json → Option UInt64
  | number (.posInt n) => some n
  | _ => none

def isObject : Json → Bool
  | object _ => true
  | _ => false

/-! ## Numbers, options and sequences -/

def u64 : Decoder UInt64
  | number (.posInt n) => .ok n
  | _ => .error .invalidType

def u32 : Decoder UInt32
  | number (.posInt n) => if n.toNat < 2 ^ 32 then .ok n.toUInt32 else .error .invalidType
  | _ => .error .invalidType

def u16 : Decoder UInt16
  | number (.posInt n) => if n.toNat < 2 ^ 16 then .ok n.toUInt16 else .error .invalidType
  | _ => .error .invalidType

def i64 : Decoder Int64
  | number (.posInt n) => if n.toNat < 2 ^ 63 then .ok n.toInt64 else .error .invalidType
  | number (.negInt n) => .ok n
  | _ => .error .invalidType

/-- A float is read from every number, and kept as that. -/
def f64 : Decoder JsonNumber
  | number n => .ok n
  | _ => .error .invalidType

def option {α : Type} (decode : Decoder α) : Decoder (Option α)
  | null => .ok none
  | json => some <$> decode json

def list {α : Type} (decode : Decoder α) : Decoder (List α)
  | array items => items.mapM decode
  | _ => .error .invalidType

/-- A value that is checked and then kept as it is. -/
def checked (accepts : Json → Bool) : Decoder Json := fun json =>
  if accepts json then .ok json else .error .invalidType

/-! ## Structs -/

/-- The fields of a struct. In an array they stand in order, and only those behind the first
`required` ones may be missing. -/
def structFields (names : List String) (required : ℕ) : Decoder (List (String × Json))
  | object fields => .ok fields
  | array items =>
    if required ≤ items.length ∧ items.length ≤ names.length then .ok (names.zip items)
    else .error .invalidType
  | _ => .error .invalidType

def required {α : Type} (fields : List (String × Json)) (name : String) (decode : Decoder α) :
    Except SerdeError α := do
  let value ← requiredField fields name
  decode value

/-- A field under `#[serde(default)]`. -/
def defaulted {α : Type} (fields : List (String × Json)) (name : String) (default : α)
    (decode : Decoder α) : Except SerdeError α := do
  match ← field fields name with
  | none => .ok default
  | some value => decode value

/-- A field of type `Option<T>`, with or without `#[serde(default)]`. -/
def optional {α : Type} (fields : List (String × Json)) (name : String) (decode : Decoder α) :
    Except SerdeError (Option α) :=
  defaulted fields name none (option decode)

/-! ## Enums -/

/-- The name of the variant of an externally tagged enum, and its payload. -/
def variant : Decoder (String × Option Json)
  | string name => .ok (name, none)
  | object [(name, payload)] => .ok (name, some payload)
  | _ => .error .invalidType

def unit {α : Type} (value : α) : Option Json → Except SerdeError α
  | none => .ok value
  | some null => .ok value
  | _ => .error .invalidType

/-- The same below a flattened part, which serde buffers and then consumes. Below an untagged
variant the buffer is read by reference, and then only `unit` is accepted. -/
def bufferedUnit {α : Type} (value : α) : Option Json → Except SerdeError α
  | some (object []) => .ok value
  | payload => unit value payload

def newtype {α : Type} (decode : Decoder α) : Option Json → Except SerdeError α
  | some payload => decode payload
  | none => .error .invalidType

/-- The payload of a struct variant with one field. -/
def oneField {α β : Type} (name : String) (decode : Decoder α) (make : α → β) : Decoder β :=
  fun json => do
    let fields ← structFields [name] 1 json
    let value ← required fields name decode
    return make value

/-- The payload of a struct variant with two fields. -/
def twoFields {α β γ : Type} (first second : String) (decodeFirst : Decoder α)
    (decodeSecond : Decoder β) (make : α → β → γ) : Decoder γ :=
  fun json => do
    let fields ← structFields [first, second] 2 json
    let a ← required fields first decodeFirst
    let b ← required fields second decodeSecond
    return make a b

theorem variant_eq_ok_some {json : Json} {name : String} {payload : Json} :
    variant json = .ok (name, some payload) ↔ json = object [(name, payload)] := by
  constructor
  · intro h
    unfold variant at h
    split at h
    · cases h
    · cases h
      rfl
    · cases h
  · rintro rfl
    rfl

theorem eq_of_bufferedUnit {α : Type} {value a : α} {payload : Option Json}
    (h : bufferedUnit value payload = .ok a) : a = value := by
  unfold bufferedUnit unit at h
  split at h
  · cases h
    rfl
  · split at h
    · cases h
      rfl
    · cases h
      rfl
    · cases h

theorem newtype_eq_ok {α : Type} {decode : Decoder α} {payload : Option Json} {a : α} :
    newtype decode payload = .ok a ↔ ∃ json, payload = some json ∧ decode json = .ok a := by
  cases payload with
  | none => exact iff_of_false nofun fun ⟨_, h, _⟩ => by cases h
  | some json =>
    constructor
    · exact fun h => ⟨json, rfl, h⟩
    · rintro ⟨other, hjson, h⟩
      cases hjson
      exact h

end Json

theorem map_eq_ok {ε α β : Type} {f : α → β} {x : Except ε α} {b : β} :
    f <$> x = .ok b ↔ ∃ a, x = .ok a ∧ f a = b := by
  cases x with
  | error e => exact iff_of_false nofun fun ⟨_, h, _⟩ => by cases h
  | ok a =>
    constructor
    · exact fun h => ⟨a, rfl, Except.ok.inj h⟩
    · rintro ⟨other, hother, rfl⟩
      cases hother
      rfl

/-! ## Success with a check -/

/-- The first computation succeeds exactly when the second does with a value that passes. -/
def SucceedsWhen {ε α β : Type} (x : Except ε β) (y : Except ε α) (passes : α → Prop) : Prop :=
  (∃ b, x = .ok b) ↔ ∃ a, y = .ok a ∧ passes a

namespace SucceedsWhen
variable {ε α β γ δ : Type} {passes : γ → Prop}

theorem pure {d : δ} {c : γ} (h : passes c) :
    SucceedsWhen (Pure.pure d : Except ε δ) (Pure.pure c) passes :=
  iff_of_true ⟨d, rfl⟩ ⟨c, rfl, h⟩

theorem bind (x : Except ε α) {f : α → Except ε δ} {g : α → Except ε γ}
    (h : ∀ a, SucceedsWhen (f a) (g a) passes) : SucceedsWhen (x >>= f) (x >>= g) passes := by
  cases x with
  | error e => exact iff_of_false nofun nofun
  | ok a => exact h a

/-- A step that the first computation checks. What passes at the end has passed the check. -/
theorem bind_checked {x : Except ε β} {y : Except ε α} {check : α → Prop}
    {f : β → Except ε δ} {g : α → Except ε γ} (hcheck : SucceedsWhen x y check)
    (h : ∀ b a, check a → SucceedsWhen (f b) (g a) passes)
    (hpasses : ∀ a c, g a = .ok c → passes c → check a) :
    SucceedsWhen (x >>= f) (y >>= g) passes := by
  constructor
  · rintro ⟨d, hd⟩
    obtain ⟨b, hb, hd⟩ := bind_eq_ok.mp hd
    obtain ⟨a, ha, hchecked⟩ := hcheck.mp ⟨b, hb⟩
    obtain ⟨c, hc, hpass⟩ := (h b a hchecked).mp ⟨d, hd⟩
    exact ⟨c, bind_eq_ok.mpr ⟨a, ha, hc⟩, hpass⟩
  · rintro ⟨c, hc, hpass⟩
    obtain ⟨a, ha, hc⟩ := bind_eq_ok.mp hc
    have hchecked := hpasses a c hc hpass
    obtain ⟨b, hb⟩ := hcheck.mpr ⟨a, ha, hchecked⟩
    obtain ⟨d, hd⟩ := (h b a hchecked).mpr ⟨c, hc, hpass⟩
    exact ⟨d, bind_eq_ok.mpr ⟨b, hb, hd⟩⟩

/-- Steps over the items of a list, each with its check. -/
theorem mapM {f : δ → Except ε β} {g : δ → Except ε α} {check : α → Prop} {items : List δ}
    (h : ∀ item ∈ items, SucceedsWhen (f item) (g item) check) :
    SucceedsWhen (items.mapM f) (items.mapM g) fun as => ∀ a ∈ as, check a := by
  induction items with
  | nil => exact pure nofun
  | cons item items ih =>
    obtain ⟨hitem, hitems⟩ := List.forall_mem_cons.mp h
    rw [List.mapM_cons, List.mapM_cons]
    refine bind_checked hitem (fun b a ha => bind_checked (ih hitems) ?_ ?_) ?_
    · intro bs as has
      exact pure (List.forall_mem_cons.mpr ⟨ha, has⟩)
    · intro as all hall hpasses
      cases hall
      exact (List.forall_mem_cons.mp hpasses).2
    · intro a all hall hpasses
      obtain ⟨as, -, hall⟩ := bind_eq_ok.mp hall
      cases hall
      exact (List.forall_mem_cons.mp hpasses).1

end SucceedsWhen

namespace Json

/-- The first decoder reads what the second reads, as long as it passes a check. -/
def ReadsChecked {α β : Type} (strict : Decoder β) (loose : Decoder α) (passes : α → Prop) : Prop :=
  ∀ json, SucceedsWhen (strict json) (loose json) passes

namespace ReadsChecked
variable {α β : Type} {strict : Decoder β} {loose : Decoder α} {passes : α → Prop}

theorem list (h : ReadsChecked strict loose passes) :
    ReadsChecked (Json.list strict) (Json.list loose) fun values => ∀ a ∈ values, passes a := by
  intro json
  cases json with
  | array items => exact .mapM fun item _ => h item
  | _ => exact iff_of_false nofun nofun

theorem required (h : ReadsChecked strict loose passes) (fields : List (String × Json))
    (name : String) :
    SucceedsWhen (Json.required fields name strict) (Json.required fields name loose) passes :=
  .bind _ h

/-- A decoder is itself with its value left as JSON, and then checked. -/
theorem of_ok (decode : Decoder α) :
    ReadsChecked decode (.ok : Decoder Json) fun json => ∃ a, decode json = .ok a := by
  intro json
  constructor
  · intro h
    exact ⟨json, rfl, h⟩
  · rintro ⟨a, ha, h⟩
    cases ha
    exact h

end ReadsChecked
end Json
end NearKit
