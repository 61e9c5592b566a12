import NearKit.KeyTexts

/-!
# JSON values

The tree of values that `serde_json` writes as text and reads back, and what a derived
`Deserialize` and the accessors of a value ask of it.
-/
namespace NearKit

/-- A number as `serde_json` keeps it, a float by its bits. -/
inductive JsonNumber where
  | posInt (n : UInt64)
  | negInt (n : Int64)
  | float (bits : UInt64)
  deriving DecidableEq

inductive Json where
  | null
  | bool (b : Bool)
  | number (n : JsonNumber)
  | string (s : String)
  | array (items : List Json)
  | object (fields : List (String × Json))

/-- The messages of the JSON, base58, hex and account libraries are left out. -/
inductive SerdeError where
  | duplicateField (name : String)
  | missingField (name : String)
  | invalidType
  | invalidAccountId
  | parseKey (error : ParseKeyError)
  | invalidHex
  | invalidBase58
  | custom (message : String)
  deriving DecidableEq

namespace Json

def asString : Json → Except SerdeError String
  | string s => .ok s
  | _ => .error .invalidType

def asObject : Json → Except SerdeError (List (String × Json))
  | object fields => .ok fields
  | _ => .error .invalidType

/-- The field of a derived `Deserialize`, which ignores the order and other fields. -/
def field (fields : List (String × Json)) (name : String) : Except SerdeError (Option Json) :=
  match fields.filter (·.1 = name) with
  | [] => .ok none
  | [(_, value)] => .ok (some value)
  | _ => .error (.duplicateField name)

def requiredField (fields : List (String × Json)) (name : String) : Except SerdeError Json := do
  match ← field fields name with
  | some value => .ok value
  | none => .error (.missingField name)

def stringField (fields : List (String × Json)) (name : String) : Except SerdeError String := do
  let value ← requiredField fields name
  value.asString

/-- A field of type `Option<String>`: without the field it is `None`. -/
def optionField (fields : List (String × Json)) (name : String) :
    Except SerdeError (Option String) := do
  match ← field fields name with
  | none | some .null => .ok none
  | some value => some <$> value.asString

/-- A field written under `skip_serializing_if = "Option::is_none"`. -/
def ofOption (name : String) : Option String → List (String × Json)
  | none => []
  | some s => [(name, string s)]

theorem field_append_ofOption {name other : String} (h : other ≠ name)
    (fields : List (String × Json)) (s : Option String) :
    field (fields ++ ofOption other s) name = field fields name := by
  have hnone : (ofOption other s).filter (·.1 = name) = [] := by
    cases s with
    | none => rfl
    | some s => exact List.filter_cons_of_neg (by simpa using h)
  unfold field
  rw [List.filter_append, hnone, List.append_nil]

theorem requiredField_append_ofOption {name other : String} (h : other ≠ name)
    (fields : List (String × Json)) (s : Option String) :
    requiredField (fields ++ ofOption other s) name = requiredField fields name := by
  unfold requiredField
  rw [field_append_ofOption h]

theorem stringField_append_ofOption {name other : String} (h : other ≠ name)
    (fields : List (String × Json)) (s : Option String) :
    stringField (fields ++ ofOption other s) name = stringField fields name := by
  unfold stringField
  rw [requiredField_append_ofOption h]

theorem optionField_append_ofOption {name : String} {fields : List (String × Json)}
    (h : fields.filter (·.1 = name) = []) (s : Option String) :
    optionField (fields ++ ofOption name s) name = .ok s := by
  unfold optionField field
  rw [List.filter_append, h, List.nil_append]
  cases s with
  | none => rfl
  | some s =>
    have hself : (ofOption name (some s)).filter (·.1 = name) = [(name, string s)] :=
      List.filter_cons_of_pos (by simp)
    rw [hself]
    rfl

end Json

end NearKit
