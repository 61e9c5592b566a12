import NearKit.BorshVariants
import NearKit.SortedMaps
import NearKit.Keys

/-!
# Wire formats

A format is a codec together with its laws. The laws of a composite codec depend on
its value only through a few parts: the account names, the public keys, the lengths
written as `u32`, and whether there is a state map, whose entries borsh may accept in
any order. Records, sequences and enums of formats are formats.
-/
namespace NearKit
open Borsh

inductive Part where
  | accountId (id : AccountId)
  | publicKey (key : PublicKey)
  | length (n : ℕ)
  | stateMap

namespace Part
variable [Crates]

def Fits : Part → Prop
  | length n => n < 2 ^ 32
  | _ => True

def Valid : Part → Prop
  | accountId id => id.Valid
  | publicKey key => key.isValid = true
  | _ => True

def Plain : Part → Prop
  | stateMap => Crates.strictOrder = true
  | _ => True

instance : DecidablePred Fits
  | length n => inferInstanceAs (Decidable (n < 2 ^ 32))
  | accountId _ | publicKey _ | stateMap => isTrue trivial

instance : DecidablePred Valid
  | accountId id => inferInstanceAs (Decidable (Crates.accountIdOk id.name = true))
  | publicKey key => inferInstanceAs (Decidable (key.isValid = true))
  | length _ | stateMap => isTrue trivial

end Part

variable [Crates]

structure Format (α : Type) extends Codec α where
  parts : α → List Part
  lawful : toCodec.Lawful (fun x => ∀ p ∈ parts x, p.Fits) (fun x => ∀ p ∈ parts x, p.Valid)
    (fun x => ∀ p ∈ parts x, p.Plain)

namespace Format
variable {α β : Type}

/-- The lengths of the value can be written. -/
def Fits (f : Format α) (x : α) : Prop := ∀ p ∈ f.parts x, p.Fits

/-- The account names and the public keys of the value pass their checks. -/
def Valid (f : Format α) (x : α) : Prop := ∀ p ∈ f.parts x, p.Valid

/-- The value has no state map, or borsh rejects unordered ones. -/
def Plain (f : Format α) (x : α) : Prop := ∀ p ∈ f.parts x, p.Plain

instance (f : Format α) : DecidablePred f.Fits :=
  fun x => inferInstanceAs (Decidable (∀ p ∈ f.parts x, p.Fits))

instance (f : Format α) : DecidablePred f.Valid :=
  fun x => inferInstanceAs (Decidable (∀ p ∈ f.parts x, p.Valid))

theorem plain_of_no_stateMap {f : Format α} {x : α} (h : Part.stateMap ∉ f.parts x) :
    f.Plain x := by
  intro p hp
  cases p with
  | stateMap => exact absurd hp h
  | accountId | publicKey | length => trivial

theorem plain_of_strictOrder (h : Crates.strictOrder = true) (f : Format α) (x : α) :
    f.Plain x := by
  intro p _
  cases p with
  | stateMap => exact h
  | accountId | publicKey | length => trivial

/-- A type whose encoding has no part that matters to the laws. -/
def simple (c : Codec α) (h : c.Lawful (fun _ => True) (fun _ => True) (fun _ => True)) :
    Format α where
  toCodec := c
  parts _ := []
  lawful := h.congr (by simp) (by simp) (by simp)

def accountId : Format AccountId where
  toCodec := AccountId.codec
  parts id := [.accountId id]
  lawful := AccountId.lawful.congr (by simp [Part.Fits]) (by simp [Part.Valid]) (by simp)

def publicKey : Format PublicKey where
  toCodec := PublicKey.codec
  parts key := [.publicKey key]
  lawful := PublicKey.lawful.congr (by simp [Part.Fits]) (by simp [Part.Valid]) (by simp)

def signature : Format Signature := simple Signature.codec Signature.lawful

def u16 : Format UInt16 := simple Codec.u16 Codec.lawful_u16
def u64 : Format UInt64 := simple Codec.u64 Codec.lawful_u64
def u128 : Format (BitVec 128) := simple Codec.u128 Codec.lawful_u128
def array (n : ℕ) : Format (ByteArr n) := simple (Codec.array n) (Codec.lawful_array n)
def unit : Format Unit := simple Codec.unit Codec.lawful_unit

def bytes : Format Bytes where
  toCodec := Codec.bytes
  parts bs := [.length bs.length]
  lawful := Codec.lawful_bytes.congr (by simp [Part.Fits]) (by simp [Part.Valid]) (by simp)

def string : Format String where
  toCodec := Codec.string
  parts s := [.length s.utf8ByteSize]
  lawful := Codec.lawful_string.congr (by simp [Part.Fits]) (by simp [Part.Valid]) (by simp)

def pair (a : Format α) (b : Format β) : Format (α × β) where
  toCodec := a.toCodec.pair b.toCodec
  parts x := a.parts x.1 ++ b.parts x.2
  lawful := (a.lawful.pair b.lawful).congr (fun _ => List.forall_mem_append)
    (fun _ => List.forall_mem_append) (fun _ => List.forall_mem_append.mp)

/-- A record is written as the tuple of its fields in declaration order. -/
def iso (f : Format α) (e : β ≃ α) : Format β where
  toCodec := f.toCodec.iso e
  parts x := f.parts (e x)
  lawful := f.lawful.iso e

def vec (f : Format α) : Format (List α) where
  toCodec := Codec.vec f.toCodec
  parts xs := .length xs.length :: xs.flatMap f.parts
  lawful := f.lawful.vec.congr
    (fun xs => by simp only [List.forall_mem_cons, List.forall_mem_flatMap, Part.Fits])
    (fun xs => by simp only [List.forall_mem_cons, List.forall_mem_flatMap, Part.Valid, true_and])
    (fun xs => by
      simp only [List.forall_mem_cons, List.forall_mem_flatMap, Part.Plain, true_and]
      exact id)

def option (f : Format α) : Format (Option α) where
  toCodec := Codec.option f.toCodec
  parts o := o.toList.flatMap f.parts
  lawful := f.lawful.option.congr (fun o => by cases o <;> simp) (fun o => by cases o <;> simp)
    (fun o => by cases o <;> simp)

def enum {ι : Type} {P : ι → Type} (v : Variants ι) (f : ∀ i, Format (P i)) :
    Format (Σ i, P i) where
  toCodec := Codec.enum v fun i => (f i).toCodec
  parts x := (f x.1).parts x.2
  lawful := Codec.Lawful.enum v fun i => (f i).lawful

/-- An enum without payloads is its own set of variants. -/
def plainEnum {ι : Type} (v : Variants ι) : Format ι :=
  (enum v fun _ => unit).iso ⟨fun i => ⟨i, ()⟩, Sigma.fst, fun _ => rfl, fun _ => rfl⟩

/-- `BTreeMap<Vec<u8>, Vec<u8>>`, the contents of a deterministic account. -/
def stateMap : Format (SortedMap Bytes Bytes) where
  toCodec := Codec.sortedMap Crates.strictOrder Codec.bytes Codec.bytes
  parts m := .stateMap :: .length m.entries.length ::
    m.entries.flatMap fun e => [.length e.1.length, .length e.2.length]
  lawful := (Codec.Lawful.sortedMap Codec.lawful_bytes Codec.lawful_bytes _).congr
    (fun m => by
      simp only [List.forall_mem_cons, List.forall_mem_flatMap, List.not_mem_nil, false_imp_iff,
        implies_true, and_true, true_and, Part.Fits])
    (fun m => by
      simp only [List.forall_mem_cons, List.forall_mem_flatMap, List.not_mem_nil, false_imp_iff,
        implies_true, and_true, Part.Valid])
    (fun m h => h .stateMap List.mem_cons_self)

end Format
end NearKit
