import NearKit.BorshPrimitives

/-!
# Account names, public keys and signatures

The validated identifiers of a transaction and their hand-written codecs. The checks
that other crates make (the account grammar, the curve equations, the hash) are
functions of the class `Crates`, so every result below holds whatever they answer.
-/
namespace NearKit
open Borsh

/-- What the code asks of other crates. -/
class Crates where
  /-- The grammar of account names, beyond their length. -/
  accountIdOk : String → Bool
  /-- `VerifyingKey::from_bytes` accepts the compressed point. -/
  ed25519Point : ByteArr 32 → Bool
  /-- `Sec1Point::from_bytes` accepts the SEC1 encoding. -/
  sec1Encoding : ByteArr 65 → Bool
  /-- `AffinePoint::from_sec1_point` finds the point on the curve. -/
  secp256k1Point : ByteArr 65 → Bool
  sha256 : Bytes → ByteArr 32
  /-- Whether borsh rejects map keys out of order. -/
  strictOrder : Bool

/-- Answers that hold for the well-formed names and keys of the samples. -/
@[reducible] def Crates.accepting : Crates where
  accountIdOk _ := true
  ed25519Point _ := true
  sec1Encoding _ := true
  secp256k1Point _ := true
  sha256 _ := .zeros 32
  strictOrder := true

/-- An account name: 2 to 64 bytes long. -/
@[ext] structure AccountId where
  name : String
  two_le : 2 ≤ name.utf8ByteSize
  le_64 : name.utf8ByteSize ≤ 64
  deriving DecidableEq

namespace AccountId

def alice : AccountId := ⟨"alice.near", by decide, by decide⟩
def bob : AccountId := ⟨"bob.near", by decide, by decide⟩

variable [Crates]

def Valid (id : AccountId) : Prop := Crates.accountIdOk id.name = true

def validate (s : String) : Option AccountId :=
  if h : 2 ≤ s.utf8ByteSize ∧ s.utf8ByteSize ≤ 64 then
    if Crates.accountIdOk s then some ⟨s, h.1, h.2⟩ else none
  else none

theorem validate_eq_some {s : String} {id : AccountId} :
    validate s = some id ↔ id.name = s ∧ id.Valid := by
  unfold validate Valid
  constructor
  · intro h
    split at h
    · split at h
      · cases h
        exact ⟨rfl, by assumption⟩
      · cases h
    · cases h
  · rintro ⟨rfl, hok⟩
    simp [id.two_le, id.le_64, hok]

def codec : Codec AccountId :=
  Codec.string.guarded validate name ⟨.invalidData, "invalid account ID"⟩

theorem lawful : codec.Lawful (fun _ => True) Valid (fun _ => True) :=
  (Codec.lawful_string.guarded _ (fun _ _ h => AccountId.ext h) fun _ _ => validate_eq_some).congr
    (fun id => by simpa using lt_of_le_of_lt id.le_64 (by norm_num)) (by simp) (by simp)

/-- The length word of an account name, the first four bytes of a transaction. -/
theorem write_eq (id : AccountId) :
    codec.write id = .ok (leBytes 4 id.name.utf8ByteSize ++ Codec.utf8 id.name) := by
  have hlen : (Codec.utf8 id.name).length < 2 ^ 32 := by
    rw [Codec.length_utf8]
    exact lt_of_le_of_lt id.le_64 (by norm_num)
  have hmany (bs : Bytes) : Codec.writeMany Codec.u8.write bs = .ok bs := by
    induction bs with
    | nil => rfl
    | cons b bs ih => rw [Codec.writeMany, ih, Codec.u8_write]; rfl
  show seq (Codec.writeLength (Codec.utf8 id.name).length)
    (Codec.writeMany Codec.u8.write (Codec.utf8 id.name)) = _
  rw [hmany, Codec.writeLength_eq_ok.mpr ⟨hlen, rfl⟩, Codec.length_utf8]
  rfl

end AccountId

/-! ## Key types -/

inductive KeyType where
  | ed25519 | secp256k1 | mlDsa65
  deriving DecidableEq, Repr

def mlDsa65PublicKeyLength : ℕ := 1952
def mlDsa65SignatureLength : ℕ := 3309

namespace KeyType

def toU8 : KeyType → UInt8
  | ed25519 => 0
  | secp256k1 => 1
  | mlDsa65 => 2

theorem toU8_injective : Function.Injective toU8 := by
  intro s t h
  cases s <;> cases t <;> first | rfl | simp [toU8] at h

def publicKeyLength : KeyType → ℕ
  | ed25519 => 32
  | secp256k1 => 64
  | mlDsa65 => mlDsa65PublicKeyLength

/-- `KeyType::try_from`, with the text of `ParseKeyError::UnknownKeyType`. -/
def tryFrom (value : UInt8) : Except String KeyType :=
  if value = 0 then .ok ed25519
  else if value = 1 then .ok secp256k1
  else if value = 2 then .ok mlDsa65
  else .error s!"Unknown key type: '{value.toNat}'"

theorem tryFrom_eq_ok {value : UInt8} {t : KeyType} : tryFrom value = .ok t ↔ value = t.toU8 := by
  unfold tryFrom
  constructor
  · intro h
    split at h
    · cases h; assumption
    · split at h
      · cases h; assumption
      · split at h
        · cases h; assumption
        · cases h
  · rintro rfl
    cases t <;> rfl

/-- The first step of both key decoders. -/
def read : Reader KeyType := do
  let value ← Codec.u8.read
  match tryFrom value with
  | .ok t => pure t
  | .error e => Reader.fail ⟨.invalidData, e⟩

theorem read_cons (t : KeyType) (bs : Bytes) : read (t.toU8 :: bs) = .ok (t, bs) := by
  unfold read
  rw [Reader.bind_of_ok (Codec.u8_read_cons _ _), tryFrom_eq_ok.mpr rfl]
  rfl

theorem read_eq_ok {t : KeyType} {bs rest : Bytes} :
    read bs = .ok (t, rest) ↔ bs = t.toU8 :: rest := by
  refine ⟨fun h => ?_, fun h => h ▸ read_cons t rest⟩
  obtain ⟨value, mid, hv, hr⟩ := Reader.bind_eq_ok.mp h
  cases ht : tryFrom value with
  | error e => simp [ht] at hr
  | ok t' =>
    simp only [ht, Reader.pure_apply, Except.ok.injEq, Prod.mk.injEq] at hr
    obtain ⟨rfl, rfl⟩ := hr
    rw [Codec.u8_read_eq_ok.mp hv, tryFrom_eq_ok.mp ht]

end KeyType

/-! ## Public keys -/

inductive PublicKey where
  | ed25519 (bytes : ByteArr 32)
  | secp256k1 (bytes : ByteArr 64)
  | mlDsa65 (bytes : ByteArr mlDsa65PublicKeyLength)
  deriving DecidableEq

namespace PublicKey

/-- A point of the curve: the encoding of `y = b` for a small even `b`. -/
def sample (b : UInt8) : PublicKey := ed25519 ⟨b :: List.replicate 31 0, rfl⟩

def keyType : PublicKey → KeyType
  | ed25519 _ => .ed25519
  | secp256k1 _ => .secp256k1
  | mlDsa65 _ => .mlDsa65

def asBytes : PublicKey → Bytes
  | ed25519 bytes => bytes.val
  | secp256k1 bytes => bytes.val
  | mlDsa65 bytes => bytes.val

/-- The SEC1 form that the curve library checks: the tag `0x04`, then both coordinates. -/
def uncompressed (bytes : ByteArr 64) : ByteArr 65 :=
  ⟨4 :: bytes.val, by simp [bytes.2]⟩

theorem length_asBytes (k : PublicKey) : k.asBytes.length = k.keyType.publicKeyLength := by
  rcases k with b | b | b <;> exact b.2

theorem eq_of_keyType_of_asBytes {k l : PublicKey} (ht : k.keyType = l.keyType)
    (hb : k.asBytes = l.asBytes) : k = l := by
  cases k <;> cases l <;> first | exact congrArg _ (Subtype.ext hb) | cases ht

variable [Crates]

/-- The crate's own key validation, as its decoders make it. -/
def isValid : PublicKey → Bool
  | ed25519 bytes => Crates.ed25519Point bytes
  | secp256k1 bytes =>
    Crates.sec1Encoding (uncompressed bytes) && Crates.secp256k1Point (uncompressed bytes)
  | mlDsa65 _ => true

def serialize (k : PublicKey) : Except IoError Bytes :=
  seq (Codec.u8.write k.keyType.toU8) (.ok k.asBytes)

def deserializeReader : Reader PublicKey := do
  let keyType ← KeyType.read
  match keyType with
  | .ed25519 =>
    let bytes ← Reader.exactly unexpectedEof 32
    if Crates.ed25519Point bytes then pure (ed25519 bytes)
    else Reader.fail ⟨.invalidData, "invalid ed25519 curve point"⟩
  | .secp256k1 =>
    let bytes ← Reader.exactly unexpectedEof 64
    if Crates.sec1Encoding (uncompressed bytes) then
      if Crates.secp256k1Point (uncompressed bytes) then pure (secp256k1 bytes)
      else Reader.fail ⟨.invalidData, "invalid secp256k1 curve point"⟩
    else Reader.fail ⟨.invalidData, "invalid secp256k1 encoding"⟩
  | .mlDsa65 => mlDsa65 <$> Reader.exactly unexpectedEof mlDsa65PublicKeyLength

def codec : Codec PublicKey := ⟨serialize, deserializeReader⟩

omit [Crates] in
theorem serialize_eq (k : PublicKey) : k.serialize = .ok (k.keyType.toU8 :: k.asBytes) := by
  rw [serialize, Codec.u8_write]
  rfl

theorem deserializeReader_serialize {k : PublicKey} (h : k.isValid = true) (rest : Bytes) :
    deserializeReader (k.keyType.toU8 :: k.asBytes ++ rest) = .ok (k, rest) := by
  refine (Reader.bind_of_ok (KeyType.read_cons _ _)).trans ?_
  cases k with
  | ed25519 bytes =>
    have hpoint : Crates.ed25519Point bytes = true := h
    refine (Reader.bind_of_ok (Reader.exactly_append _ bytes rest)).trans ?_
    rw [if_pos hpoint]
    rfl
  | secp256k1 bytes =>
    obtain ⟨hsec1, hpoint⟩ := Bool.and_eq_true_iff.mp h
    refine (Reader.bind_of_ok (Reader.exactly_append _ bytes rest)).trans ?_
    rw [if_pos hsec1, if_pos hpoint]
    rfl
  | mlDsa65 bytes => exact Reader.map_of_ok (Reader.exactly_append _ bytes rest)

/-- Every accepted key passed its check, and was written as the bytes read. -/
theorem deserializeReader_spec {bs rest : Bytes} {k : PublicKey}
    (h : deserializeReader bs = .ok (k, rest)) :
    k.isValid = true ∧ bs = k.keyType.toU8 :: k.asBytes ++ rest := by
  obtain ⟨t, mid, ht, hr⟩ := Reader.bind_eq_ok.mp h
  rw [KeyType.read_eq_ok.mp ht]
  cases t with
  | ed25519 =>
    obtain ⟨bytes, _, hb, hr⟩ := Reader.bind_eq_ok.mp hr
    rw [Reader.exactly_eq_ok.mp hb]
    split at hr
    · next hpoint =>
      cases hr
      exact ⟨hpoint, rfl⟩
    · cases hr
  | secp256k1 =>
    obtain ⟨bytes, _, hb, hr⟩ := Reader.bind_eq_ok.mp hr
    rw [Reader.exactly_eq_ok.mp hb]
    split at hr
    · next hsec1 =>
      split at hr
      · next hpoint =>
        cases hr
        exact ⟨by simp [isValid, hsec1, hpoint], rfl⟩
      · cases hr
    · cases hr
  | mlDsa65 =>
    obtain ⟨bytes, hb, rfl⟩ := Reader.map_eq_ok.mp hr
    rw [Reader.exactly_eq_ok.mp hb]
    exact ⟨rfl, rfl⟩

theorem lawful : codec.Lawful (fun _ => True) (fun k => k.isValid = true) (fun _ => True) where
  fits_iff k := by simp [codec, serialize_eq]
  read_write {k p} hk hw rest := by
    cases (serialize_eq k).symm.trans hw
    exact deserializeReader_serialize hk rest
  valid_of_read hr := (deserializeReader_spec hr).1
  write_read {_ k _} hr _ := ⟨_, serialize_eq k, (deserializeReader_spec hr).2⟩
  prefixFree {k l _ _ r s} hp hq hs := by
    cases (serialize_eq k).symm.trans hp
    cases (serialize_eq l).symm.trans hq
    obtain ⟨ht, hs⟩ := List.cons.inj hs
    have ht : k.keyType = l.keyType := KeyType.toU8_injective ht
    obtain ⟨hb, hs⟩ := List.append_inj hs (by rw [length_asBytes, length_asBytes, ht])
    exact ⟨eq_of_keyType_of_asBytes ht hb, hs⟩

end PublicKey

/-! ## Signatures -/

inductive Signature where
  | ed25519 (bytes : ByteArr 64)
  | secp256k1 (bytes : ByteArr 65)
  | mlDsa65 (bytes : ByteArr mlDsa65SignatureLength)
  deriving DecidableEq

namespace Signature

def keyType : Signature → KeyType
  | ed25519 _ => .ed25519
  | secp256k1 _ => .secp256k1
  | mlDsa65 _ => .mlDsa65

def asBytes : Signature → Bytes
  | ed25519 bytes => bytes.val
  | secp256k1 bytes => bytes.val
  | mlDsa65 bytes => bytes.val

def serialize (s : Signature) : Except IoError Bytes :=
  seq (Codec.u8.write s.keyType.toU8) (.ok s.asBytes)

def deserializeReader : Reader Signature := do
  let keyType ← KeyType.read
  match keyType with
  | .ed25519 => ed25519 <$> Reader.exactly unexpectedEof 64
  | .secp256k1 => secp256k1 <$> Reader.exactly unexpectedEof 65
  | .mlDsa65 => mlDsa65 <$> Reader.exactly unexpectedEof mlDsa65SignatureLength

def codec : Codec Signature := ⟨serialize, deserializeReader⟩

theorem serialize_eq (s : Signature) : s.serialize = .ok (s.keyType.toU8 :: s.asBytes) := by
  rw [serialize, Codec.u8_write]
  rfl

theorem deserializeReader_eq_ok {bs rest : Bytes} {s : Signature} :
    deserializeReader bs = .ok (s, rest) ↔ bs = s.keyType.toU8 :: s.asBytes ++ rest := by
  constructor
  · intro h
    obtain ⟨t, mid, ht, hr⟩ := Reader.bind_eq_ok.mp h
    rw [KeyType.read_eq_ok.mp ht]
    cases t
    all_goals
      obtain ⟨bytes, hb, rfl⟩ := Reader.map_eq_ok.mp hr
      rw [Reader.exactly_eq_ok.mp hb]
      rfl
  · rintro rfl
    refine (Reader.bind_of_ok (KeyType.read_cons _ _)).trans ?_
    cases s with
    | ed25519 bytes => exact Reader.map_of_ok (Reader.exactly_append _ bytes rest)
    | secp256k1 bytes => exact Reader.map_of_ok (Reader.exactly_append _ bytes rest)
    | mlDsa65 bytes => exact Reader.map_of_ok (Reader.exactly_append _ bytes rest)

theorem lawful : codec.Lawful (fun _ => True) (fun _ => True) (fun _ => True) where
  fits_iff s := by simp [codec, serialize_eq]
  read_write {s p} _ hw rest := by
    cases (serialize_eq s).symm.trans hw
    exact deserializeReader_eq_ok.mpr rfl
  valid_of_read _ := trivial
  write_read {_ s _} hr _ := ⟨_, serialize_eq s, deserializeReader_eq_ok.mp hr⟩
  prefixFree := by
    refine Codec.PrefixFree.of_read_write ?_
    intro s p hw rest
    cases (serialize_eq s).symm.trans hw
    exact deserializeReader_eq_ok.mpr rfl

end Signature
end NearKit
