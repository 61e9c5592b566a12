import NearKit.KeyTexts

/-!
# Secret keys

An ML-DSA-65 key is held as its seed or expanded, whichever was imported, and is written in
the form held. What is asked of the curve and lattice libraries is in `KeyCrates`.
-/
namespace NearKit
open Borsh

abbrev mlDsa65SeedLength : ℕ := 32
abbrev mlDsa65SecretKeyLength : ℕ := 4032

inductive MlDsa65SecretKey where
  | seed (bytes : ByteArr mlDsa65SeedLength)
  | expanded (bytes : ByteArr mlDsa65SecretKeyLength)
  deriving DecidableEq

/-- What the code asks of the curve and lattice libraries. -/
class KeyCrates extends Crates where
  /-- `k256::SecretKey::from_bytes` accepts the scalar. -/
  secp256k1Scalar : ByteArr 32 → Bool
  /-- `ExpandedSigningKey::from_expanded` does not panic. -/
  mlDsa65Expanded : ByteArr mlDsa65SecretKeyLength → Bool
  /-- `ExpandedSigningKey::from_seed`, in its expanded encoding. -/
  mlDsa65Expand : ByteArr mlDsa65SeedLength → ByteArr mlDsa65SecretKeyLength
  ed25519Public : ByteArr 32 → ByteArr 32
  /-- The SEC1 encoding of the point of a scalar, not compressed. -/
  secp256k1Public : ByteArr 32 → Bytes
  mlDsa65Public : MlDsa65SecretKey → ByteArr mlDsa65PublicKeyLength
  /-- `Sec1Point::from_bytes` accepts the compressed encoding. -/
  sec1Compressed : ByteArr 33 → Bool
  /-- The encoding, not compressed, of the point that `AffinePoint::from_sec1_point` finds. -/
  secp256k1Decompressed : ByteArr 33 → Option Bytes

/-- The ed25519 public keys of the secrets of 32 zeros and of 32 ones. -/
def samplePublic (seed : ByteArr 32) : ByteArr 32 :=
  if seed = .zeros 32 then
    ⟨[59, 106, 39, 188, 206, 182, 164, 45, 98, 163, 168, 208, 42, 111, 13, 115, 101, 50, 21, 119,
      29, 226, 67, 166, 58, 192, 72, 161, 139, 89, 218, 41], rfl⟩
  else
    ⟨[138, 136, 227, 221, 116, 9, 241, 149, 253, 82, 219, 45, 60, 186, 93, 114, 202, 103, 9, 191,
      29, 148, 18, 27, 243, 116, 136, 1, 180, 15, 111, 92], rfl⟩

/-- The generator of secp256k1, the public key of the scalar 1. -/
def secp256k1Generator : ByteArr 64 :=
  ⟨[121, 190, 102, 126, 249, 220, 187, 172, 85, 160, 98, 149, 206, 135, 11, 7, 2, 155, 252, 219, 45,
    206, 40, 217, 89, 242, 129, 91, 22, 248, 23, 152, 72, 58, 218, 119, 38, 163, 196, 101, 93, 164,
    251, 252, 14, 17, 8, 168, 253, 23, 180, 72, 166, 133, 84, 25, 156, 71, 208, 143, 251, 16, 212,
    184], rfl⟩

/-- The SHA-256 of the sample message to sign, and of that digest. -/
def sampleDigest (bytes : Bytes) : ByteArr 32 :=
  if bytes.length = 32 then
    ⟨[226, 182, 139, 66, 5, 66, 147, 76, 156, 138, 189, 25, 107, 66, 21, 248, 36, 146, 158, 46,
      113, 200, 26, 209, 189, 154, 171, 35, 131, 107, 153, 136], rfl⟩
  else
    ⟨[158, 92, 207, 249, 44, 139, 72, 125, 26, 168, 135, 215, 193, 49, 209, 210, 137, 213, 89,
      242, 65, 17, 213, 17, 166, 227, 66, 73, 245, 135, 11, 251], rfl⟩

/-- Answers right for the samples: `y = 2` is no point of the curve. -/
@[reducible] def KeyCrates.sample : KeyCrates where
  toCrates := { Crates.accepting with
    ed25519Point := fun bytes => bytes.val ≠ 2 :: List.replicate 31 0
    sec1Encoding := fun bytes => bytes.val.head? == some 4
    sha256 := sampleDigest }
  secp256k1Scalar bytes := bytes.val ≠ List.replicate 32 0
  mlDsa65Expanded _ := true
  mlDsa65Expand _ := .zeros mlDsa65SecretKeyLength
  ed25519Public := samplePublic
  secp256k1Public _ := 4 :: secp256k1Generator.val
  mlDsa65Public _ := .zeros mlDsa65PublicKeyLength
  sec1Compressed bytes := bytes.val.head? == some 2 || bytes.val.head? == some 3
  secp256k1Decompressed _ := none

theorem samplePublic_point (seed : ByteArr 32) :
    (samplePublic seed).val ≠ 2 :: List.replicate 31 0 := by
  unfold samplePublic
  split <;> decide

inductive SecretKey where
  | ed25519 (bytes : ByteArr 32)
  | secp256k1 (bytes : ByteArr 32)
  | mlDsa65 (key : MlDsa65SecretKey)
  deriving DecidableEq

/-- The coordinates of a point that is not compressed. -/
def PublicKey.withoutTag (bytes : ByteArr 65) : ByteArr 64 :=
  ⟨bytes.val.tail, by rw [List.length_tail, bytes.2]⟩

theorem PublicKey.uncompressed_withoutTag {bytes : ByteArr 65} (h : bytes.val.head? = some 4) :
    uncompressed (withoutTag bytes) = bytes := by
  apply Subtype.ext
  exact List.cons_head?_tail h

namespace SecretKey

def keyType : SecretKey → KeyType
  | ed25519 _ => .ed25519
  | secp256k1 _ => .secp256k1
  | mlDsa65 _ => .mlDsa65

def asBytes : SecretKey → Bytes
  | ed25519 bytes => bytes.val
  | secp256k1 bytes => bytes.val
  | mlDsa65 (.seed bytes) => bytes.val
  | mlDsa65 (.expanded bytes) => bytes.val

def display (k : SecretKey) : String := k.keyType.display k.asBytes

def ed25519FromBytes (bytes : ByteArr 32) : SecretKey := ed25519 bytes

def mlDsa65FromSeed (bytes : ByteArr mlDsa65SeedLength) : SecretKey := mlDsa65 (.seed bytes)

variable [KeyCrates]

/-- `k256::SecretKey`: a scalar that the library accepts. -/
abbrev Scalar : Type := { bytes : ByteArr 32 // KeyCrates.secp256k1Scalar bytes = true }

def secp256k1FromBytes (bytes : ByteArr 32) : Except ParseKeyError SecretKey :=
  if KeyCrates.secp256k1Scalar bytes then .ok (secp256k1 bytes) else .error .invalidScalar

def mlDsa65FromExpanded (bytes : ByteArr mlDsa65SecretKeyLength) : Except ParseKeyError SecretKey :=
  if KeyCrates.mlDsa65Expanded bytes then .ok (mlDsa65 (.expanded bytes)) else .error .invalidScalar

def toMlDsa65Expanded : SecretKey → Option SecretKey
  | mlDsa65 (.expanded bytes) => some (mlDsa65 (.expanded bytes))
  | mlDsa65 (.seed bytes) => some (mlDsa65 (.expanded (KeyCrates.mlDsa65Expand bytes)))
  | ed25519 _ | secp256k1 _ => none

/-! The random bytes of a generator are its argument. -/

def generateEd25519 (random : ByteArr 32) : SecretKey := ed25519 random

def generateSecp256k1 (random : Scalar) : SecretKey := secp256k1 random.val

def generateMlDsa65 (random : ByteArr mlDsa65SeedLength) : SecretKey := mlDsa65 (.seed random)

def generateMlDsa65Expanded (random : ByteArr mlDsa65SeedLength) : Option SecretKey :=
  (generateMlDsa65 random).toMlDsa65Expanded

def fromStr (s : String) : Except ParseKeyError SecretKey := do
  let (keyType, data) ← parsePrefixed s
  match keyType with
  | .mlDsa65 =>
    if h : data.length = mlDsa65SeedLength then .ok (mlDsa65 (.seed ⟨data, h⟩))
    else if h : data.length = mlDsa65SecretKeyLength then mlDsa65FromExpanded ⟨data, h⟩
    else .error (.invalidLength mlDsa65SeedLength data.length)
  | .ed25519 =>
    if data.length = 32 ∨ data.length = 64 then
      -- the first half of the 64 bytes is the seed
      ed25519 <$> tryInto 32 (data.take 32) .invalidFormat
    else .error (.invalidLength 32 data.length)
  | .secp256k1 =>
    if data.length = 32 then do
      let bytes ← tryInto 32 (data.take 32) .invalidFormat
      if KeyCrates.secp256k1Scalar bytes then .ok (secp256k1 bytes) else .error .invalidScalar
    else .error (.invalidLength 32 data.length)

/-- Derives the public key; the source panics where the libraries reject the secret. -/
def publicKey : SecretKey → Option PublicKey
  | ed25519 bytes => some (.ed25519 (KeyCrates.ed25519Public bytes))
  | secp256k1 bytes =>
    if KeyCrates.secp256k1Scalar bytes then
      let uncompressed := KeyCrates.secp256k1Public bytes
      if h : uncompressed.length = 65 then some (.secp256k1 (PublicKey.withoutTag ⟨uncompressed, h⟩))
      else none
    else none
  | mlDsa65 (.seed bytes) => some (.mlDsa65 (KeyCrates.mlDsa65Public (.seed bytes)))
  | mlDsa65 (.expanded bytes) =>
    if KeyCrates.mlDsa65Expanded bytes then
      some (.mlDsa65 (KeyCrates.mlDsa65Public (.expanded bytes)))
    else none

/-! ## What the parser accepts -/

def isValid : SecretKey → Bool
  | ed25519 _ => true
  | secp256k1 bytes => KeyCrates.secp256k1Scalar bytes
  | mlDsa65 (.seed _) => true
  | mlDsa65 (.expanded bytes) => KeyCrates.mlDsa65Expanded bytes

theorem secp256k1FromBytes_eq_ok {bytes : ByteArr 32} {k : SecretKey} :
    secp256k1FromBytes bytes = .ok k ↔ k = secp256k1 bytes ∧ k.isValid = true := by
  unfold secp256k1FromBytes
  constructor
  · intro h
    split at h
    · next hscalar =>
      cases h
      exact ⟨rfl, hscalar⟩
    · cases h
  · rintro ⟨rfl, hvalid⟩
    exact if_pos hvalid

theorem mlDsa65FromExpanded_eq_ok {bytes : ByteArr mlDsa65SecretKeyLength} {k : SecretKey} :
    mlDsa65FromExpanded bytes = .ok k ↔ k = mlDsa65 (.expanded bytes) ∧ k.isValid = true := by
  unfold mlDsa65FromExpanded
  constructor
  · intro h
    split at h
    · next hexpanded =>
      cases h
      exact ⟨rfl, hexpanded⟩
    · cases h
  · rintro ⟨rfl, hvalid⟩
    exact if_pos hvalid

theorem fromStr_display {k : SecretKey} (hvalid : k.isValid = true) : fromStr k.display = .ok k := by
  refine bind_eq_ok.mpr ⟨(k.keyType, k.asBytes), parsePrefixed_eq_ok.mpr rfl, ?_⟩
  cases k with
  | ed25519 bytes =>
    have hlen : bytes.val.length = 32 := bytes.2
    have htake : bytes.val.take 32 = bytes.val := List.take_of_length_le hlen.le
    refine (if_pos (Or.inl hlen)).trans ?_
    exact map_tryInto_eq_ok.mpr ⟨bytes, htake, rfl⟩
  | secp256k1 bytes =>
    have hlen : bytes.val.length = 32 := bytes.2
    have htake : bytes.val.take 32 = bytes.val := List.take_of_length_le hlen.le
    have hscalar : KeyCrates.secp256k1Scalar bytes = true := hvalid
    refine (if_pos hlen).trans ?_
    exact bind_eq_ok.mpr ⟨bytes, tryInto_eq_ok.mpr htake, if_pos hscalar⟩
  | mlDsa65 key =>
    cases key with
    | seed bytes => exact dif_pos bytes.2
    | expanded bytes =>
      have hne : bytes.val.length ≠ mlDsa65SeedLength := by
        rw [bytes.2]
        decide
      refine (dif_neg hne).trans ((dif_pos bytes.2).trans ?_)
      exact mlDsa65FromExpanded_eq_ok.mpr ⟨rfl, hvalid⟩

/-- A string with 64 bytes after the prefix is read as its seed. -/
theorem fromStr_of_length_64 {data : Bytes} (h : data.length = 64) :
    fromStr (KeyType.ed25519.display data) =
      .ok (ed25519 ⟨data.take 32, by rw [List.length_take, h]; rfl⟩) := by
  refine bind_eq_ok.mpr ⟨(.ed25519, data), parsePrefixed_eq_ok.mpr rfl, ?_⟩
  refine (if_pos (Or.inr h)).trans ?_
  exact map_tryInto_eq_ok.mpr ⟨_, rfl, rfl⟩

/-- What the parser accepts is valid, and of the type that the prefix names. -/
theorem spec_of_fromStr {s : String} {k : SecretKey} (h : fromStr s = .ok k) :
    k.isValid = true ∧ ∃ data, s = k.keyType.display data := by
  obtain ⟨⟨t, data⟩, hparse, h⟩ := bind_eq_ok.mp h
  have hs := parsePrefixed_eq_ok.mp hparse
  cases t with
  | ed25519 =>
    simp only at h
    split at h
    · obtain ⟨bytes, -, rfl⟩ := map_tryInto_eq_ok.mp h
      exact ⟨rfl, data, hs⟩
    · cases h
  | secp256k1 =>
    simp only at h
    split at h
    · obtain ⟨bytes, -, h⟩ := bind_eq_ok.mp h
      split at h
      · next hscalar =>
        cases h
        exact ⟨hscalar, data, hs⟩
      · cases h
    · cases h
  | mlDsa65 =>
    simp only at h
    split at h
    · cases h
      exact ⟨rfl, data, hs⟩
    · split at h
      · obtain ⟨rfl, hvalid⟩ := mlDsa65FromExpanded_eq_ok.mp h
        exact ⟨hvalid, data, hs⟩
      · cases h

/-- The ways to a key: the parser, the generators and the validating constructors. A seed
phrase ends in `ed25519FromBytes` or `mlDsa65FromSeed`. -/
inductive Obtained : SecretKey → Prop
  | fromStr {s : String} {k : SecretKey} : fromStr s = .ok k → Obtained k
  | generateEd25519 (random : ByteArr 32) : Obtained (generateEd25519 random)
  | generateSecp256k1 (random : Scalar) : Obtained (generateSecp256k1 random)
  | generateMlDsa65 (random : ByteArr mlDsa65SeedLength) : Obtained (generateMlDsa65 random)
  | generateMlDsa65Expanded {random : ByteArr mlDsa65SeedLength} {k : SecretKey} :
    generateMlDsa65Expanded random = some k → Obtained k
  | ed25519FromBytes (bytes : ByteArr 32) : Obtained (ed25519FromBytes bytes)
  | secp256k1FromBytes {bytes : ByteArr 32} {k : SecretKey} :
    secp256k1FromBytes bytes = .ok k → Obtained k
  | mlDsa65FromSeed (bytes : ByteArr mlDsa65SeedLength) : Obtained (mlDsa65FromSeed bytes)
  | mlDsa65FromExpanded {bytes : ByteArr mlDsa65SecretKeyLength} {k : SecretKey} :
    mlDsa65FromExpanded bytes = .ok k → Obtained k
  | toMlDsa65Expanded {k l : SecretKey} : Obtained k → k.toMlDsa65Expanded = some l → Obtained l

/-- Expanding a key gives a valid one if the library accepts the keys that it expands. -/
theorem isValid_of_toMlDsa65Expanded
    (hexpand : ∀ seed, KeyCrates.mlDsa65Expanded (KeyCrates.mlDsa65Expand seed) = true)
    {k l : SecretKey} (hk : k.isValid = true) (h : k.toMlDsa65Expanded = some l) :
    l.isValid = true := by
  cases k with
  | ed25519 bytes => cases h
  | secp256k1 bytes => cases h
  | mlDsa65 key =>
    cases key with
    | seed bytes =>
      cases h
      exact hexpand bytes
    | expanded bytes =>
      cases h
      exact hk

theorem Obtained.isValid
    (hexpand : ∀ seed, KeyCrates.mlDsa65Expanded (KeyCrates.mlDsa65Expand seed) = true)
    {k : SecretKey} (h : Obtained k) : k.isValid = true := by
  induction h with
  | fromStr h => exact (spec_of_fromStr h).1
  | generateEd25519 => rfl
  | generateSecp256k1 random => exact random.2
  | generateMlDsa65 => rfl
  | generateMlDsa65Expanded h => exact isValid_of_toMlDsa65Expanded hexpand rfl h
  | ed25519FromBytes => rfl
  | secp256k1FromBytes h => exact (secp256k1FromBytes_eq_ok.mp h).2
  | mlDsa65FromSeed => rfl
  | mlDsa65FromExpanded h => exact (mlDsa65FromExpanded_eq_ok.mp h).2
  | toMlDsa65Expanded _ h ih => exact isValid_of_toMlDsa65Expanded hexpand ih h

end SecretKey

/-! ## The four codecs together -/

variable [KeyCrates]

/-- The text codecs of signatures, secret keys and key handles are consistent: each reads
back what it writes, whichever form a secret key was given in, no prefix leads to a value
of another type, and the handles add exactly the hashes to the public keys. -/
theorem text_codecs
    (hexpand : ∀ seed, KeyCrates.mlDsa65Expanded (KeyCrates.mlDsa65Expand seed) = true) :
    (∀ x : Signature, Signature.fromStr x.display = .ok x) ∧
    (∀ k, SecretKey.Obtained k → SecretKey.fromStr k.display = .ok k) ∧
    (∀ h : PublicKeyHandle, h.isValid = true → PublicKeyHandle.fromStr h.display = .ok h) ∧
    (∀ s k, SecretKey.fromStr s = .ok k → SecretKey.fromStr k.display = SecretKey.fromStr s) ∧
    (∀ seed tail : ByteArr 32,
      SecretKey.fromStr (KeyType.ed25519.display (seed.val ++ tail.val)) = .ok (.ed25519 seed) ∧
        SecretKey.fromStr (KeyType.ed25519.display seed.val) = .ok (.ed25519 seed)) ∧
    (∀ (t : KeyType) (payload : String),
      (∀ x, Signature.fromStr (prefixed t.asStr payload) = .ok x → x.keyType = t) ∧
      (∀ k, SecretKey.fromStr (prefixed t.asStr payload) = .ok k → k.keyType = t) ∧
      (∀ k, PublicKey.fromStr (prefixed t.asStr payload) = .ok k → k.keyType = t) ∧
      ∀ h, PublicKeyHandle.fromStr (prefixed t.asStr payload) = .ok h → h.keyType = t) ∧
    (∀ s, (∃ h, PublicKeyHandle.fromStr s = .ok h) ↔
      (∃ k, PublicKey.fromStr s = .ok k) ∨
        ∃ hash : ByteArr mlDsa65HashLength,
          s = prefixed mlDsa65HashPrefix (Base58.encode hash.val)) ∧
    ∀ payload, PublicKey.fromStr (prefixed mlDsa65HashPrefix payload) = .error .mlDsa65HashHandle := by
  refine ⟨?_, ?_, ?_, ?_, ?_, ?_, ?_, PublicKey.fromStr_hashPrefix⟩
  · intro x
    exact Signature.fromStr_eq_ok.mpr rfl
  · intro k hk
    exact SecretKey.fromStr_display (hk.isValid hexpand)
  · intro h hvalid
    exact PublicKeyHandle.fromStr_display hvalid
  · intro s k h
    rw [h]
    exact SecretKey.fromStr_display (SecretKey.spec_of_fromStr h).1
  · intro seed tail
    refine ⟨?_, SecretKey.fromStr_display (k := .ed25519 seed) rfl⟩
    have hlen : (seed.val ++ tail.val).length = 64 := by
      rw [List.length_append, seed.2, tail.2]
    rw [SecretKey.fromStr_of_length_64 hlen]
    congr
    exact List.take_left' seed.2
  · intro t payload
    refine ⟨?_, ?_, ?_, ?_⟩
    · intro x h
      exact (KeyType.eq_of_prefixed_eq_display (Signature.fromStr_eq_ok.mp h)).symm
    · intro k h
      obtain ⟨-, data, hs⟩ := SecretKey.spec_of_fromStr h
      exact (KeyType.eq_of_prefixed_eq_display hs).symm
    · intro k h
      exact (KeyType.eq_of_prefixed_eq_display (PublicKey.fromStr_eq_ok.mp h).1).symm
    · intro h heq
      rcases PublicKeyHandle.fromStr_eq_ok_iff.mp heq with ⟨k, hk, rfl⟩ | ⟨hash, hs, rfl⟩
      · exact (KeyType.eq_of_prefixed_eq_display (PublicKey.fromStr_eq_ok.mp hk).1).symm
      · have hprefix := prefixed_inj t.colon_not_mem_asStr colon_not_mem_hashPrefix hs
        exact absurd hprefix.1 (asStr_ne_hashPrefix t)
  · intro s
    constructor
    · rintro ⟨h, heq⟩
      rcases PublicKeyHandle.fromStr_eq_ok_iff.mp heq with ⟨k, hk, -⟩ | ⟨hash, hs, -⟩
      · exact .inl ⟨k, hk⟩
      · exact .inr ⟨hash, hs⟩
    · rintro (⟨k, hk⟩ | ⟨hash, hs⟩)
      · exact ⟨.full k, PublicKeyHandle.fromStr_eq_ok_iff.mpr (.inl ⟨k, hk, rfl⟩)⟩
      · exact ⟨.mlDsa65Hash hash, PublicKeyHandle.fromStr_eq_ok_iff.mpr (.inr ⟨hash, hs, rfl⟩)⟩

omit [KeyCrates] in
theorem text_codecs_sample :
    @SecretKey.fromStr KeyCrates.sample (SecretKey.ed25519FromBytes (.zeros 32)).display =
      .ok (.ed25519FromBytes (.zeros 32)) := by
  let _ := KeyCrates.sample
  have hexpand (seed : ByteArr mlDsa65SeedLength) :
      KeyCrates.mlDsa65Expanded (KeyCrates.mlDsa65Expand seed) = true := rfl
  obtain ⟨-, hsecret, -⟩ := text_codecs hexpand
  exact hsecret _ (.ed25519FromBytes (.zeros 32))

end NearKit
