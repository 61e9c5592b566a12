import NearKit.SecretKeys

/-!
# Where public keys come from

Each constructor and each decoder of public keys makes its own check. A key goes through
the text and the wire unchanged exactly if it is valid, so that the question for each
origin is whether its check is the one of the decoders.
-/
namespace NearKit
open Borsh

namespace PublicKey

/-- The key goes through the text and the wire unchanged. -/
def RoundTrips [Crates] (k : PublicKey) : Prop :=
  fromStr k.display = .ok k ∧ ∃ bytes, codec.toVec k = .ok bytes ∧ codec.fromSlice bytes = .ok k

private theorem roundTrips_iff_isValid [Crates] {k : PublicKey} :
    k.RoundTrips ↔ k.isValid = true := by
  constructor
  · intro h
    exact (fromStr_eq_ok.mp h.1).2
  · intro hvalid
    refine ⟨fromStr_eq_ok.mpr ⟨rfl, hvalid⟩, _, serialize_eq k, ?_⟩
    exact lawful.fromSlice_toVec hvalid (serialize_eq k)

/-! ## The constructors

`none` is a panic. -/

variable [KeyCrates]

def ed25519FromBytes (bytes : ByteArr 32) : PublicKey := ed25519 bytes

def secp256k1FromBytes (bytes : ByteArr 64) : Option PublicKey :=
  if Crates.sec1Encoding (uncompressed bytes) then
    if Crates.secp256k1Point (uncompressed bytes) then some (secp256k1 bytes) else none
  else none

def secp256k1FromCompressed (bytes : ByteArr 33) : Option PublicKey :=
  if KeyCrates.sec1Compressed bytes then do
    let uncompressedBytes ← KeyCrates.secp256k1Decompressed bytes
    if h : uncompressedBytes.length = 65 then
      if uncompressedBytes.head? = some 4 then some (secp256k1 (withoutTag ⟨uncompressedBytes, h⟩))
      else none
    else none
  else none

def secp256k1FromUncompressed (bytes : ByteArr 65) : Option PublicKey :=
  if Crates.sec1Encoding bytes then
    if Crates.secp256k1Point bytes then some (secp256k1 (withoutTag bytes)) else none
  else none

def mlDsa65FromBytes (bytes : ByteArr mlDsa65PublicKeyLength) : PublicKey := mlDsa65 bytes

inductive Origin where
  | ed25519FromBytes (bytes : ByteArr 32)
  | secp256k1FromBytes (bytes : ByteArr 64)
  | secp256k1FromCompressed (bytes : ByteArr 33)
  | secp256k1FromUncompressed (bytes : ByteArr 65)
  | mlDsa65FromBytes (bytes : ByteArr mlDsa65PublicKeyLength)
  | fromStr (s : String)
  | deserialize (bytes : Bytes)
  | secretKey (secret : SecretKey)

def Origin.key : Origin → Option PublicKey
  | ed25519FromBytes bytes => some (.ed25519FromBytes bytes)
  | secp256k1FromBytes bytes => PublicKey.secp256k1FromBytes bytes
  | secp256k1FromCompressed bytes => PublicKey.secp256k1FromCompressed bytes
  | secp256k1FromUncompressed bytes => PublicKey.secp256k1FromUncompressed bytes
  | mlDsa65FromBytes bytes => some (.mlDsa65FromBytes bytes)
  | fromStr s => (PublicKey.fromStr s).toOption
  | deserialize bytes => (codec.read bytes).toOption.map Prod.fst
  | secretKey secret => secret.publicKey

end PublicKey

/-! ## The checks of the origins -/

variable [KeyCrates]

/-- What is relied on of the curve libraries. -/
structure KeyLaws : Prop where
  /-- A SEC1 encoding of 65 bytes has the tag of those that are not compressed. -/
  sec1_tag : ∀ bytes : ByteArr 65, Crates.sec1Encoding bytes = true → bytes.val.head? = some 4
  /-- The point of a compressed encoding, not compressed, is accepted again. -/
  decompressed : ∀ (bytes : ByteArr 33) (point : ByteArr 65),
    KeyCrates.secp256k1Decompressed bytes = some point.val →
      Crates.sec1Encoding point = true ∧ Crates.secp256k1Point point = true
  /-- The public keys of both curves are accepted as points. -/
  secp256k1Public : ∀ (secret : ByteArr 32) (point : ByteArr 65),
    KeyCrates.secp256k1Scalar secret = true → KeyCrates.secp256k1Public secret = point.val →
      Crates.sec1Encoding point = true ∧ Crates.secp256k1Point point = true
  ed25519Public : ∀ secret, Crates.ed25519Point (KeyCrates.ed25519Public secret) = true

namespace PublicKey

theorem isValid_secp256k1 {bytes : ByteArr 64} :
    (secp256k1 bytes).isValid = true ↔
      Crates.sec1Encoding (uncompressed bytes) = true ∧
        Crates.secp256k1Point (uncompressed bytes) = true :=
  Bool.and_eq_true_iff

theorem isValid_withoutTag (laws : KeyLaws) {point : ByteArr 65}
    (hsec1 : Crates.sec1Encoding point = true) (hpoint : Crates.secp256k1Point point = true) :
    (secp256k1 (withoutTag point)).isValid = true := by
  apply isValid_secp256k1.mpr
  rw [uncompressed_withoutTag (laws.sec1_tag point hsec1)]
  exact ⟨hsec1, hpoint⟩

private theorem isValid_of_secp256k1FromBytes {bytes : ByteArr 64} {k : PublicKey}
    (h : secp256k1FromBytes bytes = some k) : k.isValid = true := by
  unfold secp256k1FromBytes at h
  split at h
  · next hsec1 =>
    split at h
    · next hpoint =>
      cases h
      exact isValid_secp256k1.mpr ⟨hsec1, hpoint⟩
    · cases h
  · cases h

private theorem isValid_of_secp256k1FromCompressed (laws : KeyLaws) {bytes : ByteArr 33}
    {k : PublicKey} (h : secp256k1FromCompressed bytes = some k) : k.isValid = true := by
  unfold secp256k1FromCompressed at h
  split at h
  · obtain ⟨enc, henc, h⟩ := Option.bind_eq_some_iff.mp h
    split at h
    · next hlen =>
      split at h
      · cases h
        obtain ⟨hsec1, hpoint⟩ := laws.decompressed bytes ⟨enc, hlen⟩ henc
        exact isValid_withoutTag laws hsec1 hpoint
      · cases h
    · cases h
  · cases h

private theorem isValid_of_secp256k1FromUncompressed (laws : KeyLaws) {bytes : ByteArr 65}
    {k : PublicKey} (h : secp256k1FromUncompressed bytes = some k) : k.isValid = true := by
  unfold secp256k1FromUncompressed at h
  split at h
  · next hsec1 =>
    split at h
    · next hpoint =>
      cases h
      exact isValid_withoutTag laws hsec1 hpoint
    · cases h
  · cases h

theorem isValid_of_publicKey (laws : KeyLaws) {secret : SecretKey} {k : PublicKey}
    (h : secret.publicKey = some k) : k.isValid = true := by
  cases secret with
  | ed25519 bytes =>
    cases h
    exact laws.ed25519Public bytes
  | secp256k1 bytes =>
    simp only [SecretKey.publicKey] at h
    split at h
    · next hscalar =>
      split at h
      · next hlen =>
        cases h
        obtain ⟨hsec1, hpoint⟩ := laws.secp256k1Public bytes ⟨_, hlen⟩ hscalar rfl
        exact isValid_withoutTag laws hsec1 hpoint
      · cases h
    · cases h
  | mlDsa65 key =>
    cases key with
    | seed bytes =>
      cases h
      rfl
    | expanded bytes =>
      simp only [SecretKey.publicKey] at h
      split at h
      · cases h
        rfl
      · cases h

private theorem isValid_of_deserialize {bytes : Bytes} {k : PublicKey}
    (h : (Origin.deserialize bytes).key = some k) : k.isValid = true := by
  obtain ⟨⟨l, rest⟩, hread, rfl⟩ := Option.map_eq_some_iff.mp h
  cases hbytes : codec.read bytes with
  | error e =>
    rw [hbytes] at hread
    cases hread
  | ok result =>
    rw [hbytes] at hread
    cases hread
    exact lawful.valid_of_read hbytes

private theorem isValid_of_fromStr {s : String} {k : PublicKey}
    (h : (Origin.fromStr s).key = some k) : k.isValid = true := by
  cases hs : fromStr s with
  | error e =>
    rw [Origin.key, hs] at h
    cases h
  | ok l =>
    rw [Origin.key, hs] at h
    cases h
    exact (fromStr_eq_ok.mp hs).2

/-- Every origin but one makes the check of the decoders. -/
theorem Origin.isValid_iff (laws : KeyLaws) {origin : Origin} {k : PublicKey}
    (h : origin.key = some k) :
    k.isValid = true ↔
      ∀ bytes, origin = .ed25519FromBytes bytes → Crates.ed25519Point bytes = true := by
  cases origin with
  | ed25519FromBytes bytes =>
    cases h
    constructor
    · rintro hvalid _ ⟨⟩
      exact hvalid
    · intro hpoint
      exact hpoint bytes rfl
  | secp256k1FromBytes bytes => exact iff_of_true (isValid_of_secp256k1FromBytes h) nofun
  | secp256k1FromCompressed bytes =>
    exact iff_of_true (isValid_of_secp256k1FromCompressed laws h) nofun
  | secp256k1FromUncompressed bytes =>
    exact iff_of_true (isValid_of_secp256k1FromUncompressed laws h) nofun
  | mlDsa65FromBytes bytes =>
    cases h
    exact iff_of_true rfl nofun
  | fromStr s => exact iff_of_true (isValid_of_fromStr h) nofun
  | deserialize bytes => exact iff_of_true (isValid_of_deserialize h) nofun
  | secretKey secret => exact iff_of_true (isValid_of_publicKey laws h) nofun

/-- A key that a constructor or a decoder returns goes through the text and the wire
unchanged, but for those that `ed25519FromBytes` makes of bytes that are no point. -/
theorem Origin.roundTrips_iff (laws : KeyLaws) {origin : Origin} {k : PublicKey}
    (h : origin.key = some k) :
    k.RoundTrips ↔
      ∀ bytes, origin = .ed25519FromBytes bytes → Crates.ed25519Point bytes = true :=
  roundTrips_iff_isValid.trans (Origin.isValid_iff laws h)

end PublicKey

/-! ## A key that no decoder accepts -/

omit [KeyCrates] in
theorem KeyCrates.sample_laws : @KeyLaws KeyCrates.sample := by
  let _ := KeyCrates.sample
  refine ⟨?_, nofun, ?_, ?_⟩
  · intro bytes h
    exact beq_iff_eq.mp h
  · intro secret point _ h
    refine ⟨?_, rfl⟩
    show (point.val.head? == some 4) = true
    rw [← h]
    rfl
  · intro secret
    exact decide_eq_true (samplePublic_point secret)

namespace PublicKey

omit [KeyCrates] in
/-- The encoding of a point that is accepted goes through both codecs. -/
theorem Origin.roundTrips_sample :
    @RoundTrips KeyCrates.sample.toCrates (.ed25519FromBytes (.zeros 32)) := by
  let _ := KeyCrates.sample
  have hkey : (Origin.ed25519FromBytes (.zeros 32)).key = some (.ed25519FromBytes (.zeros 32)) := rfl
  apply (Origin.roundTrips_iff KeyCrates.sample_laws hkey).mpr
  rintro bytes ⟨⟩
  rfl

/-- The encoding of `y = 2`, to which no point of the curve belongs. -/
def notAPoint : ByteArr 32 := ⟨2 :: List.replicate 31 0, rfl⟩

omit [KeyCrates] in
/-- The constructor returns a key that both decoders reject. -/
theorem ed25519FromBytes_rejected :
    @Origin.key KeyCrates.sample (.ed25519FromBytes notAPoint) = some (.ed25519 notAPoint) ∧
      @fromStr KeyCrates.sample.toCrates (display (.ed25519 notAPoint)) =
        .error .invalidCurvePoint ∧
      (@codec KeyCrates.sample.toCrates).toVec (.ed25519 notAPoint) = .ok (0 :: notAPoint.val) ∧
      (@codec KeyCrates.sample.toCrates).fromSlice (0 :: notAPoint.val) =
        .error ⟨.invalidData, "invalid ed25519 curve point"⟩ := by
  let _ := KeyCrates.sample
  refine ⟨rfl, ?_, serialize_eq _, rfl⟩
  have htext : display (.ed25519 notAPoint) =
      prefixed KeyType.ed25519.asStr (Base58.encode notAPoint.val) := rfl
  have hdata : decodeBase58 (Base58.encode notAPoint.val) = .ok notAPoint.val :=
    decodeBase58_eq_ok.mpr rfl
  rw [htext, fromStr_prefixed, hdata]
  rfl

end PublicKey
end NearKit
