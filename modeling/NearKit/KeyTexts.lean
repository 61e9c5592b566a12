import NearKit.Base58Text
import NearKit.Keys
import NearKit.TextSearch

/-!
# Keys and signatures as text

A key type, a colon and the bytes in base58. The parsers of public keys, secret keys,
signatures and key handles begin alike, and each goes on with the lengths and the checks
of its own type.
-/
namespace NearKit
open Borsh

/-- The error messages of the base58 library are left out. -/
inductive ParseKeyError where
  | invalidFormat
  | unknownKeyType (keyType : String)
  | invalidBase58
  | invalidLength (expected actual : ℕ)
  | invalidCurvePoint
  | invalidScalar
  | mlDsa65HashHandle
  deriving DecidableEq

/-! ## Prefixes -/

/-- A prefix and a payload, as `Display` writes them. -/
def prefixed (keyType payload : String) : String := keyType ++ ":" ++ payload

theorem splitOnce_prefixed {keyType : String} (h : ':' ∉ keyType.toList) (payload : String) :
    splitOnce ':' (prefixed keyType payload) = some (keyType, payload) :=
  splitOnce_append h payload

theorem prefixed_inj {s t u v : String} (hs : ':' ∉ s.toList) (ht : ':' ∉ t.toList)
    (h : prefixed s u = prefixed t v) : s = t ∧ u = v := by
  have hsplit := congrArg (splitOnce ':') h
  rw [splitOnce_prefixed hs, splitOnce_prefixed ht] at hsplit
  exact Prod.mk.inj (Option.some.inj hsplit)

/-- A slice as an array, with the error for a slice of another length. -/
def tryInto (n : ℕ) (data : Bytes) (e : ParseKeyError) : Except ParseKeyError (ByteArr n) :=
  if h : data.length = n then .ok ⟨data, h⟩ else .error e

theorem tryInto_eq_ok {n : ℕ} {data : Bytes} {e : ParseKeyError} {bytes : ByteArr n} :
    tryInto n data e = .ok bytes ↔ data = bytes.val := by
  unfold tryInto
  constructor
  · intro h
    split at h
    · cases h
      rfl
    · cases h
  · rintro rfl
    exact dif_pos bytes.2

theorem map_tryInto_eq_ok {α : Type} {n : ℕ} {data : Bytes} {e : ParseKeyError} {f : ByteArr n → α}
    {a : α} : f <$> tryInto n data e = .ok a ↔ ∃ bytes, data = bytes.val ∧ f bytes = a := by
  constructor
  · intro h
    cases hbytes : tryInto n data e with
    | error e =>
      rw [hbytes] at h
      cases h
    | ok bytes =>
      rw [hbytes] at h
      cases h
      exact ⟨bytes, tryInto_eq_ok.mp hbytes, rfl⟩
  · rintro ⟨bytes, hdata, rfl⟩
    rw [tryInto_eq_ok.mpr hdata]
    rfl

namespace KeyType

def asStr : KeyType → String
  | ed25519 => "ed25519"
  | secp256k1 => "secp256k1"
  | mlDsa65 => "ml-dsa-65"

def signatureLength : KeyType → ℕ
  | ed25519 => 64
  | secp256k1 => 65
  | mlDsa65 => mlDsa65SignatureLength

/-- The key type of a prefix, with the error of the parsers. -/
def ofPrefix (keyType : String) : Except ParseKeyError KeyType :=
  if keyType = "ed25519" then .ok ed25519
  else if keyType = "secp256k1" then .ok secp256k1
  else if keyType = "ml-dsa-65" then .ok mlDsa65
  else .error (.unknownKeyType keyType)

theorem ofPrefix_eq_ok {keyType : String} {t : KeyType} :
    ofPrefix keyType = .ok t ↔ keyType = t.asStr := by
  unfold ofPrefix
  constructor
  · intro h
    split at h
    · cases h
      assumption
    · split at h
      · cases h
        assumption
      · split at h
        · cases h
          assumption
        · cases h
  · rintro rfl
    cases t <;> rfl

theorem asStr_injective : Function.Injective asStr := by
  intro s t h
  cases s <;> cases t <;> first | rfl | exact absurd h (by decide)

theorem colon_not_mem_asStr (t : KeyType) : ':' ∉ t.asStr.toList := by
  cases t <;> decide

def display (t : KeyType) (bytes : Bytes) : String := prefixed t.asStr (Base58.encode bytes)

theorem eq_of_prefixed_eq_display {s t : KeyType} {payload : String} {bs : Bytes}
    (h : prefixed s.asStr payload = t.display bs) : s = t :=
  asStr_injective (prefixed_inj s.colon_not_mem_asStr t.colon_not_mem_asStr h).1

end KeyType

def decodeBase58 (dataStr : String) : Except ParseKeyError Bytes :=
  match Base58.decode dataStr with
  | some data => .ok data
  | none => .error .invalidBase58

theorem decodeBase58_eq_ok {dataStr : String} {data : Bytes} :
    decodeBase58 dataStr = .ok data ↔ dataStr = Base58.encode data := by
  rw [eq_comm (a := dataStr), ← Base58.decode_eq_some]
  unfold decodeBase58
  cases Base58.decode dataStr <;> simp

/-- What the parsers of secret keys and signatures do first. -/
def parsePrefixed (s : String) : Except ParseKeyError (KeyType × Bytes) :=
  match splitOnce ':' s with
  | none => .error .invalidFormat
  | some (keyType, dataStr) => do
    let keyType ← KeyType.ofPrefix keyType
    let data ← decodeBase58 dataStr
    return (keyType, data)

theorem parsePrefixed_eq_ok {s : String} {t : KeyType} {data : Bytes} :
    parsePrefixed s = .ok (t, data) ↔ s = t.display data := by
  constructor
  · intro h
    unfold parsePrefixed at h
    cases hsplit : splitOnce ':' s with
    | none =>
      rw [hsplit] at h
      cases h
    | some parts =>
      rw [hsplit] at h
      obtain ⟨t', ht, h⟩ := bind_eq_ok.mp h
      obtain ⟨data', hdata, h⟩ := bind_eq_ok.mp h
      cases h
      rw [splitOnce_eq_some (u := parts.2) hsplit, KeyType.ofPrefix_eq_ok.mp ht,
        decodeBase58_eq_ok.mp hdata]
      rfl
  · rintro rfl
    unfold parsePrefixed KeyType.display
    rw [splitOnce_prefixed t.colon_not_mem_asStr]
    refine bind_eq_ok.mpr ⟨t, KeyType.ofPrefix_eq_ok.mpr rfl, ?_⟩
    exact bind_eq_ok.mpr ⟨data, decodeBase58_eq_ok.mpr rfl, rfl⟩

/-! ## Signatures -/

namespace Signature

def display (x : Signature) : String := x.keyType.display x.asBytes

def fromStr (s : String) : Except ParseKeyError Signature := do
  let (keyType, data) ← parsePrefixed s
  if data.length ≠ keyType.signatureLength then
    .error (.invalidLength keyType.signatureLength data.length)
  else match keyType with
  | .ed25519 => ed25519 <$> tryInto 64 data .invalidFormat
  | .secp256k1 => secp256k1 <$> tryInto 65 data .invalidFormat
  | .mlDsa65 => mlDsa65 <$> tryInto mlDsa65SignatureLength data .invalidFormat

theorem length_asBytes (x : Signature) : x.asBytes.length = x.keyType.signatureLength := by
  rcases x with b | b | b <;> exact b.2

/-- The parser accepts exactly the texts of signatures. -/
theorem fromStr_eq_ok {s : String} {x : Signature} : fromStr s = .ok x ↔ s = x.display := by
  constructor
  · intro h
    obtain ⟨⟨t, data⟩, hparse, h⟩ := bind_eq_ok.mp h
    rw [parsePrefixed_eq_ok.mp hparse]
    simp only at h
    split at h
    · cases h
    · cases t
      all_goals
        obtain ⟨bytes, rfl, rfl⟩ := map_tryInto_eq_ok.mp h
        rfl
  · rintro rfl
    refine bind_eq_ok.mpr ⟨(x.keyType, x.asBytes), parsePrefixed_eq_ok.mpr rfl, ?_⟩
    simp only
    rw [if_neg (not_not_intro x.length_asBytes)]
    cases x with
    | ed25519 bytes => exact map_tryInto_eq_ok.mpr ⟨bytes, rfl, rfl⟩
    | secp256k1 bytes => exact map_tryInto_eq_ok.mpr ⟨bytes, rfl, rfl⟩
    | mlDsa65 bytes => exact map_tryInto_eq_ok.mpr ⟨bytes, rfl, rfl⟩

end Signature

/-! ## Public keys -/

/-- The prefix of the on-chain handle of an ML-DSA-65 key. -/
def mlDsa65HashPrefix : String := "ml-dsa-65-hash"

theorem colon_not_mem_hashPrefix : ':' ∉ mlDsa65HashPrefix.toList := by decide

theorem asStr_ne_hashPrefix (t : KeyType) : t.asStr ≠ mlDsa65HashPrefix := by
  cases t <;> decide

namespace PublicKey

def display (k : PublicKey) : String := k.keyType.display k.asBytes

theorem display_injective : Function.Injective display := by
  intro k l h
  obtain ⟨htype, hbytes⟩ := prefixed_inj k.keyType.colon_not_mem_asStr l.keyType.colon_not_mem_asStr h
  exact eq_of_keyType_of_asBytes (KeyType.asStr_injective htype) (Base58.encode_injective hbytes)

theorem display_ne_hashPrefix (k : PublicKey) (payload : String) :
    k.display ≠ prefixed mlDsa65HashPrefix payload := by
  intro h
  have htype := (prefixed_inj k.keyType.colon_not_mem_asStr colon_not_mem_hashPrefix h).1
  exact asStr_ne_hashPrefix k.keyType htype

variable [Crates]

/-- The last step of the parser: the check of the key type. -/
def fromData (keyType : KeyType) (data : Bytes) : Except ParseKeyError PublicKey :=
  match keyType with
  | .ed25519 => do
    let bytes ← tryInto 32 data .invalidCurvePoint
    if Crates.ed25519Point bytes then .ok (ed25519 bytes) else .error .invalidCurvePoint
  | .secp256k1 => do
    let bytes ← tryInto 64 data .invalidCurvePoint
    if Crates.sec1Encoding (uncompressed bytes) then
      if Crates.secp256k1Point (uncompressed bytes) then .ok (secp256k1 bytes)
      else .error .invalidCurvePoint
    else .error .invalidCurvePoint
  | .mlDsa65 =>
    mlDsa65 <$> tryInto mlDsa65PublicKeyLength data
      (.invalidLength mlDsa65PublicKeyLength mlDsa65PublicKeyLength)

def fromStr (s : String) : Except ParseKeyError PublicKey :=
  match splitOnce ':' s with
  | none => .error .invalidFormat
  | some (keyType, dataStr) =>
    if keyType = mlDsa65HashPrefix then .error .mlDsa65HashHandle
    else do
      let keyType ← KeyType.ofPrefix keyType
      let data ← decodeBase58 dataStr
      if data.length ≠ keyType.publicKeyLength then
        .error (.invalidLength keyType.publicKeyLength data.length)
      else fromData keyType data

theorem fromData_eq_ok {t : KeyType} {data : Bytes} {k : PublicKey} :
    fromData t data = .ok k ↔ t = k.keyType ∧ data = k.asBytes ∧ k.isValid = true := by
  constructor
  · intro h
    cases t with
    | ed25519 =>
      obtain ⟨bytes, hbytes, h⟩ := bind_eq_ok.mp h
      rw [tryInto_eq_ok.mp hbytes]
      split at h
      · next hpoint =>
        cases h
        exact ⟨rfl, rfl, hpoint⟩
      · cases h
    | secp256k1 =>
      obtain ⟨bytes, hbytes, h⟩ := bind_eq_ok.mp h
      rw [tryInto_eq_ok.mp hbytes]
      split at h
      · next hsec1 =>
        split at h
        · next hpoint =>
          cases h
          exact ⟨rfl, rfl, Bool.and_eq_true_iff.mpr ⟨hsec1, hpoint⟩⟩
        · cases h
      · cases h
    | mlDsa65 =>
      obtain ⟨bytes, rfl, rfl⟩ := map_tryInto_eq_ok.mp h
      exact ⟨rfl, rfl, rfl⟩
  · rintro ⟨rfl, rfl, hvalid⟩
    cases k with
    | ed25519 bytes =>
      have hpoint : Crates.ed25519Point bytes = true := hvalid
      exact bind_eq_ok.mpr ⟨bytes, tryInto_eq_ok.mpr rfl, if_pos hpoint⟩
    | secp256k1 bytes =>
      obtain ⟨hsec1, hpoint⟩ := Bool.and_eq_true_iff.mp hvalid
      exact bind_eq_ok.mpr
        ⟨bytes, tryInto_eq_ok.mpr rfl, (if_pos hsec1).trans (if_pos hpoint)⟩
    | mlDsa65 bytes => exact map_tryInto_eq_ok.mpr ⟨bytes, rfl, rfl⟩

theorem fromStr_prefixed {t : KeyType} (dataStr : String) :
    fromStr (prefixed t.asStr dataStr) = (do
      let data ← decodeBase58 dataStr
      if data.length ≠ t.publicKeyLength then
        .error (.invalidLength t.publicKeyLength data.length)
      else fromData t data) := by
  unfold fromStr
  rw [splitOnce_prefixed t.colon_not_mem_asStr]
  simp only
  rw [if_neg (asStr_ne_hashPrefix t), KeyType.ofPrefix_eq_ok.mpr rfl]
  rfl

theorem fromStr_hashPrefix (dataStr : String) :
    fromStr (prefixed mlDsa65HashPrefix dataStr) = .error .mlDsa65HashHandle := by
  unfold fromStr
  rw [splitOnce_prefixed colon_not_mem_hashPrefix]
  exact if_pos rfl

/-- The parser accepts exactly the texts of valid keys. -/
theorem fromStr_eq_ok {s : String} {k : PublicKey} :
    fromStr s = .ok k ↔ s = k.display ∧ k.isValid = true := by
  constructor
  · intro h
    unfold fromStr at h
    cases hsplit : splitOnce ':' s with
    | none =>
      rw [hsplit] at h
      cases h
    | some parts =>
      rw [hsplit] at h
      simp only at h
      split at h
      · cases h
      · obtain ⟨t, ht, h⟩ := bind_eq_ok.mp h
        obtain ⟨data, hdata, h⟩ := bind_eq_ok.mp h
        split at h
        · cases h
        · obtain ⟨rfl, rfl, hvalid⟩ := fromData_eq_ok.mp h
          refine ⟨?_, hvalid⟩
          rw [splitOnce_eq_some (u := parts.2) hsplit, KeyType.ofPrefix_eq_ok.mp ht,
            decodeBase58_eq_ok.mp hdata]
          rfl
  · rintro ⟨rfl, hvalid⟩
    unfold display KeyType.display
    rw [fromStr_prefixed]
    refine bind_eq_ok.mpr ⟨k.asBytes, decodeBase58_eq_ok.mpr rfl, ?_⟩
    rw [if_neg (not_not_intro k.length_asBytes)]
    exact fromData_eq_ok.mpr ⟨rfl, rfl, hvalid⟩

end PublicKey

/-! ## Key handles -/

abbrev mlDsa65HashLength : ℕ := 32

inductive PublicKeyHandle where
  | full (key : PublicKey)
  | mlDsa65Hash (hash : ByteArr mlDsa65HashLength)
  deriving DecidableEq

namespace PublicKeyHandle

def keyType : PublicKeyHandle → KeyType
  | full key => key.keyType
  | mlDsa65Hash _ => .mlDsa65

def display : PublicKeyHandle → String
  | full key => key.display
  | mlDsa65Hash hash => prefixed mlDsa65HashPrefix (Base58.encode hash.val)

theorem display_injective : Function.Injective display := by
  intro h h' heq
  cases h with
  | full key =>
    cases h' with
    | full key' => exact congrArg full (PublicKey.display_injective heq)
    | mlDsa65Hash hash' => exact absurd heq (key.display_ne_hashPrefix _)
  | mlDsa65Hash hash =>
    cases h' with
    | full key' => exact absurd heq.symm (key'.display_ne_hashPrefix _)
    | mlDsa65Hash hash' =>
      have hbytes := (prefixed_inj colon_not_mem_hashPrefix colon_not_mem_hashPrefix heq).2
      exact congrArg mlDsa65Hash (Subtype.ext (Base58.encode_injective hbytes))

variable [Crates]

/-- A hash, or a key that passes the crate's validation. -/
def isValid : PublicKeyHandle → Bool
  | full key => key.isValid
  | mlDsa65Hash _ => true

def fromStr (s : String) : Except ParseKeyError PublicKeyHandle :=
  match splitOnce ':' s with
  | some (keyType, dataStr) =>
    if keyType = mlDsa65HashPrefix then do
      let data ← decodeBase58 dataStr
      mlDsa65Hash <$> tryInto mlDsa65HashLength data (.invalidLength mlDsa65HashLength data.length)
    else full <$> PublicKey.fromStr s
  | none => full <$> PublicKey.fromStr s

theorem map_full_eq_ok {s : String} {h : PublicKeyHandle} :
    full <$> PublicKey.fromStr s = .ok h ↔ ∃ k, PublicKey.fromStr s = .ok k ∧ h = full k := by
  cases PublicKey.fromStr s with
  | error e => exact ⟨nofun, nofun⟩
  | ok k =>
    constructor
    · intro heq
      cases heq
      exact ⟨k, rfl, rfl⟩
    · rintro ⟨k', hk, rfl⟩
      cases hk
      rfl

theorem fromStr_hashPrefix {dataStr : String} {h : PublicKeyHandle} :
    fromStr (prefixed mlDsa65HashPrefix dataStr) = .ok h ↔
      ∃ hash, dataStr = Base58.encode hash.val ∧ h = mlDsa65Hash hash := by
  unfold fromStr
  rw [splitOnce_prefixed colon_not_mem_hashPrefix]
  simp only [if_true]
  constructor
  · intro heq
    obtain ⟨data, hdata, heq⟩ := bind_eq_ok.mp heq
    obtain ⟨hash, rfl, rfl⟩ := map_tryInto_eq_ok.mp heq
    exact ⟨hash, decodeBase58_eq_ok.mp hdata, rfl⟩
  · rintro ⟨hash, rfl, rfl⟩
    exact bind_eq_ok.mpr
      ⟨hash.val, decodeBase58_eq_ok.mpr rfl, map_tryInto_eq_ok.mpr ⟨hash, rfl, rfl⟩⟩

theorem fromStr_of_no_hashPrefix {s : String} (h : ∀ dataStr, s ≠ prefixed mlDsa65HashPrefix dataStr) :
    fromStr s = full <$> PublicKey.fromStr s := by
  unfold fromStr
  cases hsplit : splitOnce ':' s with
  | none => rfl
  | some parts =>
    have hne : parts.1 ≠ mlDsa65HashPrefix := by
      intro heq
      apply h parts.2
      rw [splitOnce_eq_some (u := parts.2) hsplit, heq]
      rfl
    simp only
    rw [if_neg hne]

/-- What the parser of handles accepts: keys as the parser of keys, and hashes. -/
theorem fromStr_eq_ok_iff {s : String} {h : PublicKeyHandle} :
    fromStr s = .ok h ↔ (∃ k, PublicKey.fromStr s = .ok k ∧ h = full k) ∨
      ∃ hash, s = prefixed mlDsa65HashPrefix (Base58.encode hash.val) ∧ h = mlDsa65Hash hash := by
  by_cases hs : ∃ dataStr, s = prefixed mlDsa65HashPrefix dataStr
  · obtain ⟨dataStr, rfl⟩ := hs
    rw [fromStr_hashPrefix]
    constructor
    · rintro ⟨hash, rfl, rfl⟩
      exact .inr ⟨hash, rfl, rfl⟩
    · rintro (⟨k, hk, -⟩ | ⟨hash, hhash, rfl⟩)
      · rw [PublicKey.fromStr_hashPrefix] at hk
        cases hk
      · have hprefix := prefixed_inj colon_not_mem_hashPrefix colon_not_mem_hashPrefix hhash
        exact ⟨hash, hprefix.2, rfl⟩
  · have hno : ∀ dataStr, s ≠ prefixed mlDsa65HashPrefix dataStr := fun dataStr heq => hs ⟨dataStr, heq⟩
    rw [fromStr_of_no_hashPrefix hno, map_full_eq_ok]
    constructor
    · exact Or.inl
    · rintro (hkey | ⟨hash, hhash, -⟩)
      · exact hkey
      · exact absurd hhash (hno _)

theorem fromStr_display {h : PublicKeyHandle} (hvalid : h.isValid = true) :
    fromStr h.display = .ok h := by
  apply fromStr_eq_ok_iff.mpr
  cases h with
  | full key => exact .inl ⟨key, PublicKey.fromStr_eq_ok.mpr ⟨rfl, hvalid⟩, rfl⟩
  | mlDsa65Hash hash => exact .inr ⟨hash, rfl, rfl⟩

end PublicKeyHandle
end NearKit
