import NearKit.SecretKeys
import NearKit.SigningDomains

/-!
# Signing keys

A secret key with its own public key, and the check of a signature. The signature schemes
are those of the libraries in `SigningCrates`.
-/
namespace NearKit
open Borsh

/-- What the code asks of the signature schemes. -/
class SigningCrates extends KeyCrates where
  ed25519Sign : ByteArr 32 → Bytes → ByteArr 64
  /-- `sign_prehash_recoverable`: `r`, `s` and the recovery id. -/
  secp256k1Sign : ByteArr 32 → CryptoHash → ByteArr 65
  mlDsa65Sign : MlDsa65SecretKey → Bytes → ByteArr mlDsa65SignatureLength
  ed25519VerifyStrict : ByteArr 32 → Bytes → ByteArr 64 → Bool
  /-- `ecdsa::VerifyingKey::from_sec1_bytes` accepts the point. -/
  secp256k1VerifyingKey : ByteArr 65 → Bool
  /-- `ecdsa::Signature::from_slice` accepts `r` and `s`. -/
  secp256k1Signature : ByteArr 64 → Bool
  secp256k1VerifyPrehash : ByteArr 65 → CryptoHash → ByteArr 64 → Bool
  /-- `ml_dsa::Signature::decode` accepts the bytes. -/
  mlDsa65Signature : ByteArr mlDsa65SignatureLength → Bool
  mlDsa65Verify : ByteArr mlDsa65PublicKeyLength → Bytes → ByteArr mlDsa65SignatureLength → Bool

def ed25519SampleSignature : ByteArr 64 :=
  ⟨[2, 60, 119, 15, 139, 240, 139, 149, 235, 35, 166, 240, 205, 113, 95, 19, 142, 60, 80, 95, 162,
    239, 193, 170, 207, 191, 183, 165, 230, 89, 144, 170, 180, 61, 139, 29, 24, 75, 232, 228, 4,
    78, 62, 110, 121, 98, 14, 75, 8, 150, 82, 66, 2, 240, 117, 109, 198, 65, 78, 149, 84, 109,
    124, 3], rfl⟩

def secp256k1SampleSignature : ByteArr 65 :=
  ⟨[16, 145, 230, 123, 186, 203, 186, 206, 93, 212, 226, 195, 242, 94, 2, 43, 9, 152, 20, 95, 2,
    230, 188, 43, 187, 70, 210, 85, 177, 252, 218, 37, 85, 160, 243, 43, 33, 167, 246, 241, 106,
    19, 222, 94, 14, 79, 217, 215, 133, 68, 93, 87, 180, 167, 20, 215, 203, 72, 34, 36, 5, 178,
    175, 229, 1], rfl⟩

@[reducible] def SigningCrates.sample : SigningCrates where
  toKeyCrates := .sample
  ed25519Sign _ _ := ed25519SampleSignature
  secp256k1Sign _ _ := secp256k1SampleSignature
  mlDsa65Sign _ _ := .zeros mlDsa65SignatureLength
  ed25519VerifyStrict _ _ _ := true
  secp256k1VerifyingKey _ := true
  secp256k1Signature _ := true
  secp256k1VerifyPrehash _ _ _ := true
  mlDsa65Signature _ := true
  mlDsa65Verify _ _ _ := true

/-- `r` and `s` without the recovery id. -/
def Signature.scalars (bytes : ByteArr 65) : ByteArr 64 :=
  ⟨bytes.val.take 64, by rw [List.length_take, bytes.2]; rfl⟩

def Signature.recoveryId (bytes : ByteArr 65) : UInt8 :=
  bytes.val.get ⟨64, by rw [bytes.2]; decide⟩

variable [SigningCrates]

def Signature.verify (message : Bytes) : Signature → PublicKey → Bool
  | .ed25519 signature, .ed25519 publicKey =>
    Crates.ed25519Point publicKey && SigningCrates.ed25519VerifyStrict publicKey message signature
  | .secp256k1 signature, .secp256k1 publicKey =>
    let uncompressed := PublicKey.uncompressed publicKey
    if ¬ SigningCrates.secp256k1VerifyingKey uncompressed then false
    else if Signature.recoveryId signature > 3 then false
    else if ¬ SigningCrates.secp256k1Signature (Signature.scalars signature) then false
    else SigningCrates.secp256k1VerifyPrehash uncompressed (Crates.sha256 message)
      (Signature.scalars signature)
  | .mlDsa65 signature, .mlDsa65 publicKey =>
    SigningCrates.mlDsa65Signature signature && SigningCrates.mlDsa65Verify publicKey message signature
  | _, _ => false

/-- `SecretKey::sign`; `none` is the panic on a secret that the libraries reject. -/
def SecretKey.sign (message : Bytes) : SecretKey → Option Signature
  | .ed25519 bytes => some (.ed25519 (SigningCrates.ed25519Sign bytes message))
  | .secp256k1 bytes =>
    if KeyCrates.secp256k1Scalar bytes then
      some (.secp256k1 (SigningCrates.secp256k1Sign bytes (Crates.sha256 message)))
    else none
  | .mlDsa65 (.seed bytes) => some (.mlDsa65 (SigningCrates.mlDsa65Sign (.seed bytes) message))
  | .mlDsa65 (.expanded bytes) =>
    if KeyCrates.mlDsa65Expanded bytes then
      some (.mlDsa65 (SigningCrates.mlDsa65Sign (.expanded bytes) message))
    else none

theorem SecretKey.keyType_of_sign {message : Bytes} {secret : SecretKey} {signature : Signature}
    (h : secret.sign message = some signature) : signature.keyType = secret.keyType := by
  cases secret with
  | ed25519 bytes =>
    cases h
    rfl
  | secp256k1 bytes =>
    simp only [SecretKey.sign] at h
    split at h
    · cases h
      rfl
    · cases h
  | mlDsa65 key =>
    cases key with
    | seed bytes =>
      cases h
      rfl
    | expanded bytes =>
      simp only [SecretKey.sign] at h
      split at h
      · cases h
        rfl
      · cases h

/-- A `SigningKey` as `SigningKey::new` builds it: the public key is that of the secret in
its backend. -/
structure BundledKey where
  secretKey : SecretKey
  publicKey : PublicKey
  publicKey_eq : secretKey.publicKey = some publicKey

namespace BundledKey

def new (secretKey : SecretKey) : Option BundledKey :=
  match h : secretKey.publicKey with
  | none => none
  | some publicKey => some ⟨secretKey, publicKey, h⟩

def sign (key : BundledKey) (message : Bytes) : Option Signature := key.secretKey.sign message

end BundledKey

/-- `verify(sign(sk, m), m, pk(sk))` of the three schemes. -/
def SignatureLaw : Prop :=
  ∀ (key : BundledKey) (message : Bytes) (signature : Signature),
    key.sign message = some signature → signature.verify message key.publicKey = true

omit [SigningCrates] in
/-- The samples obey the law, whatever the digests and the Ed25519 signatures are. -/
theorem SigningCrates.sample_signatureLaw (sha256 : Bytes → ByteArr 32)
    (ed25519Sign : ByteArr 32 → Bytes → ByteArr 64) :
    @SignatureLaw { SigningCrates.sample with sha256, ed25519Sign } := by
  let _ : SigningCrates := { SigningCrates.sample with sha256, ed25519Sign }
  intro key message signature hsign
  obtain ⟨secretKey, publicKey, hkey⟩ := key
  cases secretKey with
  | ed25519 seed =>
    cases hsign
    cases hkey
    have hpoint : Crates.ed25519Point (samplePublic seed) = true :=
      decide_eq_true (samplePublic_point seed)
    exact Bool.and_eq_true_iff.mpr ⟨hpoint, rfl⟩
  | secp256k1 bytes =>
    simp only [BundledKey.sign, SecretKey.sign] at hsign
    simp only [SecretKey.publicKey] at hkey
    split at hsign
    · next hscalar =>
      rw [if_pos hscalar] at hkey
      cases hsign
      cases hkey
      rfl
    · cases hsign
  | mlDsa65 key =>
    cases key <;> cases hsign <;> cases hkey <;> rfl

end NearKit
