import NearKit.Base64Text
import NearKit.Durations
import NearKit.HexText
import NearKit.JsonValues
import NearKit.PublicKeyOrigins
import NearKit.SigningKeys

/-!
# Signed messages

Messages of NEP-413, their JSON form and their verification. A message is made of strings
and objects.
-/
namespace NearKit
open Borsh

/-! ## Signatures in JSON -/

def serializeSignatureBase64 (signature : Signature) : Json :=
  .string (Base64.encode signature.asBytes)

def stripPrefix (pre s : String) : Option String :=
  if pre.toList <+: s.toList then some (String.ofList (s.toList.drop pre.toList.length)) else none

/-- A signature of 64 bytes, or else the next format. -/
def ed25519Or (bytes : Bytes) (next : Except SerdeError Signature) : Except SerdeError Signature :=
  if h : bytes.length = 64 then .ok (.ed25519 ⟨bytes, h⟩) else next

def invalidSignatureFormat : SerdeError :=
  .custom "Invalid signature format. Expected base64, ed25519:base58, or plain base58"

/-- `deserialize_signature_flexible`, from the plain base58 on. -/
def deserializePlainBase58 (s : String) : Except SerdeError Signature :=
  match Base58.decode s with
  | some bytes => ed25519Or bytes (.error invalidSignatureFormat)
  | none => .error invalidSignatureFormat

/-- `deserialize_signature_flexible`, from the prefixed base58 on. -/
def deserializePrefixed (s : String) : Except SerdeError Signature :=
  match stripPrefix "ed25519:" s with
  | some data =>
    match Base58.decode data with
    | some bytes => ed25519Or bytes (deserializePlainBase58 s)
    | none => .error .invalidBase58
  | none => deserializePlainBase58 s

def deserializeSignatureFlexible (json : Json) : Except SerdeError Signature := do
  let s ← json.asString
  match Base64.decode s with
  | some bytes => ed25519Or bytes (deserializePrefixed s)
  | none => deserializePrefixed s

private theorem keyType_of_ed25519Or {bytes : Bytes} {next : Except SerdeError Signature}
    {x : Signature} (hnext : next = .ok x → x.keyType = .ed25519) (h : ed25519Or bytes next = .ok x) :
    x.keyType = .ed25519 := by
  unfold ed25519Or at h
  split at h
  · cases h
    rfl
  · exact hnext h

/-- Every format that the decoder tries is one of Ed25519. -/
theorem keyType_of_deserialize {json : Json} {x : Signature}
    (h : deserializeSignatureFlexible json = .ok x) : x.keyType = .ed25519 := by
  have hplain {s : String} (h : deserializePlainBase58 s = .ok x) : x.keyType = .ed25519 := by
    unfold deserializePlainBase58 at h
    split at h
    · refine keyType_of_ed25519Or ?_ h
      intro hnext
      cases hnext
    · cases h
  have hprefixed {s : String} (h : deserializePrefixed s = .ok x) : x.keyType = .ed25519 := by
    unfold deserializePrefixed at h
    split at h
    · split at h
      · exact keyType_of_ed25519Or hplain h
      · cases h
    · exact hplain h
  obtain ⟨s, -, h⟩ := bind_eq_ok.mp h
  split at h
  · exact keyType_of_ed25519Or hprefixed h
  · exact hprefixed h

theorem deserialize_base64 (bytes : Bytes) :
    deserializeSignatureFlexible (.string (Base64.encode bytes)) =
      ed25519Or bytes (deserializePrefixed (Base64.encode bytes)) := by
  have hbase64 := Base64.decode_encode bytes
  unfold deserializeSignatureFlexible Json.asString
  show (match Base64.decode (Base64.encode bytes) with
    | some bytes' => ed25519Or bytes' (deserializePrefixed (Base64.encode bytes))
    | none => deserializePrefixed (Base64.encode bytes)) = _
  rw [hbase64]

theorem deserialize_serialize_ed25519 (bytes : ByteArr 64) :
    deserializeSignatureFlexible (serializeSignatureBase64 (.ed25519 bytes)) =
      .ok (.ed25519 bytes) :=
  (deserialize_base64 bytes.val).trans (dif_pos bytes.2)

/-- The decoder reads back exactly the signatures of Ed25519. -/
theorem deserialize_serialize_iff {x : Signature} :
    deserializeSignatureFlexible (serializeSignatureBase64 x) = .ok x ↔ x.keyType = .ed25519 := by
  constructor
  · exact keyType_of_deserialize
  · intro h
    cases x with
    | ed25519 bytes => exact deserialize_serialize_ed25519 bytes
    | secp256k1 bytes => cases h
    | mlDsa65 bytes => cases h

/-! ## Messages in JSON -/

structure SignedMessage where
  accountId : AccountId
  publicKey : PublicKey
  signature : Signature
  state : Option String
  deriving DecidableEq

structure AuthPayload where
  signedMessage : SignedMessage
  nonce : ByteArr 32
  message : String
  recipient : String
  callbackUrl : Option String
  deriving DecidableEq

namespace SignedMessage

def toJson (x : SignedMessage) : Json :=
  .object ([("accountId", .string x.accountId.name), ("publicKey", .string x.publicKey.display),
    ("signature", serializeSignatureBase64 x.signature)] ++ Json.ofOption "state" x.state)

def deserializeAccountId [Crates] (name : String) : Except SerdeError AccountId :=
  match AccountId.validate name with
  | some accountId => .ok accountId
  | none => .error .invalidAccountId

def fromJson [Crates] (json : Json) : Except SerdeError SignedMessage := do
  let fields ← json.asObject
  let name ← Json.stringField fields "accountId"
  let accountId ← deserializeAccountId name
  let publicKeyText ← Json.stringField fields "publicKey"
  let publicKey ← (PublicKey.fromStr publicKeyText).mapError .parseKey
  let signatureJson ← Json.requiredField fields "signature"
  let signature ← deserializeSignatureFlexible signatureJson
  let state ← Json.optionField fields "state"
  return ⟨accountId, publicKey, signature, state⟩

private theorem deserializeAccountId_name [Crates] {id : AccountId} (h : id.Valid) :
    deserializeAccountId id.name = .ok id := by
  unfold deserializeAccountId
  rw [AccountId.validate_eq_some.mpr ⟨rfl, h⟩]

private theorem mapError_fromStr_display [Crates] {k : PublicKey} (h : k.isValid = true) :
    (PublicKey.fromStr k.display).mapError SerdeError.parseKey = .ok k := by
  rw [PublicKey.fromStr_eq_ok.mpr ⟨rfl, h⟩]
  rfl

private theorem fromJson_toJson [Crates] {x : SignedMessage} (hid : x.accountId.Valid)
    (hkey : x.publicKey.isValid = true) (hsig : x.signature.keyType = .ed25519) :
    fromJson x.toJson = .ok x := by
  refine bind_eq_ok.mpr ⟨_, rfl, ?_⟩
  rw [Json.stringField_append_ofOption (by decide), Json.stringField_append_ofOption (by decide),
    Json.requiredField_append_ofOption (by decide)]
  refine bind_eq_ok.mpr ⟨x.accountId.name, rfl, ?_⟩
  refine bind_eq_ok.mpr ⟨x.accountId, deserializeAccountId_name hid, ?_⟩
  refine bind_eq_ok.mpr ⟨x.publicKey.display, rfl, ?_⟩
  refine bind_eq_ok.mpr ⟨x.publicKey, mapError_fromStr_display hkey, ?_⟩
  refine bind_eq_ok.mpr ⟨serializeSignatureBase64 x.signature, rfl, ?_⟩
  refine bind_eq_ok.mpr ⟨x.signature, deserialize_serialize_iff.mpr hsig, ?_⟩
  exact bind_eq_ok.mpr ⟨x.state, Json.optionField_append_ofOption rfl x.state, rfl⟩

theorem keyType_of_fromJson [Crates] {json : Json} {x : SignedMessage} (h : fromJson json = .ok x) :
    x.signature.keyType = .ed25519 := by
  obtain ⟨fields, -, h⟩ := bind_eq_ok.mp h
  obtain ⟨name, -, h⟩ := bind_eq_ok.mp h
  obtain ⟨accountId, -, h⟩ := bind_eq_ok.mp h
  obtain ⟨publicKeyText, -, h⟩ := bind_eq_ok.mp h
  obtain ⟨publicKey, -, h⟩ := bind_eq_ok.mp h
  obtain ⟨signatureJson, -, h⟩ := bind_eq_ok.mp h
  obtain ⟨signature, hsignature, h⟩ := bind_eq_ok.mp h
  obtain ⟨state, -, h⟩ := bind_eq_ok.mp h
  cases h
  exact keyType_of_deserialize hsignature

end SignedMessage

namespace AuthPayload

def toJson (x : AuthPayload) : Json :=
  .object ([("signedMessage", x.signedMessage.toJson), ("nonce", .string (Hex.encode x.nonce.val)),
    ("message", .string x.message), ("recipient", .string x.recipient)] ++
    Json.ofOption "callbackUrl" x.callbackUrl)

def deserializeNonce (text : String) : Except SerdeError (ByteArr 32) :=
  match Hex.decode text with
  | some bytes => if h : bytes.length = 32 then .ok ⟨bytes, h⟩ else .error .invalidHex
  | none => .error .invalidHex

def fromJson [Crates] (json : Json) : Except SerdeError AuthPayload := do
  let fields ← json.asObject
  let signedMessageJson ← Json.requiredField fields "signedMessage"
  let signedMessage ← SignedMessage.fromJson signedMessageJson
  let nonceText ← Json.stringField fields "nonce"
  let nonce ← deserializeNonce nonceText
  let message ← Json.stringField fields "message"
  let recipient ← Json.stringField fields "recipient"
  let callbackUrl ← Json.optionField fields "callbackUrl"
  return ⟨signedMessage, nonce, message, recipient, callbackUrl⟩

def toParams (x : AuthPayload) : SignMessageParams :=
  ⟨x.message, x.recipient, x.nonce, x.callbackUrl, x.signedMessage.state⟩

def fromSigned (signedMessage : SignedMessage) (params : SignMessageParams) : AuthPayload :=
  ⟨signedMessage, params.nonce, params.message, params.recipient, params.callbackUrl⟩

private theorem deserializeNonce_encode (nonce : ByteArr 32) :
    deserializeNonce (Hex.encode nonce.val) = .ok nonce := by
  unfold deserializeNonce
  rw [Hex.decode_encode]
  exact dif_pos nonce.2

private theorem fromJson_toJson [Crates] {x : AuthPayload}
    (h : SignedMessage.fromJson x.signedMessage.toJson = .ok x.signedMessage) :
    fromJson x.toJson = .ok x := by
  refine bind_eq_ok.mpr ⟨_, rfl, ?_⟩
  rw [Json.requiredField_append_ofOption (by decide), Json.stringField_append_ofOption (by decide),
    Json.stringField_append_ofOption (by decide), Json.stringField_append_ofOption (by decide)]
  refine bind_eq_ok.mpr ⟨x.signedMessage.toJson, rfl, ?_⟩
  refine bind_eq_ok.mpr ⟨x.signedMessage, h, ?_⟩
  refine bind_eq_ok.mpr ⟨Hex.encode x.nonce.val, rfl, ?_⟩
  refine bind_eq_ok.mpr ⟨x.nonce, deserializeNonce_encode x.nonce, ?_⟩
  refine bind_eq_ok.mpr ⟨x.message, rfl, ?_⟩
  refine bind_eq_ok.mpr ⟨x.recipient, rfl, ?_⟩
  exact bind_eq_ok.mpr ⟨x.callbackUrl, Json.optionField_append_ofOption rfl x.callbackUrl, rfl⟩

end AuthPayload

/-! ## Signing and verifying -/

inductive NonceValidation where
  | timestamp (maxAge : Duration)
  | none
  deriving DecidableEq

/-- `u64::from_be_bytes` of the first eight bytes. -/
def extractTimestampFromNonce (nonce : ByteArr 32) : UInt64 :=
  UInt64.ofNat (Nat.ofDigits 256 ((nonce.val.take 8).map UInt8.toNat).reverse)

def saturatingSub (a b : UInt64) : UInt64 := if b ≤ a then a - b else 0

/-- The nonce is expired or from the future at the clock's `nowMs`. Ages are compared as
`u128`. -/
def NonceValidation.rejects (validation : NonceValidation) (nonce : ByteArr 32) (nowMs : UInt64) :
    Bool :=
  match validation with
  | .none => false
  | .timestamp maxAge =>
    let timestampMs := extractTimestampFromNonce nonce
    let ageMs := saturatingSub nowMs timestampMs
    decide (maxAge.asMillis < ageMs.toBitVec.setWidth 128 ∨ nowMs < timestampMs)

variable [SigningCrates]

/-- The error is the panic of `serialize_message`. -/
def verifySignature (signed : SignedMessage) (params : SignMessageParams)
    (validation : NonceValidation) (nowMs : UInt64) : Except IoError Bool :=
  if validation.rejects params.nonce nowMs then .ok false
  else do
    let hash ← Nep413.serializeMessage params
    return signed.signature.verify hash.val signed.publicKey

/-- `SigningKey::sign_nep413`; `none` is a panic. -/
def BundledKey.signNep413 (key : BundledKey) (accountId : AccountId) (params : SignMessageParams) :
    Option SignedMessage := do
  let hash ← (Nep413.serializeMessage params).toOption
  let signature ← key.sign hash.val
  return ⟨accountId, key.publicKey, signature, params.state⟩

theorem BundledKey.signNep413_spec {key : BundledKey} {accountId : AccountId}
    {params : SignMessageParams} {signed : SignedMessage}
    (h : key.signNep413 accountId params = some signed) :
    signed.accountId = accountId ∧ signed.publicKey = key.publicKey ∧
      signed.signature.keyType = key.secretKey.keyType ∧ signed.state = params.state := by
  obtain ⟨hash, -, h⟩ := Option.bind_eq_some_iff.mp h
  obtain ⟨signature, hsign, h⟩ := Option.bind_eq_some_iff.mp h
  cases h
  exact ⟨rfl, rfl, SecretKey.keyType_of_sign hsign, rfl⟩

omit [SigningCrates] in
/-- The payload keeps the parameters that were signed. -/
theorem AuthPayload.toParams_fromSigned {signed : SignedMessage} {params : SignMessageParams}
    (h : signed.state = params.state) : (AuthPayload.fromSigned signed params).toParams = params := by
  unfold AuthPayload.toParams AuthPayload.fromSigned
  rw [h]

/-- JSON gives back the message and the payload made of it, and with each the verdict of
the message, whatever the nonce has to satisfy. -/
def SignedMessage.JsonRoundTrips (signed : SignedMessage) (params : SignMessageParams) : Prop :=
  let payload := AuthPayload.fromSigned signed params
  ∃ signed' payload', SignedMessage.fromJson signed.toJson = .ok signed' ∧
    AuthPayload.fromJson payload.toJson = .ok payload' ∧ signed' = signed ∧ payload' = payload ∧
    ∀ validation nowMs,
      verifySignature signed' params validation nowMs =
          verifySignature signed params validation nowMs ∧
        verifySignature payload'.signedMessage payload'.toParams validation nowMs =
          verifySignature signed params validation nowMs

/-- Of the messages that a key signs, JSON gives back those of an Ed25519 key. -/
theorem BundledKey.signNep413_jsonRoundTrips_iff (laws : KeyLaws) {key : BundledKey}
    {accountId : AccountId} (hid : accountId.Valid) {params : SignMessageParams}
    {signed : SignedMessage} (h : key.signNep413 accountId params = some signed) :
    signed.JsonRoundTrips params ↔ key.secretKey.keyType = .ed25519 := by
  obtain ⟨haccount, hpublic, htype, hstate⟩ := signNep413_spec h
  constructor
  · rintro ⟨signed', payload', hjson, -, rfl, -⟩
    rw [← htype]
    exact SignedMessage.keyType_of_fromJson hjson
  · intro hkey
    have hvalid : signed.publicKey.isValid = true := by
      rw [hpublic]
      exact PublicKey.isValid_of_publicKey laws key.publicKey_eq
    have hsigned : SignedMessage.fromJson signed.toJson = .ok signed :=
      SignedMessage.fromJson_toJson (haccount ▸ hid) hvalid (htype.trans hkey)
    refine ⟨signed, _, hsigned, AuthPayload.fromJson_toJson hsigned, rfl, rfl, ?_⟩
    intro validation nowMs
    refine ⟨rfl, ?_⟩
    rw [AuthPayload.toParams_fromSigned hstate]
    rfl

/-! ## A message that is not read back -/

omit [SigningCrates]

def SignMessageParams.sample : SignMessageParams := ⟨"Login", "bob.near", .zeros 32, none, none⟩

def BundledKey.ed25519Sample : @BundledKey SigningCrates.sample :=
  @BundledKey.mk SigningCrates.sample (.ed25519 (.zeros 32)) (.ed25519 (samplePublic (.zeros 32))) rfl

def SignedMessage.ed25519Sample : SignedMessage :=
  ⟨.alice, .ed25519 (samplePublic (.zeros 32)), .ed25519 ed25519SampleSignature, none⟩

theorem BundledKey.signNep413_sample :
    @SignedMessage.JsonRoundTrips SigningCrates.sample .ed25519Sample .sample := by
  let _ := SigningCrates.sample
  have hsigned : BundledKey.ed25519Sample.signNep413 .alice .sample =
      some SignedMessage.ed25519Sample := rfl
  exact (BundledKey.signNep413_jsonRoundTrips_iff KeyCrates.sample_laws rfl hsigned).mpr rfl

def BundledKey.secp256k1Sample : @BundledKey SigningCrates.sample :=
  @BundledKey.mk SigningCrates.sample (.secp256k1 ⟨List.replicate 31 0 ++ [1], rfl⟩)
    (.secp256k1 secp256k1Generator) rfl

def SignedMessage.secp256k1Sample : SignedMessage :=
  ⟨.alice, .secp256k1 secp256k1Generator, .secp256k1 secp256k1SampleSignature, none⟩

/-- The text of 65 bytes is neither 64 bytes in base64, nor prefixed, nor base58. -/
theorem deserialize_secp256k1 :
    deserializeSignatureFlexible (serializeSignatureBase64 (.secp256k1 secp256k1SampleSignature)) =
      .error invalidSignatureFormat := by
  have hbase58 : Base58.decode (Base64.encode secp256k1SampleSignature.val) = none := by decide
  have hplain : deserializePlainBase58 (Base64.encode secp256k1SampleSignature.val) =
      .error invalidSignatureFormat := by
    unfold deserializePlainBase58
    rw [hbase58]
  have hstrip : stripPrefix "ed25519:" (Base64.encode secp256k1SampleSignature.val) = none := by decide
  have hprefixed : deserializePrefixed (Base64.encode secp256k1SampleSignature.val) =
      .error invalidSignatureFormat := by
    unfold deserializePrefixed
    rw [hstrip, hplain]
  have hlen : secp256k1SampleSignature.val.length ≠ 64 := by decide
  exact (deserialize_base64 _).trans ((dif_neg hlen).trans hprefixed)

/-- The message that a secp256k1 key signs is written to JSON and not read back. -/
theorem BundledKey.signNep413_rejected :
    @signNep413 SigningCrates.sample .secp256k1Sample .alice .sample = some .secp256k1Sample ∧
      deserializeSignatureFlexible
          (serializeSignatureBase64 SignedMessage.secp256k1Sample.signature) =
        .error invalidSignatureFormat ∧
      ¬ @SignedMessage.JsonRoundTrips SigningCrates.sample .secp256k1Sample .sample := by
  let _ := SigningCrates.sample
  refine ⟨rfl, deserialize_secp256k1, ?_⟩
  rintro ⟨signed, payload, hjson, -, rfl, -⟩
  cases SignedMessage.keyType_of_fromJson hjson

end NearKit
