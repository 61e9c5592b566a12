import NearKit.ActionFormats
import NearKit.Base64Text
import NearKit.Errors

/-!
# Transactions and their versioned codec

The legacy transaction is written without a tag, the V1 transaction behind the tag
byte `1`. The versioned decoder looks at two bytes and puts back those that belong to
the transaction: an account name has 2 to 64 bytes, so the second byte of the length
word that starts a transaction is zero and the first is not.
-/
namespace NearKit
open Borsh

structure Transaction where
  signerId : AccountId
  publicKey : PublicKey
  nonce : Nonce
  receiverId : AccountId
  blockHash : CryptoHash
  actions : List Action
  deriving DecidableEq

structure SignedTransaction where
  transaction : Transaction
  signature : Signature
  deriving DecidableEq

inductive NonceMode where
  | monotonic | strict
  deriving DecidableEq, Repr

structure TransactionV1 where
  signerId : AccountId
  publicKey : PublicKey
  nonce : TransactionNonce
  receiverId : AccountId
  blockHash : CryptoHash
  actions : List Action
  nonceMode : NonceMode
  deriving DecidableEq

inductive VersionedTransaction where
  | v0 (transaction : Transaction)
  | v1 (transaction : TransactionV1)
  deriving DecidableEq

structure SignedTransactionV1 where
  transaction : VersionedTransaction
  signature : Signature
  deriving DecidableEq

/-- `From<SignedTransaction>`: a signed transaction as a versioned one. -/
def SignedTransactionV1.fromSigned (signed : SignedTransaction) : SignedTransactionV1 :=
  ⟨.v0 signed.transaction, signed.signature⟩

variable [Crates]

namespace Format

def transaction : Format Transaction :=
  (accountId.pair (publicKey.pair (u64.pair (accountId.pair (cryptoHash.pair (vec action)))))).iso
    ⟨fun x => (x.signerId, x.publicKey, x.nonce, x.receiverId, x.blockHash, x.actions),
      fun (s, k, n, r, h, a) => ⟨s, k, n, r, h, a⟩, fun _ => rfl, fun _ => rfl⟩

def signedTransaction : Format SignedTransaction :=
  (transaction.pair signature).iso
    ⟨fun x => (x.transaction, x.signature), fun (t, s) => ⟨t, s⟩, fun _ => rfl, fun _ => rfl⟩

def nonceMode : Format NonceMode :=
  plainEnum
    { all := [.monotonic, .strict]
      toU8 := fun
        | .monotonic => 0
        | .strict => 1
      mem_all := fun i => by cases i <;> simp
      positions := rfl }

def transactionV1 : Format TransactionV1 :=
  (accountId.pair (publicKey.pair (transactionNonce.pair (accountId.pair (cryptoHash.pair
    ((vec action).pair nonceMode)))))).iso
    ⟨fun x => (x.signerId, x.publicKey, x.nonce, x.receiverId, x.blockHash, x.actions,
      x.nonceMode), fun (s, k, n, r, h, a, m) => ⟨s, k, n, r, h, a, m⟩,
      fun _ => rfl, fun _ => rfl⟩

end Format

/-! ## The length word in front of a transaction -/

/-- The first word is the length of an account name. -/
def StartsWithLength (bs : Bytes) : Prop :=
  ∃ n rest, 2 ≤ n ∧ n ≤ 64 ∧ bs = UInt8.ofNat n :: 0 :: 0 :: 0 :: rest

namespace StartsWithLength

theorem of_accountId {id : AccountId} {p : Bytes} (h : AccountId.codec.write id = .ok p)
    (rest : Bytes) : StartsWithLength (p ++ rest) := by
  have hle := id.le_64
  rw [AccountId.write_eq] at h
  cases h
  refine ⟨id.name.utf8ByteSize, Codec.utf8 id.name ++ rest, id.two_le, hle, ?_⟩
  have h₁ : id.name.utf8ByteSize / 256 = 0 := by omega
  simp [leBytes, h₁]

omit [Crates] in
theorem head_ne {n : ℕ} (h₂ : 2 ≤ n) (h₆₄ : n ≤ 64) :
    UInt8.ofNat n ≠ 0 ∧ UInt8.ofNat n ≠ 1 := by
  have hn : (UInt8.ofNat n).toNat = n := UInt8.toNat_ofNat_of_lt' (by show n < 256; omega)
  constructor
  · intro h
    rw [h] at hn
    simp at hn
    omega
  · intro h
    rw [h] at hn
    simp at hn
    omega

end StartsWithLength

namespace Format
variable {α β : Type}

/-- A record whose first field is an account name. -/
theorem startsWithLength_of_write {f : Format α} {e : β ≃ AccountId × α} {x : β} {p : Bytes}
    (h : ((accountId.pair f).iso e).write x = .ok p) : StartsWithLength p := by
  obtain ⟨q, r, hq, -, rfl⟩ := seq_eq_ok.mp h
  exact StartsWithLength.of_accountId hq r

theorem startsWithLength_of_read {f : Format α} {e : β ≃ AccountId × α} {x : β} {bs rest : Bytes}
    (h : ((accountId.pair f).iso e).read bs = .ok (x, rest)) : StartsWithLength bs := by
  obtain ⟨y, hy, -⟩ := Reader.map_eq_ok.mp h
  obtain ⟨id, mid, hid, -⟩ := Reader.bind_eq_ok.mp hy
  obtain ⟨p, hp, rfl⟩ := AccountId.lawful.write_read hid trivial
  exact StartsWithLength.of_accountId hp mid

end Format

/-! ## The versioned codec -/

namespace VersionedTransaction

def v1Tag : UInt8 := 1

def serialize : VersionedTransaction → Except IoError Bytes
  | v0 tx => Format.transaction.write tx
  | v1 tx => seq (Codec.u8.write v1Tag) (Format.transactionV1.write tx)

def invalidVersionTag (u1 : UInt8) : IoError :=
  ⟨.invalidData, s!"invalid transaction version tag: {u1.toNat}"⟩

def deserializeReader : Reader VersionedTransaction := do
  let u1 ← Codec.u8.read
  let u2 ← Codec.u8.read
  if u2 = 0 then
    v0 <$> Format.transaction.read.chain [u1, u2]
  else if u1 = v1Tag then
    v1 <$> Format.transactionV1.read.chain [u2]
  else
    Reader.fail (invalidVersionTag u1)

theorem serialize_v1_eq_ok {tx : TransactionV1} {p : Bytes} :
    serialize (v1 tx) = .ok p ↔
      ∃ q, Format.transactionV1.write tx = .ok q ∧ p = v1Tag :: q := by
  simp [serialize, seq_eq_ok, Codec.u8_write]

theorem deserializeReader_cons (u1 u2 : UInt8) (bs : Bytes) :
    deserializeReader (u1 :: u2 :: bs) =
      if u2 = 0 then (v0 <$> Format.transaction.read) (u1 :: u2 :: bs)
      else if u1 = v1Tag then (v1 <$> Format.transactionV1.read) (u2 :: bs)
      else .error (invalidVersionTag u1) := by
  refine (Reader.bind_of_ok (Codec.u8_read_cons u1 _)).trans ?_
  refine (Reader.bind_of_ok (Codec.u8_read_cons u2 _)).trans ?_
  split
  · exact Reader.map_congr v0 rfl
  · split
    · exact Reader.map_congr v1 rfl
    · rfl

theorem exists_cons_of_read {bs rest : Bytes} {v : VersionedTransaction}
    (h : deserializeReader bs = .ok (v, rest)) : ∃ u1 u2 tail, bs = u1 :: u2 :: tail := by
  obtain ⟨u1, mid, h₁, h⟩ := Reader.bind_eq_ok.mp h
  obtain ⟨u2, tail, h₂, -⟩ := Reader.bind_eq_ok.mp h
  rw [Codec.u8_read_eq_ok.mp h₁, Codec.u8_read_eq_ok.mp h₂]
  exact ⟨u1, u2, tail, rfl⟩

/-- The legacy branch is taken exactly on the streams that start with a transaction. -/
theorem read_v0_iff {bs rest : Bytes} {tx : Transaction} :
    deserializeReader bs = .ok (v0 tx, rest) ↔ Format.transaction.read bs = .ok (tx, rest) := by
  constructor
  · intro h
    obtain ⟨u1, u2, tail, rfl⟩ := exists_cons_of_read h
    rw [deserializeReader_cons] at h
    split at h
    · obtain ⟨tx', hread, heq⟩ := Reader.map_eq_ok.mp h
      cases heq
      exact hread
    · split at h
      · obtain ⟨tx', -, heq⟩ := Reader.map_eq_ok.mp h
        cases heq
      · cases h
  · intro h
    obtain ⟨n, tail, -, -, rfl⟩ := Format.startsWithLength_of_read h
    rw [deserializeReader_cons, if_pos rfl]
    exact Reader.map_of_ok h

theorem read_v1_iff {bs rest : Bytes} {tx : TransactionV1} :
    deserializeReader bs = .ok (v1 tx, rest) ↔
      ∃ tail, bs = v1Tag :: tail ∧ Format.transactionV1.read tail = .ok (tx, rest) := by
  constructor
  · intro h
    obtain ⟨u1, u2, tail, rfl⟩ := exists_cons_of_read h
    rw [deserializeReader_cons] at h
    split at h
    · obtain ⟨tx', -, heq⟩ := Reader.map_eq_ok.mp h
      cases heq
    · split at h
      · next htag =>
        obtain ⟨tx', hread, heq⟩ := Reader.map_eq_ok.mp h
        cases heq
        exact ⟨u2 :: tail, by rw [htag], hread⟩
      · cases h
  · rintro ⟨tail, rfl, h⟩
    obtain ⟨n, tail', h₂, h₆₄, rfl⟩ := Format.startsWithLength_of_read h
    rw [deserializeReader_cons, if_neg (StartsWithLength.head_ne h₂ h₆₄).1, if_pos rfl]
    exact Reader.map_of_ok h

omit [Crates] in
theorem not_startsWithLength_v1Tag {tail : Bytes} : ¬ StartsWithLength (v1Tag :: tail) := by
  rintro ⟨n, rest, h₂, h₆₄, h⟩
  exact (StartsWithLength.head_ne h₂ h₆₄).2 (List.cons.inj h).1.symm

/-- No stream starts with both a legacy and a V1 transaction. -/
theorem images_disjoint {tx₀ : Transaction} {tx₁ : TransactionV1} {p q r s : Bytes}
    (h₀ : serialize (v0 tx₀) = .ok p) (h₁ : serialize (v1 tx₁) = .ok q) : p ++ r ≠ q ++ s := by
  obtain ⟨n, tail, h₂, h₆₄, rfl⟩ := Format.startsWithLength_of_write h₀
  obtain ⟨q', -, rfl⟩ := serialize_v1_eq_ok.mp h₁
  intro h
  exact not_startsWithLength_v1Tag ⟨n, tail ++ r, h₂, h₆₄, h.symm⟩

def parts : VersionedTransaction → List Part
  | v0 tx => Format.transaction.parts tx
  | v1 tx => Format.transactionV1.parts tx

theorem lawful : (⟨serialize, deserializeReader⟩ : Codec VersionedTransaction).Lawful
    (fun x => ∀ p ∈ parts x, p.Fits) (fun x => ∀ p ∈ parts x, p.Valid)
    (fun x => ∀ p ∈ parts x, p.Plain) where
  fits_iff v := by
    cases v with
    | v0 tx => exact Format.transaction.lawful.fits_iff tx
    | v1 tx =>
      refine (Format.transactionV1.lawful.fits_iff tx).trans ?_
      simp [serialize_v1_eq_ok]
  read_write {v p} hv hw rest := by
    cases v with
    | v0 tx => exact read_v0_iff.mpr (Format.transaction.lawful.read_write hv hw rest)
    | v1 tx =>
      obtain ⟨q, hq, rfl⟩ := serialize_v1_eq_ok.mp hw
      exact read_v1_iff.mpr ⟨q ++ rest, rfl, Format.transactionV1.lawful.read_write hv hq rest⟩
  valid_of_read {bs v rest} hr := by
    cases v with
    | v0 tx => exact Format.transaction.lawful.valid_of_read (read_v0_iff.mp hr)
    | v1 tx =>
      obtain ⟨tail, -, ht⟩ := read_v1_iff.mp hr
      exact Format.transactionV1.lawful.valid_of_read ht
  write_read {bs v rest} hr hp := by
    cases v with
    | v0 tx => exact Format.transaction.lawful.write_read (read_v0_iff.mp hr) hp
    | v1 tx =>
      obtain ⟨tail, rfl, ht⟩ := read_v1_iff.mp hr
      obtain ⟨q, hq, rfl⟩ := Format.transactionV1.lawful.write_read ht hp
      exact ⟨v1Tag :: q, serialize_v1_eq_ok.mpr ⟨q, hq, rfl⟩, rfl⟩
  prefixFree {v w p q r s} hp hq hs := by
    cases v with
    | v0 tx =>
      cases w with
      | v0 tx' => exact (Format.transaction.lawful.prefixFree hp hq hs).imp_left (congrArg v0)
      | v1 tx' => exact absurd hs (images_disjoint hp hq)
    | v1 tx =>
      cases w with
      | v0 tx' => exact absurd hs.symm (images_disjoint hq hp)
      | v1 tx' =>
        obtain ⟨p', hp', rfl⟩ := serialize_v1_eq_ok.mp hp
        obtain ⟨q', hq', rfl⟩ := serialize_v1_eq_ok.mp hq
        have htail : p' ++ r = q' ++ s := (List.cons.inj hs).2
        exact (Format.transactionV1.lawful.prefixFree hp' hq' htail).imp_left (congrArg v1)

end VersionedTransaction

namespace Format

def versionedTransaction : Format VersionedTransaction where
  write := VersionedTransaction.serialize
  read := VersionedTransaction.deserializeReader
  parts := VersionedTransaction.parts
  lawful := VersionedTransaction.lawful

def signedTransactionV1 : Format SignedTransactionV1 :=
  (versionedTransaction.pair signature).iso
    ⟨fun x => (x.transaction, x.signature), fun (t, s) => ⟨t, s⟩, fun _ => rfl, fun _ => rfl⟩

end Format

/-! ## Bytes, hashes and text

An encoder's error is a panic of the source: its `expect` names it unreachable, and
only a length beyond `u32::MAX` reaches it. -/

def hashOf (bytes : Except IoError Bytes) : Except IoError CryptoHash := Crates.sha256 <$> bytes

namespace Transaction

def getHash (tx : Transaction) : Except IoError CryptoHash := hashOf (Format.transaction.toVec tx)

def complete (tx : Transaction) (signature : Signature) : SignedTransaction := ⟨tx, signature⟩

end Transaction

def VersionedTransaction.getHash (tx : VersionedTransaction) : Except IoError CryptoHash :=
  hashOf (Format.versionedTransaction.toVec tx)

/-- The error of both `from_bytes` functions. -/
def failedToDeserialize (e : IoError) : Error :=
  .invalidTransaction s!"Failed to deserialize signed transaction: {e.message}"

namespace SignedTransaction

def getHash (tx : SignedTransaction) : Except IoError CryptoHash := tx.transaction.getHash

def toBytes (tx : SignedTransaction) : Except IoError Bytes := Format.signedTransaction.toVec tx

def toBase64 (tx : SignedTransaction) : Except IoError String := Base64.encode <$> tx.toBytes

def fromBytes (bytes : Bytes) : Except Error SignedTransaction :=
  (Format.signedTransaction.fromSlice bytes).mapError failedToDeserialize

/-- The message goes on with the base64 library's own text. -/
def fromBase64 (s : String) : Except Error SignedTransaction :=
  match Base64.decode s with
  | some bytes => fromBytes bytes
  | none => .error (.invalidTransaction "Invalid base64: ")

end SignedTransaction

namespace SignedTransactionV1

def getHash (tx : SignedTransactionV1) : Except IoError CryptoHash := tx.transaction.getHash

def toBytes (tx : SignedTransactionV1) : Except IoError Bytes :=
  Format.signedTransactionV1.toVec tx

def toBase64 (tx : SignedTransactionV1) : Except IoError String := Base64.encode <$> tx.toBytes

def fromBytes (bytes : Bytes) : Except Error SignedTransactionV1 :=
  (Format.signedTransactionV1.fromSlice bytes).mapError failedToDeserialize

def fromBase64 (s : String) : Except Error SignedTransactionV1 :=
  match Base64.decode s with
  | some bytes => fromBytes bytes
  | none => .error (.invalidTransaction "Invalid base64: ")

end SignedTransactionV1

/-! ## Samples -/

omit [Crates]

def Signature.zero : Signature := .ed25519 (.zeros 64)

def Transaction.sample : Transaction :=
  ⟨.alice, .sample 0, 7, .bob, .zeros 32, [.transfer ⟨1⟩]⟩

def TransactionV1.sample : TransactionV1 :=
  ⟨.alice, .sample 0, .gasKeyNonce 7 3, .bob, .zeros 32, [.transfer ⟨1⟩], .strict⟩

end NearKit
