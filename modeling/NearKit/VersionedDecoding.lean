import NearKit.Transactions

/-!
# The versioned decoder and the legacy decoder

The versioned codec is a codec of the disjoint union of the two transaction formats,
and its legacy part is the legacy codec: both decoders of signed transactions accept
the same byte strings with the same values, except for V1 transactions.
-/
namespace NearKit
open Borsh

variable [Crates]

/-- Whatever is accepted as a whole byte string is the encoding of the result. -/
def Format.Canonical {α : Type} (f : Format α) : Prop :=
  ∀ b x, f.fromSlice b = .ok x → f.toVec x = .ok b

private theorem Format.canonical_of_strictOrder {α : Type} (h : Crates.strictOrder = true)
    (f : Format α) : f.Canonical :=
  fun _ x hb => f.lawful.toVec_fromSlice hb (Format.plain_of_strictOrder h f x)

namespace VersionedTransaction

private theorem canonical_of_canonical (h₀ : Format.transaction.Canonical)
    (h₁ : Format.transactionV1.Canonical) : Format.versionedTransaction.Canonical := by
  intro b v hb
  have hr : deserializeReader b = .ok (v, []) := Reader.complete_eq_ok.mp hb
  cases v with
  | v0 tx => exact h₀ b tx (Reader.complete_eq_ok.mpr (read_v0_iff.mp hr))
  | v1 tx =>
    obtain ⟨tail, rfl, ht⟩ := read_v1_iff.mp hr
    have hw := h₁ tail tx (Reader.complete_eq_ok.mpr ht)
    exact serialize_v1_eq_ok.mpr ⟨tail, hw, rfl⟩

/-- The codec of versioned transactions: what is written is read back from any longer
stream, no byte string is written for both versions, and over canonical codecs of the
two versions only written byte strings are accepted. -/
theorem versionedTransaction_codec :
    (∀ v, Format.versionedTransaction.Fits v ↔ ∃ b, serialize v = .ok b) ∧
    (∀ v b, Format.versionedTransaction.Valid v → serialize v = .ok b →
      Format.versionedTransaction.fromSlice b = .ok v ∧
      ∀ rest, deserializeReader (b ++ rest) = .ok (v, rest)) ∧
    (∀ tx₀ tx₁ b₀ b₁, serialize (v0 tx₀) = .ok b₀ → serialize (v1 tx₁) = .ok b₁ → b₀ ≠ b₁) ∧
    (Format.transaction.Canonical → Format.transactionV1.Canonical →
      ∀ b v, Format.versionedTransaction.fromSlice b = .ok v → serialize v = .ok b) := by
  refine ⟨lawful.fits_iff, ?_, ?_, canonical_of_canonical⟩
  · intro v b hv hb
    exact ⟨lawful.fromSlice_toVec hv hb, lawful.read_write hv hb⟩
  · rintro tx₀ tx₁ b₀ b₁ h₀ h₁ rfl
    exact images_disjoint h₀ h₁ (rfl : b₀ ++ [] = b₀ ++ [])

omit [Crates] in
theorem versionedTransaction_codec_sample : ∃ b,
    (@Format.versionedTransaction Crates.accepting).fromSlice b = .ok (v1 TransactionV1.sample) ∧
    @serialize Crates.accepting (v1 TransactionV1.sample) = .ok b := by
  let _ := Crates.accepting
  obtain ⟨hfits, hread, -, hcanon⟩ := versionedTransaction_codec
  obtain ⟨b, hb⟩ := (hfits (v1 .sample)).mp (by decide)
  have hslice := (hread (v1 .sample) b (by decide) hb).1
  exact ⟨b, hslice, hcanon (Format.canonical_of_strictOrder rfl _)
    (Format.canonical_of_strictOrder rfl _) b _ hslice⟩

end VersionedTransaction

/-! ## Signed transactions -/

namespace Format

theorem signedTransaction_read_eq_ok {bs rest : Bytes} {signed : SignedTransaction} :
    signedTransaction.read bs = .ok (signed, rest) ↔
      ∃ mid, transaction.read bs = .ok (signed.transaction, mid) ∧
        signature.read mid = .ok (signed.signature, rest) :=
  Codec.iso_read_eq_ok.trans Codec.pair_read_eq_ok

theorem signedTransactionV1_read_eq_ok {bs rest : Bytes} {signed : SignedTransactionV1} :
    signedTransactionV1.read bs = .ok (signed, rest) ↔
      ∃ mid, versionedTransaction.read bs = .ok (signed.transaction, mid) ∧
        signature.read mid = .ok (signed.signature, rest) :=
  Codec.iso_read_eq_ok.trans Codec.pair_read_eq_ok

/-- On legacy transactions the two decoders are one. -/
theorem signedTransactionV1_read_fromSigned {bs rest : Bytes} {signed : SignedTransaction} :
    signedTransactionV1.read bs = .ok (.fromSigned signed, rest) ↔
      signedTransaction.read bs = .ok (signed, rest) := by
  rw [signedTransactionV1_read_eq_ok, signedTransaction_read_eq_ok]
  exact exists_congr fun mid => and_congr_left fun _ => VersionedTransaction.read_v0_iff

end Format

namespace SignedTransaction

theorem fromBytes_eq_ok {b : Bytes} {tx : SignedTransaction} :
    fromBytes b = .ok tx ↔ Format.signedTransaction.read b = .ok (tx, []) := by
  rw [← Reader.complete_eq_ok, fromBytes, Codec.fromSlice]
  cases Format.signedTransaction.read.complete b <;> simp [Except.mapError]

end SignedTransaction

namespace SignedTransactionV1

theorem fromBytes_eq_ok {b : Bytes} {tx : SignedTransactionV1} :
    fromBytes b = .ok tx ↔ Format.signedTransactionV1.read b = .ok (tx, []) := by
  rw [← Reader.complete_eq_ok, fromBytes, Codec.fromSlice]
  cases Format.signedTransactionV1.read.complete b <;> simp [Except.mapError]

private theorem tagged_of_fromBytes {b : Bytes} {tx : TransactionV1} {signature : Signature}
    (h : fromBytes b = .ok ⟨.v1 tx, signature⟩) : ∃ tail, b = VersionedTransaction.v1Tag :: tail := by
  obtain ⟨mid, hr, -⟩ := Format.signedTransactionV1_read_eq_ok.mp (fromBytes_eq_ok.mp h)
  obtain ⟨tail, rfl, -⟩ := VersionedTransaction.read_v1_iff.mp hr
  exact ⟨tail, rfl⟩

private theorem tagged_of_toBytes {b : Bytes} {tx : TransactionV1} {signature : Signature}
    (h : toBytes ⟨.v1 tx, signature⟩ = .ok b) : ∃ tail, b = VersionedTransaction.v1Tag :: tail := by
  obtain ⟨p, q, hp, -, rfl⟩ := seq_eq_ok.mp h
  obtain ⟨p', -, rfl⟩ := VersionedTransaction.serialize_v1_eq_ok.mp hp
  exact ⟨p' ++ q, rfl⟩

end SignedTransactionV1

private theorem SignedTransaction.startsWithLength_of_fromBytes {b : Bytes} {tx : SignedTransaction}
    (h : fromBytes b = .ok tx) : StartsWithLength b := by
  obtain ⟨mid, hr, -⟩ := Format.signedTransaction_read_eq_ok.mp (fromBytes_eq_ok.mp h)
  exact Format.startsWithLength_of_read hr

/-- The legacy decoder accepts exactly the versioned decoder's legacy transactions, with
the same value, bytes and hash, and no V1 transaction. -/
theorem legacy_versioned_agree :
    (∀ b tx, SignedTransaction.fromBytes b = .ok tx ↔
      SignedTransactionV1.fromBytes b = .ok (.fromSigned tx)) ∧
    (∀ tx, (SignedTransactionV1.fromSigned tx).toBytes = tx.toBytes ∧
      (SignedTransactionV1.fromSigned tx).getHash = tx.getHash) ∧
    (∀ b tx signature, SignedTransactionV1.fromBytes b = .ok ⟨.v1 tx, signature⟩ →
      ∀ legacy, SignedTransaction.fromBytes b ≠ .ok legacy) ∧
    (∀ b tx signature, SignedTransactionV1.toBytes ⟨.v1 tx, signature⟩ = .ok b →
      ∀ legacy, SignedTransaction.fromBytes b ≠ .ok legacy) := by
  refine ⟨?_, fun _ => ⟨rfl, rfl⟩, ?_, ?_⟩
  · intro b tx
    rw [SignedTransaction.fromBytes_eq_ok, SignedTransactionV1.fromBytes_eq_ok]
    exact Format.signedTransactionV1_read_fromSigned.symm
  · intro b tx signature hv legacy hl
    obtain ⟨tail, rfl⟩ := SignedTransactionV1.tagged_of_fromBytes hv
    exact VersionedTransaction.not_startsWithLength_v1Tag
      (SignedTransaction.startsWithLength_of_fromBytes hl)
  · intro b tx signature hw legacy hl
    obtain ⟨tail, rfl⟩ := SignedTransactionV1.tagged_of_toBytes hw
    exact VersionedTransaction.not_startsWithLength_v1Tag
      (SignedTransaction.startsWithLength_of_fromBytes hl)

omit [Crates] in
theorem legacy_versioned_agree_sample : ∃ b,
    @SignedTransactionV1.toBytes Crates.accepting ⟨.v1 .sample, .zero⟩ = .ok b ∧
    @SignedTransaction.fromBytes Crates.accepting b ≠ .ok ⟨.sample, .zero⟩ := by
  let _ := Crates.accepting
  obtain ⟨b, hb⟩ := (Format.signedTransactionV1.lawful.fits_iff ⟨.v1 .sample, .zero⟩).mp
    (by decide : Format.signedTransactionV1.Fits ⟨.v1 .sample, .zero⟩)
  exact ⟨b, hb, legacy_versioned_agree.2.2.2 b _ _ hb _⟩

end NearKit
