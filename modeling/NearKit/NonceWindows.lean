import NearKit.SignedMessages

/-!
# Nonce windows

The timestamp in a nonce, the clock and the maximum age are read as whole milliseconds.
`verifySignature` accepts a valid signature whose timestamp is not in the future and not
older than the maximum age.
-/
namespace NearKit
open Borsh

/-! ## Milliseconds -/

/-- `now_millis`, from the time elapsed since the epoch. -/
def nowMillis (elapsed : Duration) : UInt64 := ⟨elapsed.asMillis.setWidth 64⟩

/-- The first eight bytes as a big-endian number. -/
def timestampMillis (nonce : ByteArr 32) : ℕ :=
  Nat.ofDigits 256 ((nonce.val.take 8).map UInt8.toNat).reverse

private theorem timestampMillis_lt (nonce : ByteArr 32) : timestampMillis nonce < 2 ^ 64 := by
  have hdigits : ∀ d ∈ ((nonce.val.take 8).map UInt8.toNat).reverse, d < 256 := by
    intro d hd
    obtain ⟨b, -, rfl⟩ := List.mem_map.mp (List.mem_reverse.mp hd)
    exact b.toNat_lt
  have hlt := Nat.ofDigits_lt_base_pow_length (by norm_num) hdigits
  have hlen : ((nonce.val.take 8).map UInt8.toNat).reverse.length = 8 := by
    rw [List.length_reverse, List.length_map, List.length_take, nonce.2]
    rfl
  rw [hlen] at hlt
  exact hlt

theorem toNat_extractTimestamp (nonce : ByteArr 32) :
    (extractTimestampFromNonce nonce).toNat = timestampMillis nonce :=
  UInt64.toNat_ofNat_of_lt' (timestampMillis_lt nonce)

theorem toNat_saturatingSub (a b : UInt64) : (saturatingSub a b).toNat = a.toNat - b.toNat := by
  unfold saturatingSub
  by_cases h : b ≤ a
  · rw [if_pos h, UInt64.toNat_sub_of_le _ _ h]
  · have hlt : a.toNat < b.toNat := UInt64.lt_iff_toNat_lt.mp (UInt64.not_le.mp h)
    rw [if_neg h, Nat.sub_eq_zero_of_le hlt.le]
    rfl

theorem toNat_widen (a : UInt64) : (a.toBitVec.setWidth 128).toNat = a.toNat := by
  have ha := a.toNat_lt
  rw [BitVec.toNat_setWidth, UInt64.toNat_toBitVec]
  exact Nat.mod_eq_of_lt (by omega)

/-! ## The window -/

namespace NonceValidation

def ofDuration (maxAge : Duration) : NonceValidation :=
  if maxAge = Duration.max then .none else .timestamp maxAge

/-- The timestamp `ts` is in the window that ends at `now`. -/
def Admits : NonceValidation → ℕ → ℕ → Prop
  | .none, _, _ => True
  | .timestamp maxAge, ts, now => ts ≤ now ∧ now - ts ≤ maxAge.millis

private theorem rejects_eq_false_iff (validation : NonceValidation) (nonce : ByteArr 32)
    (nowMs : UInt64) : validation.rejects nonce nowMs = false ↔
      validation.Admits (timestampMillis nonce) nowMs.toNat := by
  cases validation with
  | none => exact iff_of_true rfl trivial
  | timestamp maxAge =>
    unfold rejects Admits
    simp only [decide_eq_false_iff_not, not_or]
    rw [BitVec.lt_def, Duration.toNat_asMillis, toNat_widen, toNat_saturatingSub,
      UInt64.lt_iff_toNat_lt, toNat_extractTimestamp]
    omega

/-- Duration by duration, and the longest one asks for nothing. -/
theorem admits_ofDuration (maxAge : Duration) (ts now : ℕ) :
    (ofDuration maxAge).Admits ts now ↔
      maxAge = Duration.max ∨ (ts ≤ now ∧ now - ts ≤ maxAge.millis) := by
  unfold ofDuration
  by_cases hmax : maxAge = Duration.max
  · rw [if_pos hmax]
    exact iff_of_true trivial (.inl hmax)
  · rw [if_neg hmax]
    exact (or_iff_right hmax).symm

theorem admits_timestamp_mono {d e : Duration} (h : d ≤ e) {ts now : ℕ}
    (hd : (timestamp d).Admits ts now) : (timestamp e).Admits ts now :=
  ⟨hd.1, hd.2.trans (Duration.millis_mono h)⟩

/-- A longer maximum age admits more, and the longest one everything. -/
theorem admits_mono {d e : Duration} (h : d ≤ e) {ts now : ℕ}
    (hd : (ofDuration d).Admits ts now) : (ofDuration e).Admits ts now := by
  rw [admits_ofDuration] at hd ⊢
  rcases hd with rfl | ⟨hpast, hage⟩
  · exact .inl (Duration.eq_max_of_le h)
  · exact .inr (admits_timestamp_mono h ⟨hpast, hage⟩)

end NonceValidation

/-! ## Acceptance -/

section
variable [SigningCrates]

/-- The message has a payload hash and the signature is valid for it. -/
def SignedMessage.SignatureValid (signed : SignedMessage) (params : SignMessageParams) : Prop :=
  ∃ hash, Nep413.serializeMessage params = .ok hash ∧
    signed.signature.verify hash.val signed.publicKey = true

def Accepts (signed : SignedMessage) (params : SignMessageParams) (validation : NonceValidation)
    (nowMs : UInt64) : Prop := verifySignature signed params validation nowMs = .ok true

theorem accepts_iff (signed : SignedMessage) (params : SignMessageParams)
    (validation : NonceValidation) (nowMs : UInt64) :
    Accepts signed params validation nowMs ↔
      signed.SignatureValid params ∧
        validation.Admits (timestampMillis params.nonce) nowMs.toNat := by
  rw [← NonceValidation.rejects_eq_false_iff]
  unfold Accepts verifySignature
  cases hrejects : validation.rejects params.nonce nowMs with
  | true =>
    rw [if_pos rfl]
    exact iff_of_false nofun nofun
  | false =>
    rw [if_neg nofun]
    constructor
    · intro h
      obtain ⟨hash, hhash, h⟩ := bind_eq_ok.mp h
      exact ⟨⟨hash, hhash, Except.ok.inj h⟩, rfl⟩
    · rintro ⟨⟨hash, hhash, hverify⟩, -⟩
      exact bind_eq_ok.mpr ⟨hash, hhash, congrArg Except.ok hverify⟩

theorem accepts_of_admits {v w : NonceValidation} (h : ∀ ts now, v.Admits ts now → w.Admits ts now)
    {signed : SignedMessage} {params : SignMessageParams} {nowMs : UInt64}
    (hv : Accepts signed params v nowMs) : Accepts signed params w nowMs := by
  rw [accepts_iff] at hv ⊢
  exact ⟨hv.1, h _ _ hv.2⟩

/-- A signature is accepted exactly in its window, a longer maximum age accepts more, and
every number of milliseconds on the way is the exact one. -/
theorem verification_window (signed : SignedMessage) (params : SignMessageParams)
    (nowMs : UInt64) :
    (∀ validation, Accepts signed params validation nowMs ↔
      signed.SignatureValid params ∧
        (validation = .none ∨ ∃ maxAge, validation = .timestamp maxAge ∧
          timestampMillis params.nonce ≤ nowMs.toNat ∧
          nowMs.toNat - timestampMillis params.nonce ≤ maxAge.millis)) ∧
    (∀ maxAge, Accepts signed params (.ofDuration maxAge) nowMs ↔
      signed.SignatureValid params ∧
        (maxAge = Duration.max ∨
          (timestampMillis params.nonce ≤ nowMs.toNat ∧
          nowMs.toNat - timestampMillis params.nonce ≤ maxAge.millis))) ∧
    (∀ d e : Duration, d ≤ e →
      (Accepts signed params (.ofDuration d) nowMs → Accepts signed params (.ofDuration e) nowMs) ∧
      (Accepts signed params (.timestamp d) nowMs → Accepts signed params (.timestamp e) nowMs)) ∧
    (extractTimestampFromNonce params.nonce).toNat = timestampMillis params.nonce ∧
    (saturatingSub nowMs (extractTimestampFromNonce params.nonce)).toNat =
      nowMs.toNat - timestampMillis params.nonce ∧
    ((saturatingSub nowMs (extractTimestampFromNonce params.nonce)).toBitVec.setWidth 128).toNat =
      nowMs.toNat - timestampMillis params.nonce ∧
    (∀ maxAge : Duration, maxAge.asMillis.toNat = maxAge.millis) := by
  have hage : (saturatingSub nowMs (extractTimestampFromNonce params.nonce)).toNat =
      nowMs.toNat - timestampMillis params.nonce := by
    rw [toNat_saturatingSub, toNat_extractTimestamp]
  refine ⟨?_, ?_, ?_, toNat_extractTimestamp _, hage, ?_, Duration.toNat_asMillis⟩
  · intro validation
    rw [accepts_iff]
    refine and_congr_right fun _ => ?_
    cases validation with
    | none => exact iff_of_true trivial (.inl rfl)
    | timestamp maxAge =>
      constructor
      · exact fun h => .inr ⟨maxAge, rfl, h⟩
      · rintro (h | ⟨_, heq, h⟩)
        · cases h
        · cases heq
          exact h
  · intro maxAge
    rw [accepts_iff, NonceValidation.admits_ofDuration]
  · intro d e h
    exact ⟨accepts_of_admits fun _ _ => NonceValidation.admits_mono h,
      accepts_of_admits fun _ _ => NonceValidation.admits_timestamp_mono h⟩
  · rw [toNat_widen, hage]

end
end NearKit
