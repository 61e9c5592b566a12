import Mathlib.Data.Nat.Notation
import Mathlib.Tactic.Common

/-!
# Durations

`std::time::Duration`: whole seconds and the nanoseconds of the next one, with its order
and its whole milliseconds.
-/
namespace NearKit

@[ext] structure Duration where
  secs : UInt64
  nanos : UInt32
  nanos_lt : nanos < 1000000000
  deriving DecidableEq

namespace Duration

def max : Duration := ⟨0xFFFFFFFFFFFFFFFF, 999999999, by decide⟩

def ofSecs (secs : UInt64) : Duration := ⟨secs, 0, by decide⟩

/-- The derived order: first the seconds, then the nanoseconds. -/
instance : LE Duration :=
  ⟨fun d e => d.secs < e.secs ∨ (d.secs = e.secs ∧ d.nanos ≤ e.nanos)⟩

instance (d e : Duration) : Decidable (d ≤ e) :=
  inferInstanceAs (Decidable (d.secs < e.secs ∨ (d.secs = e.secs ∧ d.nanos ≤ e.nanos)))

def asMillis (d : Duration) : BitVec 128 :=
  d.secs.toBitVec.setWidth 128 * 1000 + (d.nanos / 1000000).toBitVec.setWidth 128

/-- The milliseconds computed exactly. -/
def millis (d : Duration) : ℕ := d.secs.toNat * 1000 + d.nanos.toNat / 1000000

theorem nanos_toNat_lt (d : Duration) : d.nanos.toNat < 1000000000 :=
  UInt32.lt_iff_toNat_lt.mp d.nanos_lt

/-- No millisecond of a duration is lost in a `u128`. -/
theorem toNat_asMillis (d : Duration) : d.asMillis.toNat = d.millis := by
  have hsecs := d.secs.toNat_lt
  have hnanos := d.nanos_toNat_lt
  have hdiv : (d.nanos / 1000000).toNat = d.nanos.toNat / 1000000 := rfl
  unfold asMillis millis
  rw [BitVec.toNat_add, BitVec.toNat_mul, BitVec.toNat_setWidth, BitVec.toNat_setWidth,
    UInt64.toNat_toBitVec, UInt32.toNat_toBitVec, hdiv]
  have hthousand : (1000 : BitVec 128).toNat = 1000 := rfl
  rw [hthousand]
  omega

theorem millis_mono {d e : Duration} (h : d ≤ e) : d.millis ≤ e.millis := by
  have hd := d.nanos_toNat_lt
  have he := e.nanos_toNat_lt
  unfold millis
  rcases h with hlt | ⟨heq, hle⟩
  · have hlt := UInt64.lt_iff_toNat_lt.mp hlt
    omega
  · have hle := UInt32.le_iff_toNat_le.mp hle
    rw [heq]
    omega

theorem eq_max_of_le {d : Duration} (h : max ≤ d) : d = max := by
  have hsecs := d.secs.toNat_lt
  have hnanos := d.nanos_toNat_lt
  have hmaxSecs : max.secs.toNat = 2 ^ 64 - 1 := rfl
  have hmaxNanos : max.nanos.toNat = 999999999 := rfl
  rcases h with hlt | ⟨heq, hle⟩
  · have hlt := UInt64.lt_iff_toNat_lt.mp hlt
    omega
  · have hle := UInt32.le_iff_toNat_le.mp hle
    exact Duration.ext heq.symm (UInt32.toNat_inj.mp (by omega))

end Duration
end NearKit
