import Mathlib.Algebra.Group.Nat.Defs
import Mathlib.Order.MinMax

/-!
# Durations

`std::time::Duration` counts whole seconds in 64 bits, and nanoseconds up to the next one.  Here it is the
number of its nanoseconds, with the bound that this gives.
-/

namespace Juncture

/-- `std::time::Duration`. -/
@[ext] structure Duration where
  /-- Nanoseconds. -/
  nanos : ℕ
  /-- The seconds are a `u64`. -/
  nanos_lt : nanos < 2 ^ 64 * 10 ^ 9
deriving DecidableEq

namespace Duration

instance : LinearOrder Duration := LinearOrder.lift' nanos fun _ _ => Duration.ext

theorem le_iff {d d' : Duration} : d ≤ d' ↔ d.nanos ≤ d'.nanos := Iff.rfl

/-- `Duration::MAX`. -/
def max : Duration := ⟨2 ^ 64 * 10 ^ 9 - 1, by decide⟩

/-- `Duration::from_millis`, of a `u32`. -/
def fromMillis (millis : UInt32) : Duration :=
  ⟨millis.toNat * 10 ^ 6, by have := millis.toNat_lt; omega⟩

/-- `Duration::from_secs`, of a `u32`. -/
def fromSecs (secs : UInt32) : Duration :=
  ⟨secs.toNat * 10 ^ 9, by have := secs.toNat_lt; omega⟩

/-- `saturating_mul`. -/
def saturatingMul (d : Duration) (n : ℕ) : Duration :=
  ⟨min (d.nanos * n) max.nanos, (Nat.min_le_right _ _).trans_lt max.nanos_lt⟩

theorem saturatingMul_mono (d : Duration) {m n : ℕ} (h : m ≤ n) :
    d.saturatingMul m ≤ d.saturatingMul n :=
  le_iff.2 (min_le_min_right _ (Nat.mul_le_mul_left _ h))

theorem saturatingMul_zero (d : Duration) : (d.saturatingMul 0).nanos = 0 := by
  simp [saturatingMul]

end Duration

end Juncture
