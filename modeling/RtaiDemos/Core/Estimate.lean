import Mathlib.Tactic.Linarith
import Mathlib.Tactic.Ring

/-!
# Estimates from a round trip, and their smoothing

One party reads its clock, asks, and reads its clock again; the other reads its
own in between. The middle of the two readings less the third is the offset of
the clocks, up to half the round trip (`mid_sub_bounds`). A value that moves a
part of the way towards each new estimate, with truncating division, comes
near the offset and stays there (`smooth_step`, `smooth_run`).
-/

namespace RtaiDemos.Estimate

/-- The mean of two naturals computed without their sum. -/
def mid (a b : Int) : Int :=
  if a % 2 + b % 2 = 2 then a / 2 + b / 2 + 1 else a / 2 + b / 2

theorem mid_eq (a b : Int) : mid a b = (a + b) / 2 := by
  unfold mid
  split <;> omega

/-- The error of the middle: clocks that run at one rate with offsets `a` and
`b`, read at `s₀ ≤ s ≤ s₁`. -/
theorem mid_sub_bounds {s₀ s s₁ : Int} (h₀ : s₀ ≤ s) (h₁ : s ≤ s₁) (a b : Int) :
    -(s₁ - s₀ + 1) ≤ 2 * (mid (s₀ + a) (s₁ + a) - (s + b) - (a - b)) ∧
      2 * (mid (s₀ + a) (s₁ + a) - (s + b) - (a - b)) ≤ s₁ - s₀ := by
  rw [mid_eq]
  omega

/-- One step of `x ← (8 x + 2 y) / 10`, against a target that `y` misses by at
most `e`. -/
theorem smooth_step {x y d e : Int} (hy : |y - d| ≤ e) :
    10 * |(8 * x + 2 * y).tdiv 10 - d| ≤ 8 * |x - d| + 2 * e + 9 := by
  have hdiv := Int.mul_tdiv_add_tmod (8 * x + 2 * y) 10
  have hlt := Int.tmod_lt_of_pos (8 * x + 2 * y) (show (0 : Int) < 10 by decide)
  have hgt : -10 < (8 * x + 2 * y).tmod 10 := by
    have := Int.lt_tmod_of_pos (8 * x + 2 * y) (show (0 : Int) < 10 by decide)
    omega
  generalize (8 * x + 2 * y).tdiv 10 = z at hdiv ⊢
  generalize (8 * x + 2 * y).tmod 10 = r at hdiv hlt hgt
  rcases abs_cases (z - d) with ⟨hz, _⟩ | ⟨hz, _⟩ <;> rcases abs_cases (x - d) with ⟨hx, _⟩ | ⟨hx, _⟩ <;>
    rcases abs_cases (y - d) with ⟨hyd, _⟩ | ⟨hyd, _⟩ <;> rw [hz, hx] <;> rw [hyd] at hy <;> omega

/-- The value stays between bounds that hold of it and of every estimate. -/
theorem smooth_between {x y lo hi : Int} (hx : lo ≤ x ∧ x ≤ hi) (hy : lo ≤ y ∧ y ≤ hi) :
    lo ≤ (8 * x + 2 * y).tdiv 10 ∧ (8 * x + 2 * y).tdiv 10 ≤ hi := by
  have hdiv := Int.mul_tdiv_add_tmod (8 * x + 2 * y) 10
  have hlt := Int.tmod_lt_of_pos (8 * x + 2 * y) (show (0 : Int) < 10 by decide)
  have hgt := Int.lt_tmod_of_pos (8 * x + 2 * y) (show (0 : Int) < 10 by decide)
  generalize (8 * x + 2 * y).tdiv 10 = z at hdiv ⊢
  generalize (8 * x + 2 * y).tmod 10 = r at hdiv hlt hgt
  omega

/-- `n` steps after `x₀` the distance has shrunk by `(4/5)^n`, down to what one
step cannot remove. -/
theorem smooth_run {n : Nat} {D D' D₀ e : Int} (hD : 5 ^ n * (2 * D - (2 * e + 9)) ≤ 4 ^ n * D₀)
    (hstep : 10 * D' ≤ 8 * D + 2 * e + 9) :
    5 ^ (n + 1) * (2 * D' - (2 * e + 9)) ≤ 4 ^ (n + 1) * D₀ := by
  have hone : 5 * (2 * D' - (2 * e + 9)) ≤ 4 * (2 * D - (2 * e + 9)) := by linarith
  calc (5 : Int) ^ (n + 1) * (2 * D' - (2 * e + 9))
      = 5 ^ n * (5 * (2 * D' - (2 * e + 9))) := by ring
    _ ≤ 5 ^ n * (4 * (2 * D - (2 * e + 9))) := mul_le_mul_of_nonneg_left hone (by positivity)
    _ = 4 * (5 ^ n * (2 * D - (2 * e + 9))) := by ring
    _ ≤ 4 * (4 ^ n * D₀) := mul_le_mul_of_nonneg_left hD (by decide)
    _ = 4 ^ (n + 1) * D₀ := by ring

end RtaiDemos.Estimate
