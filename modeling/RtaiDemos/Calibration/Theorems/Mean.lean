import RtaiDemos.Calibration.Latency

/-!
# The mean latency

`spv` returns exactly when every sum on the way is an int and the number of loops is
one, and it returns their last. So the number printed is the mean exactly for the
periods, times and latencies that stay in bounds.
-/

namespace RtaiDemos.Calibration

open CInt

/-! ### The accumulator -/

section Accumulator

variable {latency : Nat → Int} (hlat : ∀ i, Fits (latency i))

include hlat

/-- The loop adds up what is left. -/
theorem spvFrom_of_fits {n : Nat} (hn : n ≤ 2147483647) (hsums : ∀ k ≤ n, Fits (total latency k))
    (m : Nat) : ∀ k : Nat, k + m = n →
      spvFrom n latency k (total latency k) = some (total latency n) := by
  induction m with
  | zero =>
      intro k hk
      rw [spvFrom, if_neg (by omega)]
      exact congrArg some (congrArg (total latency) hk)
  | succ m ih =>
      intro k hk
      have hsum : total latency k + toInt (latency (k : Int).toNat) = total latency (k + 1) := by
        rw [toInt_of_fits (hlat _), Int.toNat_natCast, total_succ]
      rw [spvFrom, if_pos (by omega), hsum, checked_of_fits (hsums (k + 1) (by omega)),
        Option.bind_some, if_pos (by omega)]
      exact ih (k + 1) (by omega)

/-- A loop that ends has added up ints only, and its counter is one. -/
theorem fits_of_spvFrom {n : Nat} {v : Int} (m : Nat) : ∀ k : Nat, k + m = n →
    spvFrom n latency k (total latency k) = some v →
      (0 < m → n ≤ 2147483647) ∧ ∀ j, k < j → j ≤ n → Fits (total latency j) := by
  induction m with
  | zero =>
      intro k hk _
      exact ⟨fun h => absurd h (lt_irrefl 0), fun j hkj hjn => by omega⟩
  | succ m ih =>
      intro k hk hv
      have hsum : total latency k + toInt (latency (k : Int).toNat) = total latency (k + 1) := by
        rw [toInt_of_fits (hlat _), Int.toNat_natCast, total_succ]
      rw [spvFrom, if_pos (by omega), hsum] at hv
      obtain ⟨average, hchecked, hrest⟩ := Option.bind_eq_some_iff.mp hv
      obtain ⟨hfits, rfl⟩ := checked_eq_some.mp hchecked
      have hcount : (k : Int) < 2147483647 := by
        by_contra hlast
        rw [if_neg hlast] at hrest
        cases hrest
      rw [if_pos hcount] at hrest
      obtain ⟨hn, hj⟩ := ih (k + 1) (by omega) hrest
      refine ⟨fun _ => ?_, fun j hkj hjn => ?_⟩
      · rcases Nat.eq_zero_or_pos m with rfl | hm
        · omega
        · exact hn hm
      · rcases Nat.lt_or_eq_of_le (Nat.succ_le_of_lt hkj) with hlt | heq
        · exact hj j hlt hjn
        · rw [← heq]
          exact hfits

/-- `spv` of a number of loops that is an int. -/
theorem spv_of_fits {w n : Nat} (hlong : long w n = n) (hn : n ≤ 2147483647)
    (hsums : ∀ k ≤ n, Fits (total latency k)) : spv w n latency = some (total latency n) := by
  unfold spv
  rw [hlong]
  exact spvFrom_of_fits hlat hn hsums n 0 (Nat.zero_add n)

theorem fits_of_spv {w n : Nat} {v : Int} (hlong : long w n = n) (hv : spv w n latency = some v) :
    ∀ k ≤ n, Fits (total latency k) := by
  unfold spv at hv
  rw [hlong] at hv
  obtain ⟨_, hj⟩ := fits_of_spvFrom hlat n 0 (Nat.zero_add n) hv
  intro k hk
  rcases Nat.eq_zero_or_pos k with rfl | hpos
  · rw [total_zero]
    decide
  · exact hj k hpos hk

end Accumulator

/-! ### The number of loops -/

theorem long_of_le {w n : Nat} (hw : w = 32 ∨ w = 64) (hn : n ≤ 2147483647) : long w n = n := by
  unfold long
  rcases hw with rfl | rfl
  · exact Int.bmod_eq_of_le (by omega) (by omega)
  · exact Int.bmod_eq_of_le (by omega) (by omega)

theorem loops_of_lt {w period time : Nat} (h : 1000000 * time < 2 ^ w) :
    loops w period time = periods period time := by
  unfold loops periods
  rw [Nat.mod_eq_of_lt h]

/-- A product that wraps loses more than a period, so the number of loops shows it. -/
theorem lt_of_loops {w period time : Nat} (hw : w = 32 ∨ w = 64) (hpos : 0 < period)
    (hle : period ≤ 2147483647) (h : loops w period time = periods period time) :
    1000000 * time < 2 ^ w := by
  by_contra hwrap
  have hpow : 2 ^ 32 ≤ 2 ^ w := by
    rcases hw with rfl | rfl <;> decide
  have hmod : 1000000 * time % 2 ^ w + period ≤ 1000000 * time := by
    have hdm := Nat.mod_add_div (1000000 * time) (2 ^ w)
    have hq : 1 ≤ 1000000 * time / 2 ^ w :=
      (Nat.one_le_div_iff (by omega)).mpr (Nat.le_of_not_lt hwrap)
    have hmul : 2 ^ w * 1 ≤ 2 ^ w * (1000000 * time / 2 ^ w) := Nat.mul_le_mul_left _ hq
    omega
  have hdiv := Nat.div_le_div_right (c := period) hmod
  rw [Nat.add_div_right _ hpos] at hdiv
  unfold loops periods at h
  omega

theorem toInt_natCast {n : Nat} (hn : n ≤ 2147483647) : toInt n = n :=
  toInt_of_fits ⟨by omega, by omega⟩

theorem getint_some {tmp : Int} {n : Nat} (hfits : Fits tmp) (h : getint tmp = some n) :
    0 < n ∧ n ≤ 2147483647 := by
  obtain ⟨_, hhi⟩ := hfits
  unfold getint at h
  split at h
  · cases h
  · cases h
    omega

/-! ### The message -/

/-- The message of a sum whose mean is printed. -/
theorem report_eq {params : params_t} {n : Nat} {sum : Int} (hpos : 0 < n) (hn : n ≤ 2147483647)
    (hsum : Fits sum) :
    report params n sum = checked (params.inUse + sum.tdiv n) := by
  unfold report
  rw [toInt_natCast hn, divide_of_pos hsum (by omega), Option.bind_some]

/-- The calibration reports the true mean if and only if the numbers that are typed
and the latencies stay in bounds. -/
theorem true_mean_iff {w period : Nat} {p : Int} {latency : Nat → Int} (hw : w = 32 ∨ w = 64)
    (params : params_t) (time : Nat) (hp : Fits p) (hperiod : getint p = some period)
    (hlat : ∀ i, Fits (latency i)) :
    TrueMean w params period time latency ↔ InBounds w params period time latency := by
  obtain ⟨hpos, hle⟩ := getint_some hp hperiod
  constructor
  · intro h
    have hlt := lt_of_loops hw hpos hle h.loops_eq
    have hn : periods period time ≤ 2147483647 := by
      have hdiv := h.divisor
      have hint := toInt_fits (loops w period time)
      rw [hdiv] at hint
      obtain ⟨_, hhi⟩ := hint
      omega
    have hacc := h.accumulated
    rw [h.loops_eq] at hacc
    have hsums := fits_of_spv hlat (long_of_le hw hn) hacc
    have hn0 : 0 < periods period time := h.loops_eq ▸ h.loops_pos
    have hprinted := h.printed
    unfold klatency at hprinted
    rw [h.loops_eq, hacc, Option.bind_some, report_eq hn0 hn (hsums _ le_rfl)] at hprinted
    refine ⟨?_, hlt, hn, hsums, (checked_eq_some.mp hprinted).1⟩
    unfold periods at hn0
    exact (Nat.div_pos_iff.mp hn0).2
  · intro h
    have hloops : loops w period time = periods period time := loops_of_lt h.product_lt
    have hn0 : 0 < periods period time := Nat.div_pos h.period_le hpos
    have hacc := spv_of_fits hlat (long_of_le hw h.periods_le) h.periods_le h.sums
    refine ⟨?_, hloops, ?_, ?_, ?_⟩
    · rw [hloops]
      exact hn0
    · rw [hloops]
      exact toInt_natCast h.periods_le
    · rw [hloops]
      exact hacc
    · unfold klatency
      rw [hloops, hacc, Option.bind_some, report_eq hn0 h.periods_le (h.sums _ le_rfl)]
      exact checked_of_fits h.printed

/-- With 64 bits, a period of 100 us and 1 s. -/
theorem true_mean_iff_second :
    getint 100 = some 100 ∧
      (TrueMean 64 ⟨1, 4700, 3944⟩ 100 1 (fun _ => 2000) ↔
        InBounds 64 ⟨1, 4700, 3944⟩ 100 1 (fun _ => 2000)) :=
  ⟨by decide, true_mean_iff (p := 100) (.inr rfl) _ 1 (by decide) (by decide) fun _ => by decide⟩

/-- A period of 2 s in a time of 1 s: there is no loop, and the division is by 0. -/
theorem klatency_no_period (params : params_t) (latency : Nat → Int) :
    klatency 64 params 2000000 1 latency = none := by
  have hspv : spv 64 (loops 64 2000000 1) latency = some 0 := by
    rw [show loops 64 2000000 1 = 0 from by decide]
    unfold spv
    rw [show long 64 (0 : Nat) = 0 from by decide, spvFrom, if_neg (lt_irrefl 0)]
  unfold klatency report
  rw [hspv, Option.bind_some, show toInt (loops 64 2000000 1) = 0 from by decide, divide_zero]
  rfl

/-- So the mean is not what is printed for every period and time that is accepted. -/
theorem mean_fails :
    ¬ ∀ (w period time : Nat) (p t : Int) (params : params_t) (latency : Nat → Int),
      w = 32 ∨ w = 64 → Fits p → Fits t → getint p = some period → getint t = some time →
        (∀ i, Fits (latency i)) → TrueMean w params period time latency := by
  intro h
  have hmean := h 64 2000000 1 2000000 1 ⟨1, 4700, 3944⟩ (fun _ => 2000) (.inr rfl) (by decide)
    (by decide) (by decide) (by decide) (fun _ => by decide)
  have hnone := klatency_no_period ⟨1, 4700, 3944⟩ fun _ => 2000
  rw [hmean.printed] at hnone
  cases hnone

end RtaiDemos.Calibration
