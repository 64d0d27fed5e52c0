import Mathlib.Algebra.Order.Ring.Int
import Mathlib.Data.List.MinMax
import RtaiDemos.Core.Fold
import RtaiDemos.Timerbench.Eval

/-!
# The samples of a round

What `add_histogram` and the overrun loop compute, and the invariant of the loop
over the delays of one round. Sums are known modulo the width of their type.
-/

namespace RtaiDemos.Timerbench

open RtaiDemos.Fold

variable {w : Nat}

theorem long_add (w : Nat) (x y : Int) : long w (long w x + y) = long w (x + y) :=
  Int.bmod_add_bmod

theorem longLong_add (x y : Int) : longLong (longLong x + y) = longLong (x + y) :=
  Int.bmod_add_bmod

/-- `LONG_MAX`, plus one. -/
def longEnd (w : Nat) : Int := 2 ^ (w - 1)

theorem two_longEnd (hw : 32 ≤ w) : ((2 ^ w : Nat) : Int) = 2 * longEnd w := by
  rw [← Nat.two_pow_pred_mul_two (by omega), Nat.mul_comm]
  push_cast
  rfl

/-- An `int` is a `long`. -/
theorem int_lt_longEnd (hw : 32 ≤ w) : 2 ^ 31 ≤ longEnd w := by
  unfold longEnd
  exact pow_le_pow_right₀ (by decide) (by omega)

theorem long_of_fits (hw : 32 ≤ w) {x : Int} (hlo : -longEnd w ≤ x) (hhi : x < longEnd w) :
    long w x = x := by
  have htwo := two_longEnd hw
  exact Int.bmod_eq_of_le_mul_two (by omega) (by omega)

theorem long_lt (hw : 32 ≤ w) (x : Int) : long w x < longEnd w := by
  have htwo := two_longEnd hw
  have hend := int_lt_longEnd hw
  have hlt : long w x < ((2 ^ w : Nat) + 1) / 2 := Int.bmod_lt (by omega)
  omega

/-- The negation of `LONG_MIN` is itself. -/
theorem long_end (hw : 32 ≤ w) : long w (longEnd w) = -longEnd w := by
  have hend := int_lt_longEnd hw
  exact Int.bmod_eq_neg (by omega) (two_longEnd hw)

/-- How many periods end before a delay does. -/
def overruns (period : Nat) (dt : Int) : Int := if 0 < dt then (dt - 1) / period else 0

theorem overruns_le {period : Nat} {dt : Int} (h : dt ≤ period) : overruns period dt = 0 := by
  unfold overruns
  split
  · exact Int.ediv_eq_zero_of_lt (by omega) (by omega)
  · rfl

theorem overruns_next {period : Nat} (hperiod : 0 < period) {dt : Int} (h : period < dt) :
    overruns period dt = 1 + overruns period (dt - period) := by
  unfold overruns
  rw [if_pos (by omega), if_pos (by omega)]
  have hsplit : dt - 1 = (dt - period - 1) + 1 * period := by omega
  rw [hsplit, Int.add_mul_ediv_right _ _ (by omega)]
  exact Int.add_comm _ _

/-- The loop counts them. -/
theorem overrunLoop_overruns {period : Nat} (hperiod : 0 < period) {fuel : Nat} {dt : Int}
    (hfuel : dt.toNat ≤ fuel) (x : Int) (date : BitVec 64) :
    (overrunLoop w period fuel dt (long w x) date).1 = long w (x + overruns period dt) := by
  induction fuel generalizing dt x date with
  | zero =>
      rw [overruns_le (by omega), Int.add_zero]
      rfl
  | succ fuel ih =>
      unfold overrunLoop
      by_cases hover : dt > 0 ∧ dt > period
      · rw [if_pos hover, long_add, ih (by omega), overruns_next hperiod hover.2, Int.add_assoc]
      · rw [if_neg hover, overruns_le (by omega), Int.add_zero]

/-- Where a value belongs. -/
def bucket (config : Config) (x : Int) : Int :=
  min (x.natAbs / config.histogram_bucketsize) (config.histogram_size - 1)

/-- The context has the parameters of the configuration. -/
structure Params (w : Nat) (config : Config) (ctx : Context) : Prop where
  period : ctx.period = config.period
  warmup_loops : ctx.warmup_loops = config.warmup_loops
  samples : ctx.samples_per_sec = 1000000000 / config.period
  size : ctx.histogram_size = config.histogram_size
  bucketsize : 0 < config.histogram_size → ctx.bucketsize = config.histogram_bucketsize
  block : 0 < config.histogram_size → ctx.block = some (kmallocSize w config.histogram_size)

/-- The domain of the configuration. -/
structure Config.Valid (config : Config) : Prop where
  period : 1 ≤ config.period ∧ config.period ≤ 1000000000
  warmup_loops : 0 ≤ config.warmup_loops ∧ config.warmup_loops < 2 ^ 31
  bucketsize : 0 < config.histogram_bucketsize ∧ config.histogram_bucketsize < 2 ^ 31

/-- The block that `rt_tmbench_start` gets holds the histograms. -/
def Config.Held (w : Nat) (config : Config) : Prop :=
  holdsThree w config.histogram_size (kmallocSize w config.histogram_size) = true

/-- A block that does not hold them ends before the last, which is the one that the first
access after the warm-up goes to. -/
theorem Config.last_beyond (hw : w = 32 ∨ w = 64) {config : Config}
    (hsize : 0 < config.histogram_size ∧ config.histogram_size < 2 ^ 31)
    (h : ¬ config.Held w) :
    (kmallocSize w config.histogram_size : Int) ≤ 2 * config.histogram_size * sizeofLong w := by
  obtain ⟨hpos, hint⟩ := hsize
  unfold Config.Held holdsThree at h
  rw [decide_eq_true_eq] at h
  generalize config.histogram_size = size at *
  rcases hw with rfl | rfl
  · simp only [kmallocSize, sizeofLong, Int.bmod_def] at h ⊢
    omega
  · simp only [kmallocSize, sizeofLong, Int.bmod_def] at h ⊢
    omega

/-- No histogram has a cell. -/
def Config.Broken (w : Nat) (config : Config) : Prop :=
  config.histogram_size < 0 ∨ 0 < config.histogram_size ∧ ¬ config.Held w

/-- `dt` is a `long`. -/
def IsLong (w : Nat) (dt : Int) : Prop := -longEnd w ≤ dt ∧ dt < longEnd w

theorem long_isLong (hw : 32 ≤ w) (x : Int) : IsLong w (long w x) := by
  have htwo := two_longEnd hw
  have hend := int_lt_longEnd hw
  have hle : -((2 ^ w : Nat) / 2 : Int) ≤ long w x := Int.le_bmod (by omega)
  exact ⟨by omega, long_lt hw x⟩

theorem long_le (hw : 32 ≤ w) {x : Int} (hx : -longEnd w ≤ x) : long w x ≤ x := by
  by_cases hlt : x < longEnd w
  · rw [long_of_fits hw hx hlt]
  · have := long_lt hw x
    omega

variable {config : Config} {ctx : Context} {dt : Int}

theorem bucket_mem (hsize : 0 < config.histogram_size) (hvalid : config.Valid) (x : Int) :
    0 ≤ bucket config x ∧ bucket config x < config.histogram_size := by
  have hquot : 0 ≤ (x.natAbs : Int) / config.histogram_bucketsize :=
    Int.ediv_nonneg (by omega) (by have := hvalid.bucketsize; omega)
  unfold bucket
  omega

theorem histogramIndex_eq (hw : 32 ≤ w) (hp : Params w config ctx)
    (hsize : 0 < config.histogram_size) (hdt : IsLong w dt) (hmin : dt ≠ -longEnd w) :
    histogramIndex w ctx dt = bucket config dt := by
  have habs : (if dt ≥ 0 then dt else long w (-dt)) = dt.natAbs := by
    unfold IsLong at hdt
    split
    · omega
    · rw [long_of_fits hw (by omega) (by omega)]
      omega
  unfold histogramIndex bucket
  simp only [habs, hp.size, hp.bucketsize hsize, Int.tdiv_eq_ediv_of_nonneg (Int.natCast_nonneg _)]
  split <;> omega

/-- The histograms are there exactly if the block of the configuration holds them. -/
theorem Params.allocated_iff (hp : Params w config ctx) (hsize : 0 < config.histogram_size) :
    allocated w ctx = true ↔ config.Held w := by
  unfold allocated
  rw [hp.block hsize, hp.size]
  rfl

theorem add_histogram_some (hw : 32 ≤ w) (hvalid : config.Valid) (hp : Params w config ctx)
    (hsize : 0 < config.histogram_size) (hheld : config.Held w) (hdt : IsLong w dt)
    (hmin : dt ≠ -longEnd w) (histogram : Int → Int) :
    add_histogram w ctx histogram dt =
      some (Function.update histogram (bucket config dt)
        (long w (histogram (bucket config dt) + 1))) := by
  unfold add_histogram
  simp only [histogramIndex_eq hw hp hsize hdt hmin, hp.size]
  rw [if_pos ⟨bucket_mem hsize hvalid dt, (hp.allocated_iff hsize).mpr hheld⟩]

/-- `LONG_MIN` has a negative absolute value; a negative size and a block that is too small
leave no cells. -/
theorem add_histogram_none (hw : 32 ≤ w) (hvalid : config.Valid) (hp : Params w config ctx)
    (hbad : config.Broken w ∨ 0 < config.histogram_size ∧ dt = -longEnd w)
    (histogram : Int → Int) : add_histogram w ctx histogram dt = none := by
  unfold add_histogram
  refine if_neg ?_
  rw [hp.size]
  rcases hbad with (hneg | ⟨hsize, hheld⟩) | ⟨hsize, hdt⟩
  · omega
  · rintro ⟨-, hall⟩
    exact hheld ((hp.allocated_iff hsize).mp hall)
  · have hend := int_lt_longEnd hw
    have hbucket := hvalid.bucketsize
    have hquot : 1 ≤ longEnd w / config.histogram_bucketsize :=
      Int.le_ediv_of_mul_le hbucket.1 (by omega)
    have hindex : histogramIndex w ctx dt < 0 := by
      unfold histogramIndex
      have habs : (if dt ≥ 0 then dt else long w (-dt)) = -longEnd w := by
        rw [if_neg (by omega), hdt, Int.neg_neg, long_end hw]
      simp only [habs, hp.size, hp.bucketsize hsize, Int.neg_tdiv,
        Int.tdiv_eq_ediv_of_nonneg (show 0 ≤ longEnd w by omega)]
      rw [if_pos (by omega)]
      omega
    omega

/-- A histogram holds the counts `n`. -/
def Counts (w : Nat) (config : Config) (histogram : Int → Int) (n : Int → Nat) : Prop :=
  ∀ k, 0 ≤ k → k < config.histogram_size → histogram k = long w (n k)

theorem Counts.add {histogram : Int → Int} {n : Int → Nat} (h : Counts w config histogram n)
    {b : Int} (hb : 0 ≤ b ∧ b < config.histogram_size) :
    Counts w config (Function.update histogram b (long w (histogram b + 1)))
      fun k => n k + if b = k then 1 else 0 := by
  intro k hlo hhi
  show Function.update histogram b (long w (histogram b + 1)) k =
    long w ((n k + if b = k then 1 else 0 : Nat) : Int)
  by_cases hk : k = b
  · subst hk
    rw [Function.update_self, h k hlo hhi, long_add, if_pos rfl]
    push_cast
    rfl
  · rw [Function.update_of_ne hk, h k hlo hhi, if_neg (Ne.symm hk)]
    rfl

/-- A delay that breaks the run. -/
def Faulty (w : Nat) (config : Config) (warmup : Bool) (dt : Int) : Prop :=
  warmup = false ∧ (config.Broken w ∨ 0 < config.histogram_size ∧ dt = -longEnd w)

/-- A delay that does not, after the warm-up. -/
theorem good_iff : ¬ Faulty w config false dt ↔
    (config.histogram_size ≠ 0 → 0 < config.histogram_size ∧ config.Held w ∧ dt ≠ -longEnd w) := by
  constructor
  · intro h hzero
    have hsize : 0 < config.histogram_size := by
      by_contra hneg
      exact h ⟨rfl, .inl (.inl (by omega))⟩
    refine ⟨hsize, ?_, fun heq => h ⟨rfl, .inr ⟨hsize, heq⟩⟩⟩
    by_contra hheld
    exact h ⟨rfl, .inl (.inr ⟨hsize, hheld⟩)⟩
  · rintro h ⟨-, (hneg | ⟨hsize, hheld⟩) | ⟨hsize, heq⟩⟩
    · have hpos := (h (by omega)).1
      omega
    · exact hheld (h (by omega)).2.1
    · exact (h (by omega)).2.2 heq

/-- Within a round that started with the context `c`, after the delays `seen`. -/
structure Sampling (w : Nat) (config : Config) (c : Context) (seen : List Int) (ctx : Context) :
    Prop where
  same : ctx = { c with
    curr := ctx.curr, date := ctx.date, histogram_avg := ctx.histogram_avg }
  min : ctx.curr.min = seen.foldl min sentinel
  max : ctx.curr.max = seen.foldl max (-sentinel)
  avg : ctx.curr.avg = longLong seen.sum
  overruns : ctx.curr.overruns = long w ((seen.map (overruns config.period)).sum)
  test_loops : ctx.curr.test_loops = c.curr.test_loops
  warm : c.warmup = true → ctx.histogram_avg = c.histogram_avg
  cold : c.warmup = false → ∀ n, Counts w config c.histogram_avg n →
    Counts w config ctx.histogram_avg fun k => n k + tally (bucket config) seen k

variable {c : Context} {seen : List Int}

theorem Params.sampling (h : Sampling w config c seen ctx) (hp : Params w config c) :
    Params w config ctx := by
  rw [h.same]
  exact ⟨hp.period, hp.warmup_loops, hp.samples, hp.size, hp.bucketsize, hp.block⟩

/-- What is added to a histogram. -/
theorem countIn_some (hw : 32 ≤ w) (hvalid : config.Valid) (hp : Params w config ctx) (on : Bool)
    (hdt : IsLong w dt) (hgood : ¬ Faulty w config (!on) dt) (histogram : Int → Int) :
    ∃ histogram', countIn w ctx on histogram dt = some histogram' ∧
      (on = false → histogram' = histogram) ∧
      (on = true → ∀ n, Counts w config histogram n →
        Counts w config histogram' fun k => n k + if bucket config dt = k then 1 else 0) := by
  unfold countIn
  cases on with
  | false => exact ⟨histogram, rfl, fun _ => rfl, nofun⟩
  | true =>
      rw [hp.size]
      by_cases hzero : config.histogram_size = 0
      · refine ⟨histogram, if_neg (by simpa using hzero), fun _ => rfl, ?_⟩
        intro _ n _ k hlo hhi
        omega
      · obtain ⟨hsize, hheld, hmin⟩ := good_iff.mp hgood hzero
        rw [if_pos (by simpa using hzero)]
        refine ⟨_, add_histogram_some hw hvalid hp hsize hheld hdt hmin histogram, nofun, ?_⟩
        intro _ n hn
        exact hn.add (bucket_mem hsize hvalid dt)

theorem countIn_none (hw : 32 ≤ w) (hvalid : config.Valid) (hp : Params w config ctx) (on : Bool)
    (hbad : Faulty w config (!on) dt) (histogram : Int → Int) :
    countIn w ctx on histogram dt = none := by
  obtain ⟨hnot, hbad⟩ := hbad
  have hon : on = true := by simpa using hnot
  have hzero : config.histogram_size ≠ 0 := by
    rcases hbad with (hneg | ⟨hsize, -⟩) | ⟨hsize, -⟩ <;> omega
  unfold countIn
  rw [hp.size, if_pos (by simpa using ⟨hon, hzero⟩)]
  exact add_histogram_none hw hvalid hp hbad histogram

theorem Sampling.step (hw : 32 ≤ w) (hvalid : config.Valid) (hp : Params w config c)
    (h : Sampling w config c seen ctx) (hdt : IsLong w dt)
    (hgood : ¬ Faulty w config c.warmup dt) :
    ∃ ctx', eval_inner_loop w ctx dt = some ctx' ∧ Sampling w config c (seen ++ [dt]) ctx' := by
  have hp' := hp.sampling h
  have hwarmup : ctx.warmup = c.warmup := by rw [h.same]
  rw [← hwarmup, ← Bool.not_not ctx.warmup] at hgood
  obtain ⟨histogram, hhist, hwarm, hcold⟩ :=
    countIn_some hw hvalid hp' (!ctx.warmup) hdt hgood ctx.histogram_avg
  unfold eval_inner_loop
  rw [hhist]
  refine ⟨_, rfl, ?_, ?_, ?_, ?_, ?_, h.test_loops, ?_, ?_⟩
  · rw [h.same]
  · rw [List.foldl_append, List.foldl_cons, List.foldl_nil, ← h.min]
    show (if dt < ctx.curr.min then dt else ctx.curr.min) = _
    split <;> omega
  · rw [List.foldl_append, List.foldl_cons, List.foldl_nil, ← h.max]
    show (if dt > ctx.curr.max then dt else ctx.curr.max) = _
    split <;> omega
  · rw [List.sum_append, List.sum_singleton]
    show longLong (ctx.curr.avg + dt) = _
    rw [h.avg, longLong_add]
  · have hperiod : ctx.period = config.period := hp'.period
    have hpos : 0 < config.period := hvalid.period.1
    rw [List.map_append, List.sum_append, List.map_singleton, List.sum_singleton]
    show (overrunLoop w ctx.period dt.toNat dt ctx.curr.overruns _).1 = _
    rw [hperiod, h.overruns, overrunLoop_overruns hpos (Nat.le_refl _)]
  · intro hwarmed
    refine (hwarm ?_).trans (h.warm hwarmed)
    rw [hwarmup, hwarmed]
    rfl
  · intro hended n hn k hlo hhi
    have hcounts := hcold (by rw [hwarmup, hended]; rfl) _ (h.cold hended n hn) k hlo hhi
    show histogram k = long w ((n k + tally (bucket config) (seen ++ [dt]) k : Nat) : Int)
    rw [tally_append, tally_singleton, ← Nat.add_assoc]
    exact hcounts

theorem Sampling.fault (hw : 32 ≤ w) (hvalid : config.Valid) (hp : Params w config c)
    (h : Sampling w config c seen ctx) (hbad : Faulty w config c.warmup dt) :
    eval_inner_loop w ctx dt = none := by
  have hwarmup : ctx.warmup = c.warmup := by rw [h.same]
  rw [← hwarmup, ← Bool.not_not ctx.warmup] at hbad
  unfold eval_inner_loop
  rw [countIn_none hw hvalid (hp.sampling h) _ hbad]
  rfl

end RtaiDemos.Timerbench
