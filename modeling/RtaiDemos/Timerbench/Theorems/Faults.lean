import RtaiDemos.Timerbench.Logic.Faults
import RtaiDemos.Timerbench.Theorems.Statistics

/-!
# The faults of the timer benchmark

`rt_tmbench_start` accepts every configuration. A run of it faults as soon as a step does
not meet its condition, and only then. Of a configuration that is safe all steps meet it,
for as long as the rounds can be counted and no delay is `LONG_MIN`.
-/

namespace RtaiDemos.Timerbench

variable {w : Nat}

/-! ## The benchmark -/

/-- A run of benchmarks has not faulted exactly if each of its steps was sound. -/
theorem no_fault_iff (hw : 32 ≤ w) (σ₀ σ : Bench) (events : List Event) (hidle : σ₀.Idle)
    (hrun : (benches w).run σ₀ events = some σ) :
    σ.fault = none ↔ (benches w).Along (Sound w) σ₀ events := by
  refine TSys.run_iff_along (I := Bench.Proper w) (Q := fun σ => σ.fault = none) ?_ ?_ ?_
    hidle.2 hrun
  · intro s a s' hproper hok hnext
    exact hproper.step hw hok hnext
  · intro s a hfault
    rw [Option.eq_none_iff_forall_ne_some]
    intro s' hnext
    exact hfault (Option.not_isSome_iff_eq_none.mp (next_live hnext))
  · intro hr
    rw [hidle.1] at hr
    cases hr

/-! ## Configurations that are safe -/

/-- A period of at most a second, and if there are histograms a positive bucket size and
a number of bytes that `int` and `size_t` hold. -/
structure UserConfig.Safe (w : Nat) (u : UserConfig) : Prop where
  period : 0 < (u.config w).period ∧ (u.config w).period ≤ 1000000000
  histograms : (u.config w).histogram_size = 0 ∨
    0 < (u.config w).histogram_size ∧ 0 < (u.config w).histogram_bucketsize ∧
      3 * (u.config w).histogram_size < 2 ^ 31 ∧
      3 * (u.config w).histogram_size * sizeofLong w < 2 ^ w

/-- Benchmarks with such configurations, and no delay of `LONG_MIN`. -/
def Event.Mild (w : Nat) : Event → Prop
  | .start u _ => u.Safe w
  | .sample delay => long w delay ≠ -longEnd w
  | _ => True

/-- A benchmark that runs with a safe configuration, in which the rounds have been counted
up to `n`. -/
structure Bench.Mild (w : Nat) (n : Int) (σ : Bench) : Prop where
  period : σ.ctx.period ≤ 1000000000
  histograms : σ.ctx.histogram_size = 0 ∨
    0 < σ.ctx.histogram_size ∧ 0 < σ.ctx.bucketsize ∧ allocated w σ.ctx = true
  max : σ.ctx.curr.max ≠ -longEnd w
  min : σ.ctx.curr.min ≠ -longEnd w
  rounds : -longEnd w ≤ σ.ctx.overall.test_loops ∧ σ.ctx.overall.test_loops ≤ n

/-- The block of a safe configuration holds the three histograms. -/
theorem UserConfig.Safe.held {u : UserConfig} (h : u.Safe w)
    (hpos : 0 < (u.config w).histogram_size) : (u.config w).Held w := by
  obtain ⟨-, -, hint, hbytes⟩ := h.histograms.resolve_left (Int.ne_of_gt hpos)
  have hnonneg : 0 ≤ 3 * (u.config w).histogram_size * (sizeofLong w : Int) :=
    Int.mul_nonneg (by omega) (Int.natCast_nonneg _)
  have hbmod : (3 * (u.config w).histogram_size).bmod (2 ^ 32) =
      3 * (u.config w).histogram_size :=
    Int.bmod_eq_of_le_mul_two (by omega) (by omega)
  unfold Config.Held holdsThree kmallocSize
  rw [hbmod, Int.emod_eq_of_lt hnonneg hbytes, decide_eq_true_eq]
  omega

theorem Bench.Mild.placed {n : Int} {σ : Bench} (h : σ.Mild w n) {addval : Int}
    (hval : addval ≠ -longEnd w) (hsize : σ.ctx.histogram_size ≠ 0) :
    Placed w σ.ctx addval := by
  obtain ⟨hpos, hbucket, hall⟩ := h.histograms.resolve_left hsize
  exact ⟨hpos, hall, .inl ⟨hbucket, hval⟩⟩

/-- A benchmark of that kind is sound for as long as the number of rounds is an `unsigned`. -/
theorem Bench.Mild.sound {n : Int} (hn : n ≤ 2 ^ 32) {σ : Bench} {event : Event}
    (hrun : σ.running = true → σ.Mild w n) (hmild : event.Mild w)
    {σ' : Bench} (hnext : σ.next w event = some σ') : Sound w σ event := by
  cases event with
  | start u o =>
      intro _ hdvd
      have hzero := (period_eq_zero_iff u).mpr hdvd
      have hperiod := hmild.period.1
      omega
  | sample delay =>
      intro _ hsize
      exact (hrun (next_sample hnext).1).placed hmild hsize
  | round =>
      have h := hrun (next_round hnext).1
      exact fun _ => ⟨h.period, fun hsize => ⟨h.placed h.max hsize, h.placed h.min hsize⟩⟩
  | stop =>
      have h := hrun (next_stop hnext).1
      have hrounds := h.rounds.2
      show _ ≤ 1 ∨ _
      omega

/-- How much an event adds to the number of rounds. -/
def Event.rounds : Event → Int
  | .round => 1
  | _ => 0

theorem Event.rounds_nonneg (event : Event) : 0 ≤ event.rounds := by
  cases event with
  | round => exact Int.zero_le_ofNat 1
  | _ => exact Int.le_refl 0

theorem Bench.Mild.start (hw : 32 ≤ w) {n : Int} (hn : 1 ≤ n) {σ σ' : Bench} {u : UserConfig}
    {o : StartOutcome} (hsafe : u.Safe w) (hidle : ¬ σ.running = true)
    (hstart : Starting w σ u o σ') (hrun : σ'.running = true) : σ'.Mild w n := by
  have hend := int_lt_longEnd hw
  have hperiod := hsafe.period
  cases hstart with
  | refused _ hend =>
      subst hend
      exact absurd hrun hidle
  | divides _ hzero hend => omega
  | noMemory _ hrunning _ => exact absurd (hrunning ▸ hrun) hidle
  | starts _ hctx _ =>
      have hcurr : σ'.ctx.curr.max = -sentinel ∧ σ'.ctx.curr.min = sentinel := by
        rw [hctx]
        unfold startContext
        simp only
        split <;> exact ⟨rfl, rfl⟩
      have hsize : σ'.ctx.histogram_size = (u.config w).histogram_size := by
        rw [hctx]
        rfl
      refine ⟨?_, ?_, ?_, ?_, ?_⟩
      · rw [hctx]
        exact hperiod.2
      · rcases hsafe.histograms with hzero | ⟨hpos, hbucket, -⟩
        · exact .inl (hsize.trans hzero)
        · refine .inr ⟨by rw [hsize]; exact hpos, ?_, ?_⟩
          · rw [hctx]
            show 0 < if (u.config w).histogram_size > 0 then _ else _
            rw [if_pos hpos]
            exact hbucket
          · have hblock : σ'.ctx.block =
                some (kmallocSize w (u.config w).histogram_size) := by
              rw [hctx]
              exact if_pos hpos
            unfold allocated
            rw [hblock, hsize]
            exact hsafe.held hpos
      · rw [hcurr.1]
        unfold sentinel
        omega
      · rw [hcurr.2]
        unfold sentinel
        omega
      · rw [hctx]
        show -longEnd w ≤ 1 ∧ (1 : Int) ≤ n
        omega

/-- What is not counted anew when the context is replaced. -/
theorem Bench.Mild.kept {n : Int} {σ σ' : Bench} (h : σ.Mild w n) (hkept : σ.ctx.Kept σ'.ctx)
    (hmax : σ'.ctx.curr.max ≠ -longEnd w)
    (hmin : σ'.ctx.curr.min ≠ -longEnd w) {n' : Int}
    (hrounds : -longEnd w ≤ σ'.ctx.overall.test_loops ∧ σ'.ctx.overall.test_loops ≤ n') :
    σ'.Mild w n' := by
  refine ⟨?_, ?_, hmax, hmin, hrounds⟩
  · rw [hkept.period]
    exact h.period
  · unfold allocated
    rw [hkept.histogram_size, hkept.bucketsize, hkept.block]
    exact h.histograms

theorem Bench.Mild.sample {n : Int} {σ : Bench} {ctx : Context} {dt : Int} (h : σ.Mild w n)
    (hdt : dt ≠ -longEnd w) (hinner : eval_inner_loop w σ.ctx dt = some ctx) :
    (σ.sampled w ctx).Mild w n := by
  obtain ⟨hkept, -, hoverall⟩ := eval_inner_loop_kept hinner
  obtain ⟨hmax, hmin⟩ := eval_inner_loop_extremes hinner
  have hmax' : ctx.curr.max ≠ -longEnd w := by
    rcases hmax with heq | heq
    · rwa [heq]
    · rw [heq]
      exact h.max
  have hmin' : ctx.curr.min ≠ -longEnd w := by
    rcases hmin with heq | heq
    · rwa [heq]
    · rw [heq]
      exact h.min
  have hrounds : -longEnd w ≤ ctx.overall.test_loops ∧ ctx.overall.test_loops ≤ n := by
    rw [hoverall]
    exact h.rounds
  unfold Bench.sampled
  split
  · refine h.kept ?_ ?_ ?_ ?_
    · exact hkept
    · exact hmax'
    · exact hmin'
    · exact hrounds
  · refine h.kept ?_ ?_ ?_ ?_
    · exact ⟨hkept.period, hkept.samples_per_sec, hkept.histogram_size, hkept.bucketsize,
        hkept.block⟩
    · exact hmax'
    · exact hmin'
    · exact hrounds

theorem Bench.Mild.round (hw : 32 ≤ w) {n : Int} (hn : 1 ≤ n) {σ : Bench} {ctx : Context}
    (h : σ.Mild w n) (houter : eval_outer_loop w σ.roundContext = some ctx) :
    (σ.rounded ctx).Mild w (n + 1) := by
  have hend := int_lt_longEnd hw
  have hends := eval_outer_loop_ends houter
  have hkept : σ.ctx.Kept σ.roundContext ∧ σ.roundContext.overall = σ.ctx.overall := by
    unfold Bench.roundContext
    split <;> exact ⟨⟨rfl, rfl, rfl, rfl, rfl⟩, rfl⟩
  have hrounds : -longEnd w ≤ ctx.overall.test_loops ∧ ctx.overall.test_loops ≤ n + 1 := by
    obtain ⟨hlo, hhi⟩ := h.rounds
    rcases hends.test_loops with heq | heq
    · rw [heq]
      have hle := long_le (x := 1) hw (by omega)
      exact ⟨(long_isLong hw 1).1, by omega⟩
    · rw [heq, hkept.2]
      have hle := long_le (x := σ.ctx.overall.test_loops + 1) hw (by omega)
      exact ⟨(long_isLong hw _).1, by omega⟩
  refine h.kept ?_ ?_ ?_ ?_
  · exact hkept.1.trans hends.kept
  · show ctx.curr.max ≠ _
    rw [hends.curr]
    show -sentinel ≠ _
    unfold sentinel
    omega
  · show ctx.curr.min ≠ _
    rw [hends.curr]
    show sentinel ≠ _
    unfold sentinel
    omega
  · exact hrounds

/-- One step of such a benchmark, which is sound and so does not fault. -/
theorem Bench.Mild.step (hw : 32 ≤ w) {n : Int} (hn : 1 ≤ n) {σ σ' : Bench} {event : Event}
    (hrun : σ.running = true → σ.Mild w n) (hmild : event.Mild w)
    (hnext : σ.next w event = some σ') (hok : σ'.fault = none) :
    σ'.running = true → σ'.Mild w (n + event.rounds) := by
  intro hrun'
  cases event with
  | start u o =>
      obtain ⟨hidle, hstart⟩ := next_start hnext
      show Bench.Mild w (n + 0) _
      exact Bench.Mild.start hw (by omega) hmild hidle hstart hrun'
  | sample delay =>
      obtain ⟨hr, hchecked⟩ := next_sample hnext
      obtain ⟨ctx, hinner, rfl⟩ := Option.map_eq_some_iff.mp (hchecked.result hok)
      show Bench.Mild w (n + 0) _
      rw [Int.add_zero]
      exact (hrun hr).sample hmild hinner
  | round =>
      obtain ⟨hr, hchecked⟩ := next_round hnext
      obtain ⟨ctx, houter, rfl⟩ := Option.map_eq_some_iff.mp (hchecked.result hok)
      exact (hrun hr).round hw hn houter
  | stop =>
      cases (next_stop hnext).2.result hok
      cases hrun'

/-- The rounds of a run. -/
def roundsOf (events : List Event) : Int := (events.map Event.rounds).sum

theorem roundsOf_nonneg (events : List Event) : 0 ≤ roundsOf events := by
  refine List.sum_nonneg ?_
  intro n hn
  obtain ⟨event, -, rfl⟩ := List.mem_map.mp hn
  exact event.rounds_nonneg

theorem mild_run (hw : 32 ≤ w) {events : List Event} {σ σ' : Bench} {n : Int} (hn : 1 ≤ n)
    (hproper : σ.Proper w) (hok : σ.fault = none) (hrun : σ.running = true → σ.Mild w n)
    (hmild : ∀ event ∈ events, event.Mild w) (hrounds : n + roundsOf events ≤ 2 ^ 32)
    (h : (benches w).run σ events = some σ') : σ'.fault = none := by
  induction events generalizing σ n with
  | nil =>
      cases h
      exact hok
  | cons event rest ih =>
      obtain ⟨σ₁, hnext, hrest⟩ := Option.bind_eq_some_iff.mp h
      have hmild' := hmild event List.mem_cons_self
      have hsplit : roundsOf (event :: rest) = event.rounds + roundsOf rest := rfl
      have hpos := roundsOf_nonneg rest
      have hone := event.rounds_nonneg
      have hsound := Bench.Mild.sound (by omega) hrun hmild' hnext
      obtain ⟨hproper', hiff⟩ := hproper.step hw hok hnext
      have hok' := hiff.mpr hsound
      exact ih (by omega) hproper' hok' (Bench.Mild.step hw hn hrun hmild' hnext hok')
        (fun e he => hmild e (List.mem_cons_of_mem event he)) (by omega) hrest

/-- Benchmarks with safe configurations do not fault in fewer than 2 ^ 32 rounds, unless
with a delay of `LONG_MIN`. -/
theorem safe_no_fault (hw : 32 ≤ w) {σ₀ σ : Bench} {events : List Event} (hidle : σ₀.Idle)
    (hmild : ∀ event ∈ events, event.Mild w) (hrounds : roundsOf events < 2 ^ 32)
    (hrun : (benches w).run σ₀ events = some σ) : σ.fault = none := by
  have hstopped : ∀ P : Prop, σ₀.running = true → P := by
    intro P hr
    rw [hidle.1] at hr
    cases hr
  exact mild_run hw (Int.le_refl 1) (hstopped _) hidle.2 (hstopped _) hmild (by omega) hrun

/-- The context before its first benchmark. -/
def unused : Bench :=
  { ctx := blank
    mode := RTTST_TMBENCH_INVALID
    running := false
    count := 0
    due := false
    fault := none }

/-- `rt_tmbench_start` returns 0, and the task or the timer runs. -/
def accepted : StartOutcome := ⟨true, true, false, 0, 0⟩

/-- A start, and one round that ends the warm-up. -/
def warmed (period : BitVec 64) (histogram_size histogram_bucketsize : BitVec 32) : List Event :=
  [.start ⟨1#32, period, 1#32, histogram_size, histogram_bucketsize⟩ accepted, .sample 5, .round]

/-- The state after events that are all possible. -/
def benchAfter (events : List Event) : Bench := ((benches 64).run unused events).getD unused

theorem no_fault_two :
    (benchAfter (warmed 1000000000#64 2#32 1000#32 ++ [.sample 7, .round, .stop])).fault = none ↔
      (benches 64).Along (Sound 64) unused
        (warmed 1000000000#64 2#32 1000#32 ++ [.sample 7, .round, .stop]) :=
  no_fault_iff (by decide) unused _ _ ⟨rfl, rfl⟩ rfl

/-- Every fault is reached: with a period of two seconds, with a delay of `LONG_MIN`, and with
histograms whose size in bytes does not fit into the product of `int`s. -/
theorem every_fault_reached (f : Fault) : ∃ events σ, (benches 64).run unused events = some σ ∧
    σ.fault = some f := by
  have hreach : ∀ events, ((benches 64).run unused events).isSome = true →
      (benchAfter events).fault = some f → ∃ events σ, (benches 64).run unused events = some σ ∧
        σ.fault = some f := by
    intro events hsome hfault
    obtain ⟨σ, hσ⟩ := Option.isSome_iff_exists.mp hsome
    unfold benchAfter at hfault
    rw [hσ] at hfault
    exact ⟨events, σ, hσ, hfault⟩
  cases f with
  | divide => exact hreach (warmed 2000000000#64 0#32 0#32 ++ [.sample 7, .round]) rfl rfl
  | index => exact hreach (warmed 1000000000#64 2#32 1000#32 ++ [.sample (-2 ^ 63)]) rfl rfl
  | unallocated => exact hreach (warmed 1000000000#64 1431655766#32 1000#32 ++ [.sample 7]) rfl rfl

/-- A period of two seconds is accepted, and the first round after the warm-up divides by the
number of samples in a second. -/
theorem long_period_faults : ¬ ∀ σ₀ σ events, σ₀.Idle →
    (benches 64).run σ₀ events = some σ → σ.fault = none := by
  intro hclaim
  have hfault : (benchAfter (warmed 2000000000#64 0#32 0#32 ++ [.sample 7, .round])).fault =
      some .divide := rfl
  have hnone := hclaim unused (benchAfter (warmed 2000000000#64 0#32 0#32 ++ [.sample 7, .round]))
    (warmed 2000000000#64 0#32 0#32 ++ [.sample 7, .round]) ⟨rfl, rfl⟩ rfl
  rw [hfault] at hnone
  cases hnone

end RtaiDemos.Timerbench
