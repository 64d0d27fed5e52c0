import RtaiDemos.Timerbench.Logic.Sampling

/-!
# The rounds of the benchmark

The state between two rounds: during the warm-up nothing has been recorded, after
it the results are those of the rounds `done`, with the sentinels among the
values of which minima and maxima are taken.
-/

namespace RtaiDemos.Timerbench

open RtaiDemos.Fold

variable {w : Nat} {config : Config} {ctx c : Context}

/-- A round can start. -/
structure Fresh (ctx : Context) : Prop where
  min : ctx.curr.min = sentinel
  max : ctx.curr.max = -sentinel
  avg : ctx.curr.avg = 0
  overruns : ctx.curr.overruns = 0

theorem long_zero (w : Nat) : long w 0 = 0 := Int.zero_bmod

theorem longLong_zero : longLong 0 = 0 := Int.zero_bmod

theorem Fresh.sampling (h : Fresh c) : Sampling w config c [] c := by
  refine ⟨rfl, h.min, h.max, ?_, ?_, rfl, fun _ => rfl, fun _ n hn => hn⟩
  · rw [h.avg]
    exact longLong_zero.symm
  · rw [h.overruns]
    exact (long_zero w).symm

/-- The delays of a complete round. -/
structure Complete (w : Nat) (config : Config) (l : List Int) : Prop where
  length : (l.length : Int) = 1000000000 / config.period
  long : ∀ dt ∈ l, IsLong w dt

theorem Complete.ne_nil (hvalid : config.Valid) {l : List Int} (h : Complete w config l) :
    l ≠ [] := by
  intro hnil
  have hlength := h.length
  have hpos : 1 ≤ (1000000000 : Int) / config.period :=
    Int.le_ediv_of_mul_le (by have := hvalid.period; omega) (by have := hvalid.period; omega)
  rw [hnil] at hlength
  simp only [List.length_nil, Nat.cast_zero] at hlength
  omega

/-- A round that does not break the run. -/
def Good (w : Nat) (config : Config) (l : List Int) : Prop :=
  ∀ dt ∈ l, ¬ Faulty w config false dt

theorem samples_some (hw : 32 ≤ w) (hvalid : config.Valid) (hp : Params w config c)
    (hfresh : Fresh c) {l : List Int} (hl : Complete w config l) (hgood : ∀ dt ∈ l, ¬ Faulty w config c.warmup dt) :
    ∃ ctx, l.foldlM (eval_inner_loop w) c = some ctx ∧ Sampling w config c l ctx :=
  foldlM_some (fun _ _ _ h hdt hdtgood => h.step hw hvalid hp hdt hdtgood) hl.long hgood
    hfresh.sampling

theorem samples_none (hw : 32 ≤ w) (hvalid : config.Valid) (hp : Params w config c)
    (hfresh : Fresh c) {l : List Int} (hl : Complete w config l) (hbad : ∃ dt ∈ l, Faulty w config c.warmup dt) :
    l.foldlM (eval_inner_loop w) c = none := by
  refine foldlM_none (fun dt => ¬ Faulty w config c.warmup dt)
    (fun _ _ _ h hdt hdtgood => h.step hw hvalid hp hdt hdtgood)
    (fun _ _ _ h _ hdtbad => h.fault hw hvalid hp (Classical.not_not.mp hdtbad)) hl.long ?_
    hfresh.sampling
  obtain ⟨dt, hdt, hfaulty⟩ := hbad
  exact ⟨dt, hdt, fun hn => hn hfaulty⟩

/-- The lowest delay of a round, as the code computes it. -/
def low (l : List Int) : Int := l.foldl min sentinel

/-- The highest. -/
def high (l : List Int) : Int := l.foldl max (-sentinel)

theorem low_long (hw : 32 ≤ w) {l : List Int} (h : ∀ dt ∈ l, IsLong w dt) : IsLong w (low l) := by
  have hend := int_lt_longEnd hw
  rcases foldl_select min (by omega) l sentinel with hstart | hmem
  · unfold low
    rw [hstart]
    unfold IsLong sentinel
    omega
  · exact h _ hmem

theorem high_long (hw : 32 ≤ w) {l : List Int} (h : ∀ dt ∈ l, IsLong w dt) :
    IsLong w (high l) := by
  have hend := int_lt_longEnd hw
  rcases foldl_select max (by omega) l (-sentinel) with hstart | hmem
  · unfold high
    rw [hstart]
    unfold IsLong sentinel
    omega
  · exact h _ hmem

theorem high_ge (l : List Int) : -sentinel ≤ high l := by
  unfold high
  rw [List.foldl_max]
  omega

theorem low_good (hw : 32 ≤ w) {l : List Int} (hne : l ≠ []) (h : Good w config l) :
    ¬ Faulty w config false (low l) := by
  have hend := int_lt_longEnd hw
  rcases foldl_select min (by omega) l sentinel with hstart | hmem
  · obtain ⟨dt, hdt⟩ := List.exists_mem_of_ne_nil l hne
    refine good_iff.mpr fun hzero => ?_
    obtain ⟨hsize, hheld, -⟩ := good_iff.mp (h dt hdt) hzero
    refine ⟨hsize, hheld, ?_⟩
    unfold low
    rw [hstart]
    unfold sentinel
    omega
  · exact h _ hmem

theorem high_good (hw : 32 ≤ w) {l : List Int} (hne : l ≠ []) (h : Good w config l) :
    ¬ Faulty w config false (high l) := by
  have hend := int_lt_longEnd hw
  have hge := high_ge l
  obtain ⟨dt, hdt⟩ := List.exists_mem_of_ne_nil l hne
  refine good_iff.mpr fun hzero => ?_
  obtain ⟨hsize, hheld, -⟩ := good_iff.mp (h dt hdt) hzero
  refine ⟨hsize, hheld, ?_⟩
  unfold sentinel at hge
  omega

/-- The mean of a round, as the code computes it. -/
def mean (config : Config) (l : List Int) : Int :=
  slldiv (longLong l.sum) (unsigned (1000000000 / config.period))

/-- After the warm-up, with the rounds `done` recorded. -/
structure Counting (w : Nat) (config : Config) (done : List (List Int)) (ctx : Context) :
    Prop where
  params : Params w config ctx
  warmup : ctx.warmup = false
  fresh : Fresh ctx
  min : ctx.overall.min = low done.flatten
  max : ctx.overall.max = high done.flatten
  avg : ctx.overall.avg = longLong (done.map (mean config)).sum
  overruns : ctx.overall.overruns = long w (done.flatten.map (overruns config.period)).sum
  test_loops : ctx.overall.test_loops = long w (done.length + 1)
  histogram_avg : Counts w config ctx.histogram_avg (tally (bucket config) done.flatten)
  histogram_min : Counts w config ctx.histogram_min (tally (fun l => bucket config (low l)) done)
  histogram_max : Counts w config ctx.histogram_max (tally (fun l => bucket config (high l)) done)

/-- During the warm-up, after `k` rounds. -/
structure Warming (w : Nat) (config : Config) (k : Nat) (ctx : Context) : Prop where
  params : Params w config ctx
  warmup : ctx.warmup = true
  fresh : Fresh ctx
  overall : ctx.overall =
    { min := sentinel, max := -sentinel, avg := 0, test_loops := long w (k + 1), overruns := 0 }
  histogram_avg : Counts w config ctx.histogram_avg fun _ => 0
  histogram_min : Counts w config ctx.histogram_min fun _ => 0
  histogram_max : Counts w config ctx.histogram_max fun _ => 0

theorem low_append (l l' : List Int) : low (l ++ l') = min (low l) (low l') := by
  unfold low
  rw [List.foldl_append, List.foldl_min, List.foldl_min, List.foldl_min]
  cases l'.min? <;> simp only [Option.getD_none, Option.getD_some] <;> omega

theorem high_append (l l' : List Int) : high (l ++ l') = max (high l) (high l') := by
  unfold high
  rw [List.foldl_append, List.foldl_max, List.foldl_max, List.foldl_max]
  cases l'.max? <;> simp only [Option.getD_none, Option.getD_some] <;> omega

/-- A round that is recorded. -/
theorem Counting.round (hw : 32 ≤ w) (hvalid : config.Valid) {done : List (List Int)}
    (h : Counting w config done ctx) {l : List Int} (hl : Complete w config l)
    (hgood : Good w config l) :
    ∃ ctx', timer_task_proc w ctx l = some ctx' ∧ Counting w config (done ++ [l]) ctx' := by
  have hne := hl.ne_nil hvalid
  obtain ⟨s, hs, hsample⟩ := samples_some hw hvalid h.params h.fresh hl (by rw [h.warmup]; exact hgood)
  have hp := h.params.sampling hsample
  have hwarmup : s.warmup = false := by rw [hsample.same]; exact h.warmup
  have hoverall : s.overall = ctx.overall := by rw [hsample.same]
  have hmax : s.curr.max = high l := hsample.max
  have hmin : s.curr.min = low l := hsample.min
  obtain ⟨histogram_max, hhmax, -, hcmax⟩ := countIn_some hw hvalid hp true
    (high_long hw hl.long) (high_good hw hne hgood) s.histogram_max
  obtain ⟨histogram_min, hhmin, -, hcmin⟩ := countIn_some hw hvalid hp true
    (low_long hw hl.long) (low_good hw hne hgood) s.histogram_min
  unfold timer_task_proc eval_outer_loop evalResult
  rw [hs, Option.bind_some, hwarmup, if_neg (by decide), hmax, hmin, hhmax, hhmin]
  refine ⟨_, rfl, ?_⟩
  refine ⟨?_, rfl, ⟨rfl, rfl, rfl, rfl⟩, ?_, ?_, ?_, ?_, ?_, ?_, ?_, ?_⟩
  · exact ⟨hp.period, hp.warmup_loops, hp.samples, hp.size, hp.bucketsize, hp.block⟩
  · show (if low l < s.overall.min then low l else s.overall.min) = _
    rw [hoverall, h.min, List.flatten_append, low_append, List.flatten_singleton]
    split <;> omega
  · show (if high l > s.overall.max then high l else s.overall.max) = _
    rw [hoverall, h.max, List.flatten_append, high_append, List.flatten_singleton]
    split <;> omega
  · show longLong (s.overall.avg + slldiv s.curr.avg (unsigned s.samples_per_sec)) = _
    rw [hoverall, h.avg, longLong_add, hsample.avg, hp.samples, List.map_append, List.sum_append,
      List.map_singleton, List.sum_singleton]
    rfl
  · show long w (s.overall.overruns + s.curr.overruns) = _
    rw [hoverall, h.overruns, long_add, hsample.overruns, Int.add_comm, long_add, Int.add_comm,
      List.flatten_append, List.map_append, List.sum_append, List.flatten_singleton]
  · show long w (s.overall.test_loops + 1) = _
    rw [hoverall, h.test_loops, long_add, List.length_append, List.length_singleton]
    push_cast
    rfl
  · have hcounts := hsample.cold h.warmup _ h.histogram_avg
    intro k hlo hhi
    rw [List.flatten_append, tally_append, List.flatten_singleton]
    exact hcounts k hlo hhi
  · have hold : s.histogram_min = ctx.histogram_min := by rw [hsample.same]
    rw [hold] at hcmin
    have hcounts := hcmin rfl _ h.histogram_min
    intro k hlo hhi
    rw [tally_append, tally_singleton]
    exact hcounts k hlo hhi
  · have hold : s.histogram_max = ctx.histogram_max := by rw [hsample.same]
    rw [hold] at hcmax
    have hcounts := hcmax rfl _ h.histogram_max
    intro k hlo hhi
    rw [tally_append, tally_singleton]
    exact hcounts k hlo hhi

theorem Counting.fault (hw : 32 ≤ w) (hvalid : config.Valid) {done : List (List Int)}
    (h : Counting w config done ctx) {l : List Int} (hl : Complete w config l)
    (hbad : ¬ Good w config l) : timer_task_proc w ctx l = none := by
  unfold timer_task_proc
  rw [samples_none hw hvalid h.params h.fresh hl]
  · rfl
  · unfold Good at hbad
    push Not at hbad
    rw [h.warmup]
    exact hbad

/-- A round of the warm-up, or its last. -/
theorem Warming.round (hw : 32 ≤ w) (hvalid : config.Valid) {k : Nat}
    (h : Warming w config k ctx) {l : List Int} (hl : Complete w config l) :
    ∃ ctx', timer_task_proc w ctx l = some ctx' ∧
      (long w (k + 1) = config.warmup_loops → Counting w config [] ctx') ∧
      (long w (k + 1) ≠ config.warmup_loops → Warming w config (k + 1) ctx') := by
  obtain ⟨s, hs, hsample⟩ := samples_some hw hvalid h.params h.fresh hl (by
    intro dt _ hfaulty
    rw [h.warmup] at hfaulty
    cases hfaulty.1)
  have hp := h.params.sampling hsample
  have hwarmup : s.warmup = true := by rw [hsample.same]; exact h.warmup
  have hoverall : s.overall = ctx.overall := by rw [hsample.same]
  have havg : s.histogram_avg = ctx.histogram_avg := hsample.warm h.warmup
  have hmin : s.histogram_min = ctx.histogram_min := by rw [hsample.same]
  have hmax : s.histogram_max = ctx.histogram_max := by rw [hsample.same]
  unfold timer_task_proc eval_outer_loop
  rw [hs, Option.bind_some, if_pos hwarmup]
  refine ⟨_, rfl, ?_, ?_⟩
  · intro hlast
    have hend : endWarmup s =
        { s with overall := { s.overall with test_loops := 0 }, warmup := false } := by
      unfold endWarmup
      rw [hwarmup, hoverall, h.overall, hp.warmup_loops, hlast]
      simp
    show Counting w config [] (nextRound w (endWarmup s))
    rw [hend]
    refine ⟨?_, rfl, ⟨rfl, rfl, rfl, rfl⟩, ?_, ?_, ?_, ?_, ?_, ?_, ?_, ?_⟩
    · exact ⟨hp.period, hp.warmup_loops, hp.samples, hp.size, hp.bucketsize, hp.block⟩
    · show s.overall.min = _
      rw [hoverall, h.overall]
      rfl
    · show s.overall.max = _
      rw [hoverall, h.overall]
      rfl
    · show s.overall.avg = _
      rw [hoverall, h.overall]
      exact longLong_zero.symm
    · show s.overall.overruns = _
      rw [hoverall, h.overall]
      exact (long_zero w).symm
    · rfl
    · show Counts w config s.histogram_avg _
      rw [havg]
      exact h.histogram_avg
    · show Counts w config s.histogram_min _
      rw [hmin]
      exact h.histogram_min
    · show Counts w config s.histogram_max _
      rw [hmax]
      exact h.histogram_max
  · intro hmore
    have hend : endWarmup s = s := by
      unfold endWarmup
      rw [hwarmup, hoverall, h.overall, hp.warmup_loops]
      simp [hmore]
    show Warming w config (k + 1) (nextRound w (endWarmup s))
    rw [hend]
    refine ⟨?_, hwarmup, ⟨rfl, rfl, rfl, rfl⟩, ?_, ?_, ?_, ?_⟩
    · exact ⟨hp.period, hp.warmup_loops, hp.samples, hp.size, hp.bucketsize, hp.block⟩
    · show { s.overall with test_loops := long w (s.overall.test_loops + 1) } = _
      rw [hoverall, h.overall]
      simp only [long_add]
      push_cast
      rfl
    · show Counts w config s.histogram_avg _
      rw [havg]
      exact h.histogram_avg
    · show Counts w config s.histogram_min _
      rw [hmin]
      exact h.histogram_min
    · show Counts w config s.histogram_max _
      rw [hmax]
      exact h.histogram_max

theorem Warming.start (hw : 32 ≤ w) (ctx : Context) (config : Config) :
    Warming w config 0 (startContext w ctx config) := by
  have hend := int_lt_longEnd hw
  have hempty : Counts w config (fun _ => 0) fun _ => 0 := fun _ _ _ => (long_zero w).symm
  have hcells : ∀ histogram : Int → Int,
      Counts w config (if config.histogram_size > 0 then fun _ => 0 else histogram) fun _ => 0 := by
    intro histogram
    by_cases hsize : config.histogram_size > 0
    · rw [if_pos hsize]
      exact hempty
    · intro k hlo hhi
      omega
  refine ⟨⟨rfl, rfl, rfl, rfl, ?_, ?_⟩, rfl, ?_, ?_, hcells _, hcells _, hcells _⟩
  · intro hsize
    exact if_pos hsize
  · intro hsize
    exact if_pos hsize
  · unfold startContext
    by_cases hmode : config.mode = RTTST_TMBENCH_TASK
    · simp only [if_pos hmode]
      exact ⟨rfl, rfl, rfl, rfl⟩
    · simp only [if_neg hmode]
      exact ⟨rfl, rfl, rfl, rfl⟩
  · rw [show ((0 : Nat) : Int) + 1 = 1 from rfl, long_of_fits hw (by omega) (by omega)]
    rfl

/-- The warm-up goes on while the counter misses `warmup_loops`. -/
theorem Warming.rounds (hw : 32 ≤ w) (hvalid : config.Valid) {rs : List (List Int)}
    (hrs : ∀ l ∈ rs, Complete w config l) {k : Nat} (h : Warming w config k ctx)
    (hmore : ∀ j, k < j → j ≤ k + rs.length → long w (j : Nat) ≠ config.warmup_loops) :
    ∃ ctx', rs.foldlM (timer_task_proc w) ctx = some ctx' ∧
      Warming w config (k + rs.length) ctx' := by
  induction rs generalizing k ctx with
  | nil => exact ⟨ctx, rfl, h⟩
  | cons l rs ih =>
      obtain ⟨ctx₁, hround, -, hnext⟩ := h.round hw hvalid (hrs l List.mem_cons_self)
      have hone := hmore (k + 1) (by omega) (by rw [List.length_cons]; omega)
      obtain ⟨ctx', hctx', hlast⟩ := ih (fun x hx => hrs x (List.mem_cons_of_mem l hx))
        (hnext (by push_cast at hone; exact hone))
        (fun j hlo hhi => hmore j (by omega) (by rw [List.length_cons]; omega))
      refine ⟨ctx', ?_, ?_⟩
      · rw [List.foldlM_cons, hround]
        exact hctx'
      · rw [List.length_cons, show k + (rs.length + 1) = k + 1 + rs.length by omega]
        exact hlast

/-- The warm-up ends with its last round. -/
theorem Warming.ended (hw : 32 ≤ w) (hvalid : config.Valid) (hsome : 1 ≤ config.warmup_loops)
    {rs : List (List Int)} (hrs : ∀ l ∈ rs, Complete w config l)
    (hlength : (rs.length : Int) = config.warmup_loops) (h : Warming w config 0 ctx) :
    ∃ ctx', rs.foldlM (timer_task_proc w) ctx = some ctx' ∧ Counting w config [] ctx' := by
  have hend := int_lt_longEnd hw
  have hW := hvalid.warmup_loops
  rcases List.eq_nil_or_concat rs with hnil | ⟨before, l, hrs'⟩
  · rw [hnil] at hlength
    simp only [List.length_nil, Nat.cast_zero] at hlength
    omega
  · rw [List.concat_eq_append] at hrs'
    subst hrs'
    simp only [List.length_append, List.length_singleton, Nat.cast_add, Nat.cast_one] at hlength
    obtain ⟨ctx₁, hbefore, hwarm⟩ := h.rounds hw hvalid
      (fun x hx => hrs x (List.mem_append_left _ hx)) (by
        intro j _ hj
        rw [long_of_fits hw (by omega) (by omega)]
        omega)
    obtain ⟨ctx', hround, hlast, -⟩ := hwarm.round hw hvalid
      (hrs l (List.mem_append_right _ (List.mem_singleton.mpr rfl)))
    refine ⟨ctx', ?_, hlast ?_⟩
    · rw [List.foldlM_append, hbefore]
      show (timer_task_proc w ctx₁ l).bind (fun ctx => some ctx) = some ctx'
      rw [hround]
      rfl
    · rw [long_of_fits hw (by omega) (by omega)]
      omega

theorem Counting.rounds (hw : 32 ≤ w) (hvalid : config.Valid) (h : Counting w config [] ctx)
    {rs : List (List Int)} (hrs : ∀ l ∈ rs, Complete w config l)
    (hgood : ∀ l ∈ rs, Good w config l) :
    ∃ ctx', rs.foldlM (timer_task_proc w) ctx = some ctx' ∧ Counting w config rs ctx' :=
  foldlM_some (fun _ _ _ h hl hg => h.round hw hvalid hl hg) hrs hgood h

theorem Counting.faults (hw : 32 ≤ w) (hvalid : config.Valid) (h : Counting w config [] ctx)
    {rs : List (List Int)} (hrs : ∀ l ∈ rs, Complete w config l)
    (hbad : ∃ l ∈ rs, ¬ Good w config l) : rs.foldlM (timer_task_proc w) ctx = none :=
  foldlM_none (Good w config) (fun _ _ _ h hl hg => h.round hw hvalid hl hg)
    (fun _ _ _ h hl hb => h.fault hw hvalid hl hb) hrs hbad h

/-! ## What the evaluation keeps -/

/-- What stays as `rt_tmbench_start` has set it. -/
structure Context.Kept (ctx ctx' : Context) : Prop where
  period : ctx'.period = ctx.period
  samples_per_sec : ctx'.samples_per_sec = ctx.samples_per_sec
  histogram_size : ctx'.histogram_size = ctx.histogram_size
  bucketsize : ctx'.bucketsize = ctx.bucketsize
  block : ctx'.block = ctx.block

theorem Context.Kept.trans {a b c : Context} (h : a.Kept b) (h' : b.Kept c) : a.Kept c :=
  ⟨h'.period.trans h.period, h'.samples_per_sec.trans h.samples_per_sec,
    h'.histogram_size.trans h.histogram_size, h'.bucketsize.trans h.bucketsize,
    h'.block.trans h.block⟩

theorem eval_inner_loop_kept {ctx ctx' : Context} {dt : Int}
    (h : eval_inner_loop w ctx dt = some ctx') :
    ctx.Kept ctx' ∧ ctx'.curr.test_loops = ctx.curr.test_loops ∧ ctx'.overall = ctx.overall := by
  unfold eval_inner_loop at h
  obtain ⟨histogram, -, rfl⟩ := Option.map_eq_some_iff.mp h
  exact ⟨⟨rfl, rfl, rfl, rfl, rfl⟩, rfl, rfl⟩

theorem evalResult_kept {ctx s : Context} (h : evalResult w ctx = some s) :
    ctx.Kept s ∧ s.curr = ctx.curr ∧ s.overall.test_loops = ctx.overall.test_loops := by
  unfold evalResult at h
  obtain ⟨histogram_max, -, h⟩ := Option.bind_eq_some_iff.mp h
  obtain ⟨histogram_min, -, h⟩ := Option.bind_eq_some_iff.mp h
  cases h
  exact ⟨⟨rfl, rfl, rfl, rfl, rfl⟩, rfl, rfl⟩

theorem endWarmup_kept (ctx : Context) :
    ctx.Kept (endWarmup ctx) ∧ (endWarmup ctx).curr = ctx.curr ∧
      ((endWarmup ctx).overall.test_loops = 0 ∨
        (endWarmup ctx).overall.test_loops = ctx.overall.test_loops) := by
  unfold endWarmup
  split
  · exact ⟨⟨rfl, rfl, rfl, rfl, rfl⟩, rfl, .inl rfl⟩
  · exact ⟨⟨rfl, rfl, rfl, rfl, rfl⟩, rfl, .inr rfl⟩

/-- The end of a round, in the warm-up or after it. -/
structure RoundEnd (w : Nat) (ctx ctx' : Context) : Prop where
  kept : ctx.Kept ctx'
  curr : ctx'.curr = resetCurr ctx.curr
  test_loops : ctx'.overall.test_loops = long w 1 ∨
    ctx'.overall.test_loops = long w (ctx.overall.test_loops + 1)

theorem eval_outer_loop_ends {ctx ctx' : Context} (h : eval_outer_loop w ctx = some ctx') :
    RoundEnd w ctx ctx' := by
  unfold eval_outer_loop at h
  obtain ⟨s, hs, rfl⟩ := Option.map_eq_some_iff.mp h
  have hkept : ctx.Kept s ∧ s.curr = ctx.curr ∧
      s.overall.test_loops = ctx.overall.test_loops := by
    split at hs
    · cases hs
      exact ⟨⟨rfl, rfl, rfl, rfl, rfl⟩, rfl, rfl⟩
    · exact evalResult_kept hs
  obtain ⟨hresult, hcurr, hloops⟩ := hkept
  obtain ⟨hended, hcurr', hloops'⟩ := endWarmup_kept s
  have hall := hresult.trans hended
  refine ⟨⟨hall.period, hall.samples_per_sec, hall.histogram_size, hall.bucketsize, hall.block⟩,
    ?_, ?_⟩
  · show resetCurr (endWarmup s).curr = resetCurr ctx.curr
    rw [hcurr', hcurr]
  · show long w ((endWarmup s).overall.test_loops + 1) = _ ∨
      long w ((endWarmup s).overall.test_loops + 1) = _
    rw [← hloops]
    rcases hloops' with hzero | hsame
    · left
      rw [hzero, Int.zero_add]
    · right
      rw [hsame]

/-! ## The handler -/

theorem eval_inner_loop_setLoops (ctx : Context) (n dt : Int) :
    eval_inner_loop w (ctx.setLoops n) dt = (eval_inner_loop w ctx dt).map (·.setLoops n) := by
  unfold eval_inner_loop
  rw [Option.map_map]
  rfl

theorem setLoops_self {ctx : Context} {n : Int} (h : ctx.curr.test_loops = n) :
    ctx.setLoops n = ctx := by
  subst h
  rfl

/-- The handler goes through the rest of a round as the task does. -/
theorem timer_proc_rest (hw : 32 ≤ w) {samples n : Int} (hn : 0 ≤ n)
    (hsamples : samples ≤ 1000000000) {l : List Int} (hne : l ≠ []) (hlen : n + l.length = samples)
    (hctx : ctx.samples_per_sec = samples) :
    l.foldlM (timer_proc w) (ctx.setLoops n) =
      (l.foldlM (eval_inner_loop w) ctx).bind fun ctx => eval_outer_loop w (ctx.setLoops 0) := by
  have hend := int_lt_longEnd hw
  induction l generalizing ctx n with
  | nil => exact absurd rfl hne
  | cons dt l ih =>
      rw [List.length_cons] at hlen
      push_cast at hlen
      rw [List.foldlM_cons, List.foldlM_cons]
      unfold timer_proc
      rw [eval_inner_loop_setLoops]
      cases hinner : eval_inner_loop w ctx dt with
      | none => rfl
      | some ctx₁ =>
          have hsame := (eval_inner_loop_kept hinner).1.samples_per_sec
          rw [hctx] at hsame
          have hlong : long w (n + 1) = n + 1 := long_of_fits hw (by omega) (by omega)
          cases l with
          | nil =>
              show (if long w (n + 1) ≥ ctx₁.samples_per_sec then
                  eval_outer_loop w (ctx₁.setLoops 0)
                else some (ctx₁.setLoops (long w (n + 1)))).bind some =
                eval_outer_loop w (ctx₁.setLoops 0)
              rw [hlong, hsame, if_pos (by simp only [List.length_nil] at hlen; omega),
                Option.bind_fun_some]
          | cons dt' l =>
              have hshort : ¬ n + 1 ≥ samples := by
                rw [List.length_cons] at hlen
                push_cast at hlen
                omega
              show (if long w (n + 1) ≥ ctx₁.samples_per_sec then
                  eval_outer_loop w (ctx₁.setLoops 0)
                else some (ctx₁.setLoops (long w (n + 1)))).bind
                  ((dt' :: l).foldlM (timer_proc w)) = _
              rw [hlong, hsame, if_neg hshort]
              exact ih (by omega) (List.cons_ne_nil _ _) (by omega) hsame

theorem samples_same {l : List Int} {ctx ctx' : Context}
    (h : l.foldlM (eval_inner_loop w) ctx = some ctx') :
    ctx'.curr.test_loops = ctx.curr.test_loops ∧ ctx'.samples_per_sec = ctx.samples_per_sec := by
  induction l generalizing ctx with
  | nil =>
      cases h
      exact ⟨rfl, rfl⟩
  | cons dt l ih =>
      rw [List.foldlM_cons] at h
      obtain ⟨ctx₁, hinner, hrest⟩ := Option.bind_eq_some_iff.mp h
      obtain ⟨hkept, hloops, -⟩ := eval_inner_loop_kept hinner
      rw [← hloops, ← hkept.samples_per_sec]
      exact ih hrest

theorem timer_proc_round (hw : 32 ≤ w) (hvalid : config.Valid) {l : List Int}
    (hl : Complete w config l) (hloops : ctx.curr.test_loops = 0)
    (hsamples : ctx.samples_per_sec = 1000000000 / config.period) :
    l.foldlM (timer_proc w) ctx = timer_task_proc w ctx l := by
  have hle : (1000000000 : Int) / config.period ≤ 1000000000 := Int.ediv_le_self _ (by decide)
  have hrest := timer_proc_rest hw (Int.le_refl 0) hle (hl.ne_nil hvalid)
    (by rw [hl.length, Int.zero_add]) hsamples
  rw [setLoops_self hloops] at hrest
  rw [hrest]
  unfold timer_task_proc
  cases hinner : l.foldlM (eval_inner_loop w) ctx with
  | none => rfl
  | some ctx₁ =>
      have hzero := (samples_same hinner).1
      rw [hloops] at hzero
      rw [Option.bind_some, Option.bind_some, setLoops_self hzero]

/-- The handler goes through the rounds as the task does. -/
theorem timer_proc_rounds (hw : 32 ≤ w) (hvalid : config.Valid) {rs : List (List Int)}
    (hrs : ∀ l ∈ rs, Complete w config l) (hloops : ctx.curr.test_loops = 0)
    (hsamples : ctx.samples_per_sec = 1000000000 / config.period) :
    rs.flatten.foldlM (timer_proc w) ctx = rs.foldlM (timer_task_proc w) ctx := by
  induction rs generalizing ctx with
  | nil => rfl
  | cons l rs ih =>
      rw [List.flatten_cons, List.foldlM_append, List.foldlM_cons,
        timer_proc_round hw hvalid (hrs l List.mem_cons_self) hloops hsamples]
      cases hround : timer_task_proc w ctx l with
      | none => rfl
      | some ctx₁ =>
          unfold timer_task_proc at hround
          obtain ⟨s, hinner, houter⟩ := Option.bind_eq_some_iff.mp hround
          obtain ⟨hloops', hsamples'⟩ := samples_same hinner
          have hend := eval_outer_loop_ends houter
          have hloops'' : ctx₁.curr.test_loops = s.curr.test_loops := by
            rw [hend.curr]
            rfl
          rw [← hloops', ← hloops''] at hloops
          rw [← hsamples', ← hend.kept.samples_per_sec] at hsamples
          exact ih (fun x hx => hrs x (List.mem_cons_of_mem l hx)) hloops hsamples

theorem measure_eq (hw : 32 ≤ w) (hvalid : config.Valid) {rs : List (List Int)}
    (hrs : ∀ l ∈ rs, Complete w config l) (ctx : Context) :
    measure w config.mode (startContext w ctx config) rs =
      rs.foldlM (timer_task_proc w) (startContext w ctx config) := by
  unfold measure
  by_cases hmode : config.mode = RTTST_TMBENCH_TASK
  · rw [if_pos hmode]
  · rw [if_neg hmode]
    refine timer_proc_rounds hw hvalid hrs ?_ rfl
    unfold startContext
    simp only [if_neg hmode]

end RtaiDemos.Timerbench
