import RtaiDemos.Timerbench.Faults
import RtaiDemos.Timerbench.Logic.Rounds

/-!
# When a step of the timer benchmark faults

One access to a histogram, then each of the checks against its condition, and from what a
step can do the step lemma: while a benchmark runs its context is that of one, and a step
faults exactly if it is not sound. The steps that do not fault are those of the evaluation.
-/

namespace RtaiDemos.Timerbench

variable {w : Nat}

/-! ## One access to a histogram -/

/-- A quotient of an absolute value is not negative if the divisor is positive, or larger. -/
theorem tdiv_nonneg_iff (n : Nat) {b : Int} (hb : b ≠ 0) :
    0 ≤ (n : Int).tdiv b ↔ 0 < b ∨ n < b.natAbs := by
  rcases Int.lt_or_gt_of_ne hb with hneg | hpos
  · obtain ⟨m, hm⟩ := Int.eq_ofNat_of_zero_le (show 0 ≤ -b by omega)
    have hbm : b = -(m : Int) := by omega
    have hmpos : 0 < m := by omega
    rw [hbm, Int.tdiv_neg, Int.tdiv_eq_ediv_of_nonneg (Int.natCast_nonneg n), ← Int.natCast_ediv,
      Int.natAbs_neg, Int.natAbs_natCast]
    have hlt : n / m = 0 ↔ n < m := Nat.div_eq_zero_iff_lt hmpos
    generalize n / m = q at hlt
    omega
  · exact iff_of_true (Int.tdiv_nonneg (Int.natCast_nonneg n) (by omega)) (.inl hpos)

/-- The index that is taken for the quotient `q`. -/
theorem index_mem_iff {size : Int} (q : Int) :
    (0 ≤ (if q < size then q else size - 1) ∧ (if q < size then q else size - 1) < size) ↔
      0 < size ∧ 0 ≤ q := by
  split <;> omega

/-- `LONG_MIN` is its own absolute value. -/
theorem abs_long_min (hw : 32 ≤ w) :
    (if -longEnd w ≥ 0 then -longEnd w else long w (-(-longEnd w))) = -longEnd w := by
  have hend := int_lt_longEnd hw
  rw [if_neg (by omega), Int.neg_neg, long_end hw]

theorem abs_long (hw : 32 ≤ w) {addval : Int} (hlong : IsLong w addval)
    (hmin : addval ≠ -longEnd w) :
    (if addval ≥ 0 then addval else long w (-addval)) = addval.natAbs := by
  unfold IsLong at hlong
  split
  · omega
  · rw [long_of_fits hw (by omega) (by omega)]
    omega

/-- The dividend of `add_histogram`, the index and what can go wrong before the access. -/
theorem addFault_none (ctx : Context) (addval : Int) {abs : Int}
    (habs : (if addval ≥ 0 then addval else long w (-addval)) = abs) :
    addFault w ctx addval = none ↔
      ctx.bucketsize ≠ 0 ∧ ¬ (abs = -longEnd w ∧ ctx.bucketsize = -1) ∧
        0 < ctx.histogram_size ∧ 0 ≤ abs.tdiv ctx.bucketsize ∧ allocated w ctx = true := by
  unfold addFault histogramIndex
  simp only [habs]
  change (if ctx.bucketsize = 0 ∨ abs = -longEnd w ∧ ctx.bucketsize = -1 then _ else _) = _ ↔ _
  by_cases hdiv : ctx.bucketsize = 0 ∨ abs = -longEnd w ∧ ctx.bucketsize = -1
  · rw [if_pos hdiv]
    refine iff_of_false nofun ?_
    rintro ⟨hzero, hmin, -⟩
    exact hdiv.elim hzero hmin
  · rw [if_neg hdiv]
    rw [not_or] at hdiv
    simp only [index_mem_iff]
    by_cases hmem : 0 < ctx.histogram_size ∧ 0 ≤ abs.tdiv ctx.bucketsize
    · rw [if_neg (not_not.mpr hmem)]
      cases hall : allocated w ctx with
      | true => exact iff_of_true rfl ⟨hdiv.1, hdiv.2, hmem.1, hmem.2, rfl⟩
      | false => exact iff_of_false nofun (fun h => nomatch h.2.2.2.2)
    · rw [if_pos hmem]
      exact iff_of_false nofun (fun h => hmem ⟨h.2.2.1, h.2.2.2.1⟩)

/-- `add_histogram` does not fault exactly if there is a place for the value. -/
theorem addFault_none_iff (hw : 32 ≤ w) (ctx : Context) {addval : Int}
    (hlong : IsLong w addval) (hint : 0 < ctx.histogram_size → ctx.bucketsize < 2 ^ 31) :
    addFault w ctx addval = none ↔ Placed w ctx addval := by
  have hend := int_lt_longEnd hw
  change _ ↔ 0 < ctx.histogram_size ∧ allocated w ctx = true ∧
    (0 < ctx.bucketsize ∧ addval ≠ -longEnd w ∨
      ctx.bucketsize < 0 ∧ (addval.natAbs < ctx.bucketsize.natAbs ∨
        addval = -longEnd w ∧ ctx.bucketsize ≠ -1))
  by_cases hmin : addval = -longEnd w
  · have habs : (if addval ≥ 0 then addval else long w (-addval)) = -longEnd w := by
      rw [hmin]
      exact abs_long_min hw
    rw [addFault_none ctx addval habs]
    have hquot : ctx.bucketsize ≠ 0 →
        (0 ≤ (-longEnd w).tdiv ctx.bucketsize ↔
          ctx.bucketsize < 0 ∨ longEnd w < ctx.bucketsize) := by
      intro hb
      have hnat := tdiv_nonneg_iff (longEnd w).natAbs (b := -ctx.bucketsize) (by omega)
      rw [Int.natAbs_of_nonneg (by omega), Int.tdiv_neg, ← Int.neg_tdiv] at hnat
      omega
    constructor
    · rintro ⟨hb, hover, hsize, hq, hall⟩
      have hcases := (hquot hb).mp hq
      have hint' := hint hsize
      refine ⟨hsize, hall, ?_⟩
      omega
    · rintro ⟨hsize, hall, hcases⟩
      have hb : ctx.bucketsize ≠ 0 := by omega
      exact ⟨hb, by omega, hsize, (hquot hb).mpr (by omega), hall⟩
  · rw [addFault_none ctx addval (abs_long hw hlong hmin)]
    have hquot := fun hb => tdiv_nonneg_iff addval.natAbs (b := ctx.bucketsize) hb
    constructor
    · rintro ⟨hb, -, hsize, hq, hall⟩
      have hcases := (hquot hb).mp hq
      refine ⟨hsize, hall, ?_⟩
      omega
    · rintro ⟨hsize, hall, hcases⟩
      have hb : ctx.bucketsize ≠ 0 := by omega
      exact ⟨hb, fun h => by omega, hsize, (hquot hb).mpr (by omega), hall⟩

/-! ## What holds while a benchmark runs -/

/-- The context of a benchmark that runs. -/
structure Started (w : Nat) (ctx : Context) : Prop where
  bucketsize : 0 < ctx.histogram_size → ctx.bucketsize < 2 ^ 31
  period : 0 < ctx.period
  samples : ctx.samples_per_sec = 1000000000 / ctx.period
  max : IsLong w ctx.curr.max
  min : IsLong w ctx.curr.min

theorem sentinel_isLong (hw : 32 ≤ w) : IsLong w sentinel ∧ IsLong w (-sentinel) := by
  have hend := int_lt_longEnd hw
  unfold IsLong sentinel
  omega

theorem Started.start (hw : 32 ≤ w) (ctx : Context) (u : UserConfig)
    (hperiod : (u.config w).period ≠ 0) : Started w (startContext w ctx (u.config w)) := by
  obtain ⟨hmin, hmax⟩ := sentinel_isLong hw
  refine ⟨?_, Nat.pos_of_ne_zero hperiod, rfl, ?_, ?_⟩
  · intro hsize
    change 0 < (u.config w).histogram_size at hsize
    have hlt : u.histogram_bucketsize.toInt < 2 ^ 31 := BitVec.toInt_lt
    change (if (u.config w).histogram_size > 0 then u.histogram_bucketsize.toInt
      else ctx.bucketsize) < 2 ^ 31
    rw [if_pos hsize]
    exact hlt
  · unfold startContext
    simp only
    split
    · exact hmax
    · exact hmax
  · unfold startContext
    simp only
    split
    · exact hmin
    · exact hmin

theorem Started.setLoops {ctx : Context} (h : Started w ctx) (n : Int) :
    Started w (ctx.setLoops n) :=
  ⟨h.bucketsize, h.period, h.samples, h.max, h.min⟩

theorem Started.kept {ctx ctx' : Context} (h : Started w ctx) (hkept : ctx.Kept ctx')
    (hmax : IsLong w ctx'.curr.max) (hmin : IsLong w ctx'.curr.min) : Started w ctx' := by
  refine ⟨?_, ?_, ?_, hmax, hmin⟩
  · rw [hkept.histogram_size, hkept.bucketsize]
    exact h.bucketsize
  · rw [hkept.period]
    exact h.period
  · rw [hkept.samples_per_sec, hkept.period]
    exact h.samples

/-- After `eval_inner_loop` the extremes are the delay, or what they were. -/
theorem eval_inner_loop_extremes {ctx ctx' : Context} {dt : Int}
    (h : eval_inner_loop w ctx dt = some ctx') :
    (ctx'.curr.max = dt ∨ ctx'.curr.max = ctx.curr.max) ∧
      (ctx'.curr.min = dt ∨ ctx'.curr.min = ctx.curr.min) := by
  unfold eval_inner_loop at h
  obtain ⟨histogram, -, rfl⟩ := Option.map_eq_some_iff.mp h
  refine ⟨?_, ?_⟩
  · show (if dt > ctx.curr.max then dt else ctx.curr.max) = _ ∨
      (if dt > ctx.curr.max then dt else ctx.curr.max) = _
    split
    · exact .inl rfl
    · exact .inr rfl
  · show (if dt < ctx.curr.min then dt else ctx.curr.min) = _ ∨
      (if dt < ctx.curr.min then dt else ctx.curr.min) = _
    split
    · exact .inl rfl
    · exact .inr rfl

theorem Started.inner {ctx ctx' : Context} {dt : Int} (h : Started w ctx) (hdt : IsLong w dt)
    (hinner : eval_inner_loop w ctx dt = some ctx') : Started w ctx' := by
  obtain ⟨hmax, hmin⟩ := eval_inner_loop_extremes hinner
  refine h.kept (eval_inner_loop_kept hinner).1 ?_ ?_
  · rcases hmax with heq | heq
    · rw [heq]
      exact hdt
    · rw [heq]
      exact h.max
  · rcases hmin with heq | heq
    · rw [heq]
      exact hdt
    · rw [heq]
      exact h.min

theorem Started.outer (hw : 32 ≤ w) {ctx ctx' : Context} (h : Started w ctx)
    (houter : eval_outer_loop w ctx = some ctx') : Started w ctx' := by
  obtain ⟨hmin, hmax⟩ := sentinel_isLong hw
  have hend := eval_outer_loop_ends houter
  refine h.kept hend.kept ?_ ?_
  · rw [hend.curr]
    exact hmax
  · rw [hend.curr]
    exact hmin

/-! ## The checks -/

theorem innerFault_none_iff (hw : 32 ≤ w) {σ : Bench} (h : Started w σ.ctx) (delay : Int) :
    innerFault w σ.ctx (long w delay) = none ↔ Sound w σ (.sample delay) := by
  unfold innerFault Sound
  have hadd := addFault_none_iff hw σ.ctx (long_isLong hw delay) h.bucketsize
  cases hwarm : σ.ctx.warmup with
  | true => exact iff_of_true rfl nofun
  | false =>
      by_cases hsize : σ.ctx.histogram_size = 0
      · rw [if_neg (by simp [hsize])]
        exact iff_of_true rfl fun _ hne => absurd hsize hne
      · rw [if_pos (by simpa using hsize), hadd]
        exact ⟨fun hp _ _ => hp, fun hp => hp rfl hsize⟩

/-- The number of samples in a second is not 0 exactly if the period is not above one. -/
theorem samplesFault_none_iff {ctx : Context} (h : Started w ctx) :
    slldivFault ctx.samples_per_sec = none ↔ ctx.period ≤ 1000000000 := by
  have hperiod := h.period
  have hsamples : ctx.samples_per_sec = ((1000000000 / ctx.period : Nat) : Int) := by
    rw [h.samples]
    rfl
  have hle : 1000000000 / ctx.period ≤ 1000000000 := Nat.div_le_self _ _
  have hzero : 1000000000 / ctx.period = 0 ↔ 1000000000 < ctx.period :=
    Nat.div_eq_zero_iff_lt hperiod
  generalize 1000000000 / ctx.period = n at hsamples hle hzero
  unfold slldivFault unsigned
  rw [hsamples]
  split
  · exact iff_of_false nofun (by omega)
  · exact iff_of_true rfl (by omega)

theorem outerFault_none_iff (hw : 32 ≤ w) {σ : Bench} (h : Started w σ.ctx) :
    outerFault w σ.ctx = none ↔ Sound w σ .round := by
  unfold outerFault Sound
  have hmax := addFault_none_iff hw σ.ctx h.max h.bucketsize
  have hmin := addFault_none_iff hw σ.ctx h.min h.bucketsize
  cases hwarm : σ.ctx.warmup with
  | true => exact iff_of_true rfl nofun
  | false =>
      rw [if_neg (by simp), Option.or_eq_none_iff, samplesFault_none_iff h, forall_prop_of_true rfl]
      by_cases hsize : σ.ctx.histogram_size = 0
      · rw [if_neg (by simp [hsize])]
        exact ⟨fun hp => ⟨hp.2, fun hne => absurd hsize hne⟩, fun hp => ⟨rfl, hp.1⟩⟩
      · rw [if_pos (by simpa using hsize), Option.or_eq_none_iff, hmax, hmin]
        exact ⟨fun hp => ⟨hp.2, fun _ => hp.1⟩, fun hp => ⟨hp.2 hsize, hp.1⟩⟩

theorem stopFault_none_iff (σ : Bench) : stopFault σ.ctx = none ↔ Sound w σ .stop := by
  unfold stopFault Sound slldivFault unsigned
  generalize σ.ctx.overall.test_loops = n
  by_cases hn : n > 1
  · rw [if_pos hn]
    split
    · exact iff_of_false nofun (by omega)
    · exact iff_of_true rfl (by omega)
  · rw [if_neg hn]
    exact iff_of_true rfl (by omega)

/-- A context without histograms, or an access that does not fault, is counted. -/
theorem countIn_isSome {ctx : Context} {addval : Int} (on : Bool)
    (h : on = true → ctx.histogram_size ≠ 0 → addFault w ctx addval = none)
    (histogram : Int → Int) : (countIn w ctx on histogram addval).isSome = true := by
  unfold countIn
  split
  · rename_i hon
    obtain ⟨hon, hsize⟩ : on = true ∧ ctx.histogram_size ≠ 0 := by simpa using hon
    have hmem := ((addFault_none ctx addval rfl).mp (h hon hsize))
    unfold add_histogram histogramIndex
    simp only [index_mem_iff]
    rw [if_pos ⟨⟨hmem.2.2.1, hmem.2.2.2.1⟩, hmem.2.2.2.2⟩]
    rfl
  · rfl

/-- Nothing but a fault stops a sample. -/
theorem inner_isSome {ctx : Context} {dt : Int}
    (h : innerFault w ctx dt = none) : (eval_inner_loop w ctx dt).isSome = true := by
  unfold eval_inner_loop
  rw [Option.isSome_map]
  have hplace : (!ctx.warmup) = true → ctx.histogram_size ≠ 0 → addFault w ctx dt = none := by
    intro hon hsize
    unfold innerFault at h
    rwa [if_pos (by simpa [hon] using hsize)] at h
  exact countIn_isSome _ hplace _

/-- Nothing but a fault stops a round. -/
theorem outer_isSome {ctx : Context} (h : outerFault w ctx = none) :
    (eval_outer_loop w ctx).isSome = true := by
  unfold eval_outer_loop
  rw [Option.isSome_map]
  unfold outerFault at h
  cases hwarm : ctx.warmup with
  | true => rfl
  | false =>
      rw [hwarm, if_neg (by simp), Option.or_eq_none_iff] at h
      have hadd : ∀ addval, addval = ctx.curr.max ∨ addval = ctx.curr.min →
          ctx.histogram_size ≠ 0 → addFault w ctx addval = none := by
        intro addval hval hsize
        rw [if_pos hsize, Option.or_eq_none_iff] at h
        rcases hval with rfl | rfl
        · exact h.1.1
        · exact h.1.2
      obtain ⟨histogram_max, hmax⟩ := Option.isSome_iff_exists.mp
        (countIn_isSome true (fun _ => hadd ctx.curr.max (.inl rfl)) ctx.histogram_max)
      obtain ⟨histogram_min, hmin⟩ := Option.isSome_iff_exists.mp
        (countIn_isSome true (fun _ => hadd ctx.curr.min (.inr rfl)) ctx.histogram_min)
      rw [if_neg (by simp)]
      unfold evalResult
      rw [hmax, hmin]
      rfl

/-! ## What a step can do -/

/-- A step that is looked at before it is made: it fails, or it has its result. -/
inductive Checked (σ : Bench) (check : Option Fault) (result : Option Bench) (σ' : Bench) : Prop
  | fails {f : Fault} (found : check = some f) (ended : σ' = σ.fails f)
  | goes (found : check = none) (ended : result = some σ')

theorem checked_of_match {σ σ' : Bench} {check : Option Fault} {result : Option Bench}
    (h : (match check with
      | some f => some (σ.fails f)
      | none => result) = some σ') : Checked σ check result σ' := by
  cases check with
  | some f => exact .fails rfl (Option.some.inj h).symm
  | none => exact .goes rfl h

theorem next_live {σ σ' : Bench} {event : Event} (h : σ.next w event = some σ') :
    ¬ σ.fault.isSome = true := by
  intro hfault
  unfold Bench.next at h
  rw [if_pos hfault] at h
  cases h

/-- How `rt_tmbench_start` ends. -/
inductive Starting (w : Nat) (σ : Bench) (u : UserConfig) (o : StartOutcome) (σ' : Bench) : Prop
  | refused (copied : o.copied = false) (ended : σ' = σ)
  | divides (copied : o.copied = true) (period : (u.config w).period = 0)
      (ended : σ' = σ.fails .divide)
  | noMemory (period : (u.config w).period ≠ 0) (running : σ'.running = σ.running)
      (fault : σ'.fault = σ.fault)
  | starts (period : (u.config w).period ≠ 0) (ctx : σ'.ctx = startContext w σ.ctx (u.config w))
      (fault : σ'.fault = σ.fault)

theorem start_cases (σ : Bench) (u : UserConfig) (o : StartOutcome) :
    Starting w σ u o (σ.start w u o) := by
  unfold Bench.start
  simp only
  split
  · rename_i hcopied
    exact .refused hcopied rfl
  · rename_i hcopied
    split
    · rename_i hperiod
      exact .divides (Bool.not_eq_false _ ▸ hcopied) hperiod rfl
    · rename_i hperiod
      split
      · exact .noMemory hperiod rfl rfl
      · exact .starts hperiod rfl rfl

theorem next_start {σ σ' : Bench} {u : UserConfig} {o : StartOutcome}
    (h : σ.next w (.start u o) = some σ') : ¬ σ.running = true ∧ Starting w σ u o σ' := by
  have hlive := next_live h
  unfold Bench.next at h
  rw [if_neg hlive] at h
  simp only at h
  split at h
  · cases h
  · rename_i hrun
    cases h
    exact ⟨hrun, start_cases σ u o⟩

theorem next_sample {σ σ' : Bench} {delay : Int} (h : σ.next w (.sample delay) = some σ') :
    σ.running = true ∧ Checked σ (innerFault w σ.ctx (long w delay))
      ((eval_inner_loop w σ.ctx (long w delay)).map (σ.sampled w)) σ' := by
  have hlive := next_live h
  unfold Bench.next at h
  rw [if_neg hlive] at h
  simp only at h
  split at h
  · cases h
  · rename_i hrun
    simp only [Bool.or_eq_true, Bool.not_eq_true', not_or, Bool.not_eq_false] at hrun
    exact ⟨hrun.1, checked_of_match h⟩

theorem next_round {σ σ' : Bench} (h : σ.next w .round = some σ') :
    σ.running = true ∧ Checked σ (outerFault w σ.ctx)
      ((eval_outer_loop w σ.roundContext).map σ.rounded) σ' := by
  have hlive := next_live h
  unfold Bench.next at h
  rw [if_neg hlive] at h
  simp only at h
  split at h
  · cases h
  · rename_i hrun
    simp only [Bool.or_eq_true, Bool.not_eq_true', not_or, Bool.not_eq_false] at hrun
    exact ⟨hrun.1, checked_of_match h⟩

theorem next_stop {σ σ' : Bench} (h : σ.next w .stop = some σ') :
    σ.running = true ∧ Checked σ (stopFault σ.ctx)
      (some { σ with ctx := stopContext σ.ctx, running := false }) σ' := by
  have hlive := next_live h
  unfold Bench.next at h
  rw [if_neg hlive] at h
  simp only at h
  split at h
  · cases h
  · rename_i hrun
    rw [Bool.not_eq_true', Bool.not_eq_false] at hrun
    exact ⟨hrun, checked_of_match h⟩

/-! ## One step -/

/-- While a benchmark runs, its context is that of one. -/
def Bench.Proper (w : Nat) (σ : Bench) : Prop := σ.running = true → Started w σ.ctx

/-- A step that is looked at: what it comes to if it is not stopped decides. -/
theorem Checked.step {σ σ' : Bench} {check : Option Fault} {result : Option Bench} {P : Prop}
    (h : Checked σ check result σ') (hproper : σ.Proper w) (hiff : check = none ↔ P)
    (hgoes : ∀ σ₁, result = some σ₁ → σ₁.Proper w ∧ σ₁.fault = none) :
    σ'.Proper w ∧ (σ'.fault = none ↔ P) := by
  cases h with
  | fails hfound hend =>
      subst hend
      refine ⟨hproper, iff_of_false nofun ?_⟩
      rw [← hiff, hfound]
      nofun
  | goes hfound hend =>
      obtain ⟨hproper', hok⟩ := hgoes σ' hend
      exact ⟨hproper', iff_of_true hok (hiff.mp hfound)⟩

/-- The period as the context takes it over. -/
theorem period_eq_zero_iff (u : UserConfig) :
    (u.config w).period = 0 ↔ (2 ^ w : Int) ∣ u.period.toInt := by
  have hpos : 0 ≤ u.period.toInt % 2 ^ w := Int.emod_nonneg _ (pow_ne_zero w (by decide))
  rw [Int.dvd_iff_emod_eq_zero]
  change (u.period.toInt % 2 ^ w).toNat = 0 ↔ _
  omega

theorem Bench.Proper.start (hw : 32 ≤ w) {σ σ' : Bench} (h : σ.Proper w) (hok : σ.fault = none)
    (hidle : ¬ σ.running = true) {u : UserConfig} {o : StartOutcome}
    (hstart : Starting w σ u o σ') : σ'.Proper w ∧ (σ'.fault = none ↔ Sound w σ (.start u o)) := by
  have hzero := period_eq_zero_iff (w := w) u
  have hsound : (u.config w).period ≠ 0 → Sound w σ (.start u o) :=
    fun hperiod _ hdvd => hperiod (hzero.mpr hdvd)
  cases hstart with
  | refused hcopied hend =>
      subst hend
      exact ⟨h, iff_of_true hok (fun hc => by rw [hcopied] at hc; cases hc)⟩
  | divides hcopied hperiod hend =>
      subst hend
      exact ⟨h, iff_of_false nofun fun hs => hs hcopied (hzero.mp hperiod)⟩
  | noMemory hperiod hrun hfault =>
      exact ⟨fun hr => absurd (hrun ▸ hr) hidle, iff_of_true (hfault.trans hok) (hsound hperiod)⟩
  | starts hperiod hctx hfault =>
      refine ⟨fun _ => ?_, iff_of_true (hfault.trans hok) (hsound hperiod)⟩
      rw [hctx]
      exact Started.start hw σ.ctx u hperiod

/-- One step: it keeps the context proper, and faults exactly if it is not sound. -/
theorem Bench.Proper.step (hw : 32 ≤ w) {σ σ' : Bench} {event : Event} (h : σ.Proper w)
    (hok : σ.fault = none) (hnext : σ.next w event = some σ') :
    σ'.Proper w ∧ (σ'.fault = none ↔ Sound w σ event) := by
  cases event with
  | start u o =>
      obtain ⟨hidle, hstart⟩ := next_start hnext
      exact h.start hw hok hidle hstart
  | sample delay =>
      obtain ⟨hrun, hchecked⟩ := next_sample hnext
      refine hchecked.step h (innerFault_none_iff hw (h hrun) delay) ?_
      intro σ₁ hσ₁
      obtain ⟨ctx, hinner, rfl⟩ := Option.map_eq_some_iff.mp hσ₁
      have hstarted := (h hrun).inner (long_isLong hw delay) hinner
      unfold Bench.sampled
      split
      · exact ⟨fun _ => hstarted, hok⟩
      · exact ⟨fun _ => hstarted.setLoops _, hok⟩
  | round =>
      obtain ⟨hrun, hchecked⟩ := next_round hnext
      refine hchecked.step h (outerFault_none_iff hw (h hrun)) ?_
      intro σ₁ hσ₁
      obtain ⟨ctx, houter, rfl⟩ := Option.map_eq_some_iff.mp hσ₁
      have hround : Started w σ.roundContext := by
        unfold Bench.roundContext
        split
        · exact h hrun
        · exact (h hrun).setLoops 0
      exact ⟨fun _ => hround.outer hw houter, hok⟩
  | stop =>
      refine (next_stop hnext).2.step h (stopFault_none_iff σ) ?_
      intro σ₁ hσ₁
      cases hσ₁
      exact ⟨nofun, hok⟩

/-- A benchmark that has not faulted can go on. -/
theorem Bench.next_isSome {σ : Bench} (hrun : σ.running = true) (hok : σ.fault = none) :
    (σ.due = false → ∀ delay, (σ.next w (.sample delay)).isSome = true) ∧
      (σ.due = true → (σ.next w .round).isSome = true) ∧ (σ.next w .stop).isSome = true := by
  have hlive : ¬ σ.fault.isSome = true := by simp [hok]
  refine ⟨?_, ?_, ?_⟩
  · intro hdue delay
    unfold Bench.next
    rw [if_neg hlive]
    simp only
    rw [if_neg (by simp [hrun, hdue])]
    split
    · rfl
    · rename_i hf
      rw [Option.isSome_map]
      exact inner_isSome hf
  · intro hdue
    unfold Bench.next
    rw [if_neg hlive]
    simp only
    rw [if_neg (by simp [hrun, hdue])]
    split
    · rfl
    · rename_i hf
      rw [Option.isSome_map]
      have hsame : outerFault w σ.roundContext = none := by
        unfold Bench.roundContext
        split
        · exact hf
        · exact hf
      exact outer_isSome hsame
  · unfold Bench.next
    rw [if_neg hlive]
    simp only
    rw [if_neg (by simp [hrun])]
    split <;> rfl

/-! ## The steps are those of the evaluation -/

/-- A step that leaves no fault has its result. -/
theorem Checked.result {σ σ' : Bench} {check : Option Fault} {result : Option Bench}
    (h : Checked σ check result σ') (hok : σ'.fault = none) : result = some σ' := by
  cases h with
  | fails _ hend =>
      subst hend
      cases hok
  | goes _ hend => exact hend

/-- A fault ends a run. -/
theorem run_fault {σ σ' : Bench} {events : List Event} (h : (benches w).run σ events = some σ')
    (hok : σ'.fault = none) : σ.fault = none := by
  cases events with
  | nil =>
      cases h
      exact hok
  | cons event rest =>
      obtain ⟨σ₁, hnext, -⟩ := Option.bind_eq_some_iff.mp h
      exact Option.not_isSome_iff_eq_none.mp (next_live hnext)

/-- In the task, the samples of a round and its end are a round of `timer_task_proc`. -/
theorem task_round {σ σ' : Bench} {delays : List Int} (hmode : σ.mode = RTTST_TMBENCH_TASK)
    (h : (benches w).run σ (delays.map .sample ++ [.round]) = some σ') (hok : σ'.fault = none) :
    timer_task_proc w σ.ctx (delays.map (long w)) = some σ'.ctx := by
  unfold timer_task_proc
  induction delays generalizing σ with
  | nil =>
      obtain ⟨σ₁, hnext, hend⟩ := Option.bind_eq_some_iff.mp h
      cases hend
      obtain ⟨ctx, houter, rfl⟩ := Option.map_eq_some_iff.mp ((next_round hnext).2.result hok)
      unfold Bench.roundContext at houter
      rw [if_pos hmode] at houter
      exact houter
  | cons delay rest ih =>
      obtain ⟨σ₁, hnext, hrest⟩ := Option.bind_eq_some_iff.mp h
      obtain ⟨ctx, hinner, rfl⟩ :=
        Option.map_eq_some_iff.mp ((next_sample hnext).2.result (run_fault hrest hok))
      have hsampled : (σ.sampled w ctx).mode = RTTST_TMBENCH_TASK ∧
          (σ.sampled w ctx).ctx = ctx := by
        unfold Bench.sampled
        rw [if_pos hmode]
        exact ⟨hmode, rfl⟩
      have hround := ih hsampled.1 hrest
      rw [hsampled.2] at hround
      rw [List.map_cons, List.foldlM_cons, hinner]
      exact hround

/-- In the handler, a sample is `timer_proc`, with the end of the round if that is due. -/
theorem handler_sample {σ σ₁ : Bench} {delay : Int} (hmode : σ.mode ≠ RTTST_TMBENCH_TASK)
    (h : σ.next w (.sample delay) = some σ₁) (hok : σ₁.fault = none) :
    timer_proc w σ.ctx (long w delay) =
      if σ₁.due then eval_outer_loop w σ₁.roundContext else some σ₁.ctx := by
  obtain ⟨ctx, hinner, rfl⟩ := Option.map_eq_some_iff.mp ((next_sample h).2.result hok)
  unfold timer_proc Bench.roundContext Bench.sampled
  rw [hinner, if_neg hmode, if_neg hmode, Option.bind_some]
  simp only [decide_eq_true_eq]
  rfl

end RtaiDemos.Timerbench
