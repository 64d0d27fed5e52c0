import Mathlib.Algebra.Order.BigOperators.Group.List
import RtaiDemos.Timerbench.Logic.Rounds

/-!
# The results are the statistics of the samples

When the results of a benchmark are those of the delays of the rounds after the
warm-up. The warm-up ends only if it has at least one round; the sentinels count
as samples; `LONG_MIN` and a negative size index outside of the histograms, which
must fit into their block; and what is counted must fit its type.
-/

namespace RtaiDemos.Timerbench

open RtaiDemos.Fold

variable {w : Nat} {config : Config} {rounds : List (List Int)} {ctx : Context}

/-- The rounds after the warm-up. -/
def counted (config : Config) (rounds : List (List Int)) : List (List Int) :=
  rounds.drop config.warmup_loops.toNat

/-- The lowest delay of a round. -/
def lowest (l : List Int) : Int := l.min?.getD 0

/-- The highest delay of a round. -/
def highest (l : List Int) : Int := l.max?.getD 0

/-- The truncated mean of a round. -/
def truncatedMean (l : List Int) : Int := l.sum.tdiv l.length

/-- The results are those of the counted rounds. -/
structure Statistics (config : Config) (rs : List (List Int)) (ctx : Context) : Prop where
  min : rs.flatten.min? = some ctx.overall.min
  max : rs.flatten.max? = some ctx.overall.max
  overruns : ctx.overall.overruns = (rs.flatten.map (overruns config.period)).sum
  avg : ctx.overall.avg = (rs.map truncatedMean).sum.tdiv rs.length
  test_loops : ctx.overall.test_loops - 1 = rs.length
  histogram_avg : ∀ k, 0 ≤ k → k < config.histogram_size →
    ctx.histogram_avg k = tally (bucket config) rs.flatten k
  histogram_min : ∀ k, 0 ≤ k → k < config.histogram_size →
    ctx.histogram_min k = tally (fun l => bucket config (lowest l)) rs k
  histogram_max : ∀ k, 0 ≤ k → k < config.histogram_size →
    ctx.histogram_max k = tally (fun l => bucket config (highest l)) rs k

/-- The benchmark ends with the statistics of the samples. -/
def Measured (w : Nat) (ctx : Context) (config : Config) (rounds : List (List Int)) : Prop :=
  ∃ ctx', benchmark w ctx config rounds = some ctx' ∧
    Statistics config (counted config rounds) ctx'

/-- What the counted rounds `rs` have to keep to. -/
structure Within (w : Nat) (config : Config) (rs : List (List Int)) : Prop where
  warmup : 1 ≤ config.warmup_loops
  size : 0 ≤ config.histogram_size
  /-- The block holds the three histograms. -/
  block : 0 < config.histogram_size → config.Held w
  /-- Some delay is not above the one sentinel, and some not below the other. -/
  min : ∃ dt ∈ rs.flatten, dt ≤ sentinel
  max : ∃ dt ∈ rs.flatten, -sentinel ≤ dt
  /-- No delay is `LONG_MIN`. -/
  long_min : 0 < config.histogram_size → ∀ dt ∈ rs.flatten, dt ≠ -longEnd w
  /-- In every round, or it is counted where the sentinel is. -/
  lows : 0 < config.histogram_size → ∀ l ∈ rs,
    lowest l ≤ sentinel ∨ bucket config (lowest l) = bucket config sentinel
  highs : 0 < config.histogram_size → ∀ l ∈ rs,
    -sentinel ≤ highest l ∨ bucket config (highest l) = bucket config (-sentinel)
  /-- The counters fit. -/
  loops : rs.length + 1 < longEnd w
  overruns : (rs.flatten.map (overruns config.period)).sum < longEnd w
  cells : ∀ k, 0 ≤ k → k < config.histogram_size →
    tally (bucket config) rs.flatten k < longEnd w

/-- The sums of which `avg` is made fit, and so does its divisor. -/
structure AvgFits (rs : List (List Int)) : Prop where
  sums : ∀ l ∈ rs, -2 ^ 63 ≤ l.sum ∧ l.sum < 2 ^ 63
  total : -2 ^ 63 ≤ (rs.map truncatedMean).sum ∧ (rs.map truncatedMean).sum < 2 ^ 63
  loops : rs.length < 2 ^ 32

theorem low_eq {l : List Int} (hne : l ≠ []) : low l = min sentinel (lowest l) := by
  unfold low lowest
  rw [List.foldl_min]
  obtain ⟨m, hm⟩ := Option.isSome_iff_exists.mp (List.isSome_min?_iff.mpr hne)
  rw [hm]
  rfl

theorem high_eq {l : List Int} (hne : l ≠ []) : high l = max (-sentinel) (highest l) := by
  unfold high highest
  rw [List.foldl_max]
  obtain ⟨m, hm⟩ := Option.isSome_iff_exists.mp (List.isSome_max?_iff.mpr hne)
  rw [hm]
  rfl

theorem slldiv_eq (s d : Int) : slldiv s d = s.tdiv d := by
  unfold slldiv
  split
  · rename_i hs
    exact (Int.tdiv_eq_ediv_of_nonneg hs).symm
  · rename_i hs
    rw [← Int.tdiv_eq_ediv_of_nonneg (by omega), Int.neg_tdiv, Int.neg_neg]

theorem longLong_of_fits {x : Int} (hlo : -2 ^ 63 ≤ x) (hhi : x < 2 ^ 63) : longLong x = x := by
  unfold longLong
  exact Int.bmod_eq_of_le_mul_two (by omega) (by omega)

theorem overruns_nonneg (period : Nat) (dt : Int) : 0 ≤ overruns period dt := by
  unfold overruns
  split
  · exact Int.ediv_nonneg (by omega) (by omega)
  · exact Int.le_refl 0

theorem sum_overruns_nonneg (period : Nat) (l : List Int) : 0 ≤ (l.map (overruns period)).sum := by
  refine List.sum_nonneg ?_
  intro x hx
  obtain ⟨dt, -, rfl⟩ := List.mem_map.mp hx
  exact overruns_nonneg period dt

/-- What is left of a fit in the `long` it was put into. -/
theorem fits_of_long (hw : 32 ≤ w) {x y : Int} (h : long w x = y) (hy : y = x) : x < longEnd w := by
  have hlt := long_lt hw x
  omega

theorem test_loops_lt (hw : 32 ≤ w) {rs : List (List Int)} (hne : rs ≠ []) {ctx ctx' : Context}
    (h : rs.foldlM (timer_task_proc w) ctx = some ctx') : ctx'.overall.test_loops < longEnd w := by
  rcases List.eq_nil_or_concat rs with hnil | ⟨before, l, hrs⟩
  · exact absurd hnil hne
  · rw [hrs, List.concat_eq_append, List.foldlM_append] at h
    obtain ⟨ctx₁, -, hlast⟩ := Option.bind_eq_some_iff.mp h
    obtain ⟨ctx₂, hround, hpure⟩ := Option.bind_eq_some_iff.mp hlast
    cases hpure
    unfold timer_task_proc at hround
    obtain ⟨s, -, houter⟩ := Option.bind_eq_some_iff.mp hround
    unfold eval_outer_loop at houter
    obtain ⟨r, -, rfl⟩ := Option.map_eq_some_iff.mp houter
    exact long_lt hw _

/-- A sentinel above some delay does not matter. -/
theorem min?_eq_low {l : List Int} (h : ∃ dt ∈ l, dt ≤ sentinel) : l.min? = some (low l) := by
  obtain ⟨dt, hdt, hle⟩ := h
  have hne := List.ne_nil_of_mem hdt
  obtain ⟨m, hm⟩ := Option.isSome_iff_exists.mp (List.isSome_min?_iff.mpr hne)
  have hmle := (List.min?_eq_some_iff.mp hm).2 dt hdt
  rw [low_eq hne, lowest, hm, Option.getD_some, Int.min_eq_right (by omega)]

theorem max?_eq_high {l : List Int} (h : ∃ dt ∈ l, -sentinel ≤ dt) : l.max? = some (high l) := by
  obtain ⟨dt, hdt, hle⟩ := h
  have hne := List.ne_nil_of_mem hdt
  obtain ⟨m, hm⟩ := Option.isSome_iff_exists.mp (List.isSome_max?_iff.mpr hne)
  have hmle := (List.max?_eq_some_iff.mp hm).2 dt hdt
  rw [high_eq hne, highest, hm, Option.getD_some, Int.max_eq_right (by omega)]

/-- The code's mean of a complete round. -/
theorem mean_eq {l : List Int} (hl : Complete w config l)
    (hsum : -2 ^ 63 ≤ l.sum ∧ l.sum < 2 ^ 63) : mean config l = truncatedMean l := by
  have hle : (1000000000 : Int) / config.period ≤ 1000000000 := Int.ediv_le_self _ (by decide)
  unfold mean truncatedMean
  rw [slldiv_eq, longLong_of_fits hsum.1 hsum.2, hl.length, unsigned,
    Int.emod_eq_of_lt (Int.ediv_nonneg (by decide) (by omega)) (by omega)]

section

variable (hw : 32 ≤ w) (hvalid : config.Valid) (hrounds : ∀ l ∈ rounds, Complete w config l)
  (hlength : config.warmup_loops < rounds.length)

include hw hvalid hrounds hlength

/-- Without a warm-up the benchmark never gets out of it. -/
theorem warmup_of_measured (h : Measured w ctx config rounds) : 1 ≤ config.warmup_loops := by
  have hW := hvalid.warmup_loops
  by_contra hnone
  have hzero : config.warmup_loops = 0 := by omega
  obtain ⟨ctx', hrun, hstat⟩ := h
  unfold benchmark at hrun
  rw [measure_eq hw hvalid hrounds] at hrun
  obtain ⟨c, hc, rfl⟩ := Option.map_eq_some_iff.mp hrun
  have hall : counted config rounds = rounds := by
    unfold counted
    rw [hzero]
    rfl
  rw [hall] at hstat
  have hne : rounds ≠ [] := by
    rintro rfl
    simp only [List.length_nil, Nat.cast_zero] at hlength
    omega
  have hlt := test_loops_lt hw hne hc
  have hloops : c.overall.test_loops - 1 = rounds.length := hstat.test_loops
  obtain ⟨c', hc', hwarm⟩ := (Warming.start hw ctx config).rounds hw hvalid hrounds (by
    intro j hpos hj
    rw [long_of_fits hw (by omega) (by omega)]
    omega)
  rw [hc] at hc'
  cases hc'
  have hmin : rounds.flatten.min? = some sentinel := by
    rw [hstat.min]
    show some c.overall.min = _
    rw [hwarm.overall]
  have hmax : rounds.flatten.max? = some (-sentinel) := by
    rw [hstat.max]
    show some c.overall.max = _
    rw [hwarm.overall]
  have hle := (List.max?_eq_some_iff.mp hmax).2 sentinel (List.min?_eq_some_iff.mp hmin).1
  unfold sentinel at hle
  omega

/-- After a warm-up the benchmark counts, and breaks off at the first round that
is not good. -/
theorem benchmark_counts (ctx : Context) (hsome : 1 ≤ config.warmup_loops) :
    ((∀ l ∈ counted config rounds, Good w config l) →
      ∃ c, benchmark w ctx config rounds = some (stopContext c) ∧
        Counting w config (counted config rounds) c) ∧
    ((∃ l ∈ counted config rounds, ¬ Good w config l) →
      benchmark w ctx config rounds = none) := by
  have htake : ((rounds.take config.warmup_loops.toNat).length : Int) = config.warmup_loops := by
    rw [List.length_take]
    omega
  obtain ⟨c, hc, hcount⟩ := (Warming.start hw ctx config).ended hw hvalid hsome
    (fun l hl => hrounds l (List.mem_of_mem_take hl)) htake
  have hrun : benchmark w ctx config rounds =
      ((counted config rounds).foldlM (timer_task_proc w) c).map stopContext := by
    unfold benchmark counted
    rw [measure_eq hw hvalid hrounds]
    conv_lhs => rw [← List.take_append_drop config.warmup_loops.toNat rounds]
    rw [List.foldlM_append, hc]
    rfl
  have hcomplete : ∀ l ∈ counted config rounds, Complete w config l :=
    fun l hl => hrounds l (List.mem_of_mem_drop hl)
  refine ⟨?_, ?_⟩
  · intro hgood
    obtain ⟨c', hc', hcount'⟩ := hcount.rounds hw hvalid hcomplete hgood
    refine ⟨c', ?_, hcount'⟩
    rw [hrun, hc']
    rfl
  · intro hbad
    rw [hrun, hcount.faults hw hvalid hcomplete hbad]
    rfl

omit hrounds hlength in
/-- A sentinel that stands for the lowest delay of a round is seen in its cell. -/
theorem lows_of_counts {rs : List (List Int)} (hrs : ∀ l ∈ rs, Complete w config l)
    (hcount : Counting w config rs ctx) (hstat : Statistics config rs (stopContext ctx))
    (hloops : rs.length + 1 < longEnd w) (hsize : 0 < config.histogram_size) :
    ∀ l ∈ rs, lowest l ≤ sentinel ∨ bucket config (lowest l) = bucket config sentinel := by
  obtain ⟨hlo, hhi⟩ := bucket_mem hsize hvalid sentinel
  have hcell : ctx.histogram_min (bucket config sentinel) =
      tally (fun l => bucket config (lowest l)) rs (bucket config sentinel) :=
    hstat.histogram_min _ hlo hhi
  have hle := tally_le_length (fun l => bucket config (low l)) rs (bucket config sentinel)
  rw [hcount.histogram_min _ hlo hhi, long_of_fits hw (by omega) (by omega)] at hcell
  have hsame := tally_eq (fun l hl hlow => by
    rw [low_eq ((hrs l hl).ne_nil hvalid)]
    rcases Int.le_total sentinel (lowest l) with hge | hle
    · rw [Int.min_eq_left hge]
    · rw [Int.min_eq_right hle]
      exact hlow) (Int.ofNat_inj.mp hcell).symm
  intro l hl
  rcases Int.le_total (lowest l) sentinel with hle | hge
  · exact .inl hle
  · refine .inr (hsame l hl ?_)
    rw [low_eq ((hrs l hl).ne_nil hvalid), Int.min_eq_left hge]

omit hrounds hlength in
theorem highs_of_counts {rs : List (List Int)} (hrs : ∀ l ∈ rs, Complete w config l)
    (hcount : Counting w config rs ctx) (hstat : Statistics config rs (stopContext ctx))
    (hloops : rs.length + 1 < longEnd w) (hsize : 0 < config.histogram_size) :
    ∀ l ∈ rs, -sentinel ≤ highest l ∨ bucket config (highest l) = bucket config (-sentinel) := by
  obtain ⟨hlo, hhi⟩ := bucket_mem hsize hvalid (-sentinel)
  have hcell : ctx.histogram_max (bucket config (-sentinel)) =
      tally (fun l => bucket config (highest l)) rs (bucket config (-sentinel)) :=
    hstat.histogram_max _ hlo hhi
  have hle := tally_le_length (fun l => bucket config (high l)) rs (bucket config (-sentinel))
  rw [hcount.histogram_max _ hlo hhi, long_of_fits hw (by omega) (by omega)] at hcell
  have hsame := tally_eq (fun l hl hhigh => by
    rw [high_eq ((hrs l hl).ne_nil hvalid)]
    rcases Int.le_total (-sentinel) (highest l) with hge | hle
    · rw [Int.max_eq_right hge]
      exact hhigh
    · rw [Int.max_eq_left hle]) (Int.ofNat_inj.mp hcell).symm
  intro l hl
  rcases Int.le_total (-sentinel) (highest l) with hge | hle
  · exact .inl hge
  · refine .inr (hsame l hl ?_)
    rw [high_eq ((hrs l hl).ne_nil hvalid), Int.max_eq_left hle]

omit hrounds hlength in
/-- What the statistics require of the counted rounds. -/
theorem within_of_counts {rs : List (List Int)} (hrs : ∀ l ∈ rs, Complete w config l)
    (hgood : ∀ l ∈ rs, Good w config l) (hsome : 1 ≤ config.warmup_loops)
    (hcount : Counting w config rs ctx) (hstat : Statistics config rs (stopContext ctx)) :
    Within w config rs := by
  have hdelays : ∀ dt ∈ rs.flatten, ¬ Faulty w config false dt := by
    intro dt hdt
    obtain ⟨l, hl, hdtl⟩ := List.mem_flatten.mp hdt
    exact hgood l hl dt hdtl
  have hmin : rs.flatten.min? = some ctx.overall.min := hstat.min
  have hmax : rs.flatten.max? = some ctx.overall.max := hstat.max
  rw [hcount.min] at hmin
  rw [hcount.max] at hmax
  have hmem := (List.min?_eq_some_iff.mp hmin).1
  have hloops : rs.length + 1 < longEnd w := by
    have htest : ctx.overall.test_loops - 1 = rs.length := hstat.test_loops
    rw [hcount.test_loops] at htest
    exact fits_of_long hw rfl (by omega)
  refine ⟨hsome, ?_, ?_, ⟨_, hmem, ?_⟩, ⟨_, (List.max?_eq_some_iff.mp hmax).1, high_ge _⟩, ?_,
    lows_of_counts hw hvalid hrs hcount hstat hloops,
    highs_of_counts hw hvalid hrs hcount hstat hloops, hloops, ?_, ?_⟩
  · by_contra hneg
    have hpos := (good_iff.mp (hdelays _ hmem) (by omega)).1
    omega
  · intro hsize
    exact (good_iff.mp (hdelays _ hmem) (by omega)).2.1
  · unfold low
    rw [List.foldl_min]
    omega
  · intro hsize dt hdt heq
    exact hdelays dt hdt ⟨rfl, .inr ⟨hsize, heq⟩⟩
  · exact fits_of_long hw hcount.overruns.symm hstat.overruns
  · intro k hlo hhi
    exact fits_of_long hw (hcount.histogram_avg k hlo hhi).symm (hstat.histogram_avg k hlo hhi)

omit hrounds hlength in
/-- What the counted rounds have to keep to is enough. -/
theorem statistics_of_counts {rs : List (List Int)} (hrs : ∀ l ∈ rs, Complete w config l)
    (hne : rs ≠ []) (hin : Within w config rs) (hfits : AvgFits rs)
    (hcount : Counting w config rs ctx) : Statistics config rs (stopContext ctx) := by
  have hend := int_lt_longEnd hw
  have hpos : 0 < rs.length := List.length_pos_of_ne_nil hne
  have hloops := hin.loops
  have htest : ctx.overall.test_loops = rs.length + 1 := by
    rw [hcount.test_loops, long_of_fits hw (by omega) (by omega)]
  refine ⟨?_, ?_, ?_, ?_, ?_, ?_, ?_, ?_⟩
  · show _ = some ctx.overall.min
    rw [hcount.min]
    exact min?_eq_low hin.min
  · show _ = some ctx.overall.max
    rw [hcount.max]
    exact max?_eq_high hin.max
  · show ctx.overall.overruns = _
    have hnonneg := sum_overruns_nonneg config.period rs.flatten
    rw [hcount.overruns, long_of_fits hw (by omega) hin.overruns]
  · have hmeans : rs.map (mean config) = rs.map truncatedMean :=
      List.map_congr_left fun l hl => mean_eq (hrs l hl) (hfits.sums l hl)
    have hlt := hfits.loops
    show slldiv ctx.overall.avg (unsigned _) = _
    rw [slldiv_eq, hcount.avg, hmeans, longLong_of_fits hfits.total.1 hfits.total.2, htest,
      if_pos (by omega), Int.add_sub_cancel, unsigned, Int.emod_eq_of_lt (by omega) (by omega)]
  · show ctx.overall.test_loops - 1 = _
    rw [htest, Int.add_sub_cancel]
  · intro k hlo hhi
    have hcell := hin.cells k hlo hhi
    show ctx.histogram_avg k = _
    rw [hcount.histogram_avg k hlo hhi, long_of_fits hw (by omega) hcell]
  · intro k hlo hhi
    have hle := tally_le_length (fun l => bucket config (low l)) rs k
    show ctx.histogram_min k = _
    rw [hcount.histogram_min k hlo hhi, long_of_fits hw (by omega) (by omega)]
    refine congrArg Nat.cast (tally_congr fun l hl => ?_)
    rw [low_eq ((hrs l hl).ne_nil hvalid)]
    rcases hin.lows (by omega) l hl with hlow | hsame
    · rw [Int.min_eq_right hlow]
    · rcases Int.le_total sentinel (lowest l) with hge | hlow
      · rw [Int.min_eq_left hge, hsame]
      · rw [Int.min_eq_right hlow]
  · intro k hlo hhi
    have hle := tally_le_length (fun l => bucket config (high l)) rs k
    show ctx.histogram_max k = _
    rw [hcount.histogram_max k hlo hhi, long_of_fits hw (by omega) (by omega)]
    refine congrArg Nat.cast (tally_congr fun l hl => ?_)
    rw [high_eq ((hrs l hl).ne_nil hvalid)]
    rcases hin.highs (by omega) l hl with hhigh | hsame
    · rw [Int.max_eq_right hhigh]
    · rcases Int.le_total (-sentinel) (highest l) with hhigh | hle
      · rw [Int.max_eq_right hhigh]
      · rw [Int.max_eq_left hle, hsame]

end

/-- For complete rounds of delays, at least one of them after the warm-up. -/
theorem benchmark_statistics (hw : 32 ≤ w) (hvalid : config.Valid)
    (hrounds : ∀ l ∈ rounds, Complete w config l) (hlength : config.warmup_loops < rounds.length)
    (ctx : Context) :
    (Measured w ctx config rounds → Within w config (counted config rounds)) ∧
      (Within w config (counted config rounds) → AvgFits (counted config rounds) →
        Measured w ctx config rounds) := by
  have hrs : ∀ l ∈ counted config rounds, Complete w config l :=
    fun l hl => hrounds l (List.mem_of_mem_drop hl)
  have hne : counted config rounds ≠ [] := by
    have hW := hvalid.warmup_loops
    intro hnil
    have hle := List.drop_eq_nil_iff.mp hnil
    omega
  refine ⟨?_, ?_⟩
  · intro hmeasured
    have hsome := warmup_of_measured hw hvalid hrounds hlength hmeasured
    obtain ⟨ctx', hrun, hstat⟩ := hmeasured
    obtain ⟨hcounts, hfault⟩ := benchmark_counts hw hvalid hrounds hlength ctx hsome
    by_cases hgood : ∀ l ∈ counted config rounds, Good w config l
    · obtain ⟨c, hc, hcount⟩ := hcounts hgood
      rw [hc] at hrun
      cases hrun
      exact within_of_counts hw hvalid hrs hgood hsome hcount hstat
    · push Not at hgood
      rw [hfault hgood] at hrun
      cases hrun
  · intro hin hfits
    obtain ⟨hcounts, -⟩ := benchmark_counts hw hvalid hrounds hlength ctx hin.warmup
    obtain ⟨c, hc, hcount⟩ := hcounts (by
      intro l hl dt hdt
      refine good_iff.mpr fun hzero => ?_
      have hsize := hin.size
      have hpos : 0 < config.histogram_size := by omega
      exact ⟨hpos, hin.block hpos, hin.long_min hpos dt (List.mem_flatten.mpr ⟨l, hl, hdt⟩)⟩)
    exact ⟨stopContext c, hc, statistics_of_counts hw hvalid hrs hne hin hfits hcount⟩

/-- One delay a round. -/
def demoConfig (warmup_loops : Int) : Config :=
  { mode := 1
    period := 1000000000
    warmup_loops := warmup_loops
    histogram_size := 2
    histogram_bucketsize := 1000 }

theorem demoConfig_valid : (demoConfig 1).Valid := ⟨by decide, by decide, by decide⟩

/-- A context that has not been used. -/
def blank : Context :=
  let res : BenchRes := { avg := 0, min := 0, max := 0, overruns := 0, test_loops := 0 }
  { period := 0
    warmup_loops := 0
    samples_per_sec := 0
    histogram_min := fun _ => 0
    histogram_max := fun _ => 0
    histogram_avg := fun _ => 0
    block := none
    histogram_size := 0
    bucketsize := 0
    warmup := false
    date := 0
    curr := res
    last := res
    overall := res }

theorem singleton_complete (loops : Int) {dt : Int} (h : IsLong 64 dt) :
    Complete 64 (demoConfig loops) [dt] := by
  refine ⟨?_, ?_⟩
  · show (1 : Int) = 1000000000 / 1000000000
    decide
  · intro x hx
    rw [List.mem_singleton.mp hx]
    exact h

/-- Two rounds after a warm-up of one. -/
theorem benchmark_statistics_two :
    Within 64 (demoConfig 1) [[7], [9]] ∧ Measured 64 blank (demoConfig 1) [[5], [7], [9]] := by
  have hin : Within 64 (demoConfig 1) [[7], [9]] := by
    refine ⟨by decide, by decide, fun _ => rfl, ⟨7, by decide, by decide⟩,
      ⟨7, by decide, by decide⟩, ?_, ?_, ?_, by decide, by decide, ?_⟩
    · intro _ dt hdt
      revert dt
      decide
    · intro _ l hl
      revert l
      decide
    · intro _ l hl
      revert l
      decide
    · intro k _ _
      have hle := tally_le_length (bucket (demoConfig 1)) ([[7], [9]] : List (List Int)).flatten k
      have hlength : ([[7], [9]] : List (List Int)).flatten.length = 2 := rfl
      unfold longEnd
      omega
  refine ⟨hin, ?_⟩
  refine (benchmark_statistics (by decide) demoConfig_valid ?_ (by decide) blank).2 hin
    ⟨by decide, by decide, by decide⟩
  intro l hl
  simp only [List.mem_cons, List.not_mem_nil, or_false] at hl
  rcases hl with rfl | rfl | rfl <;> exact singleton_complete 1 ⟨by decide, by decide⟩

theorem not_measured_of_min {m : Int}
    (hrun : (benchmark w ctx config rounds).map (·.overall.min) = some m)
    (hne : (counted config rounds).flatten.min? ≠ some m) : ¬ Measured w ctx config rounds := by
  rintro ⟨ctx', hctx', hstat⟩
  rw [hctx'] at hrun
  exact hne (hstat.min.trans hrun)

/-- Without a warm-up, and with a delay of twice the sentinel: the lowest delay
is the sentinel. And with a `long` of four bytes and a size for which the product wraps:
the block has eight bytes, and the first delay that is counted is counted outside of it. -/
theorem benchmark_sentinels :
    ¬ Measured 64 blank (demoConfig 0) [[7]] ∧
      ¬ Measured 64 blank (demoConfig 1) [[5], [20000000]] ∧
      ¬ Measured 32 blank { demoConfig 1 with histogram_size := 357913942 } [[5], [7]] := by
  refine ⟨?_, ?_, ?_⟩
  · exact not_measured_of_min (m := sentinel) (by decide) (by decide)
  · exact not_measured_of_min (m := sentinel) (by decide) (by decide)
  · rintro ⟨ctx', hrun, -⟩
    have hnone : benchmark 32 blank { demoConfig 1 with histogram_size := 357913942 }
        [[5], [7]] = none := rfl
    rw [hnone] at hrun
    cases hrun

end RtaiDemos.Timerbench
