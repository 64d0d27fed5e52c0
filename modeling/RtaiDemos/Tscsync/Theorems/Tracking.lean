import RtaiDemos.Tscsync.Theorems.Offset

/-!
# The offset that is kept

`ofst[k]` is a running mean of what the sessions on CPU `k` without `tune` have
measured. Each session brings it nearer to the offset of the counters, by the
fifth part of its distance, until only the measuring error and the truncation
are left; and no step of the computation leaves the 32 bits of a `long`.
-/

namespace RtaiDemos.Tscsync

/-! ## 32 bits -/

theorem s32_of_fits {x : Int} (h : -2147483648 ≤ x ∧ x < 2147483648) : s32 x = x := by
  unfold s32
  omega

/-- `(long)` of a difference that was taken modulo 2^64. -/
theorem s32_u64 {x : Int} (h : -2147483648 ≤ x ∧ x < 2147483648) : s32 (u64 x) = x := by
  unfold s32 u64
  omega

/-- Within its bounds the assignment computes what it says. -/
theorem smooth_eq {o y b : Int} (ho : |o| ≤ b) (hy : |y| ≤ b) (hb : 10 * b < 2147483648) :
    smooth o (u64 y) = (8 * o + 2 * y).tdiv 10 := by
  rw [abs_le] at ho hy
  have h₈ : s32 (8 * o) = 8 * o := s32_of_fits (by omega)
  have h₂ : s32 (2 * y) = 2 * y := s32_of_fits (by omega)
  unfold smooth
  rw [s32_u64 (by omega), h₈, h₂, s32_of_fits (by omega)]

/-! ## A run of assignments -/

/-- What is left of the distance after `n` assignments, and how large the value can be. -/
structure Tracks (d e : Int) (n : Nat) (o : Int) : Prop where
  small : |o| ≤ |d| + e
  near : 5 ^ n * (2 * |o - d| - (2 * e + 9)) ≤ 4 ^ n * (2 * |d|)

theorem Tracks.start {d e : Int} (he : 0 ≤ e) : Tracks d e 0 0 := by
  refine ⟨?_, ?_⟩
  · rw [abs_zero]
    have := abs_nonneg d
    omega
  · rw [zero_sub, abs_neg]
    have := abs_nonneg d
    omega

theorem Tracks.step {d e : Int} {n : Nat} {o y : Int} (h : Tracks d e n o) (hy : |y - d| ≤ e)
    (hb : 10 * (|d| + e) < 2147483648) : Tracks d e (n + 1) (smooth o (u64 y)) := by
  have hsmall : |y| ≤ |d| + e := by
    have htri := abs_sub_abs_le_abs_sub y d
    omega
  rw [smooth_eq h.small hsmall hb]
  have ho := abs_le.mp h.small
  have hy' := abs_le.mp hsmall
  refine ⟨?_, ?_⟩
  · rw [abs_le]
    exact Estimate.smooth_between ⟨ho.1, ho.2⟩ ⟨hy'.1, hy'.2⟩
  · exact Estimate.smooth_run h.near (Estimate.smooth_step hy)

theorem Tracks.fold {d e : Int} (he : 0 ≤ e) (hb : 10 * (|d| + e) < 2147483648) (l : List Int)
    (h : ∀ x ∈ l, ∃ y, x = u64 y ∧ |y - d| ≤ e) : Tracks d e l.length (l.foldl smooth 0) := by
  induction l using List.reverseRecOn with
  | nil => exact .start he
  | append_singleton l x ih =>
      obtain ⟨y, rfl, hy⟩ := h x (by simp)
      rw [List.foldl_append, List.length_append]
      exact (ih fun x hx => h x (List.mem_append_left _ hx)).step hy hb

/-- Once the first distance has worn off, what is left is the measuring error and 4. -/
theorem Tracks.worn {d e : Int} {n : Nat} {o : Int} (h : Tracks d e n o)
    (hn : 4 ^ n * (2 * |d|) < 5 ^ n) : |o - d| ≤ e + 4 := by
  have hlt : (5 : Int) ^ n * (2 * |o - d| - (2 * e + 9)) < 5 ^ n * 1 := by
    have := h.near
    omega
  have := lt_of_mul_lt_mul_left hlt (by positivity)
  omega

/-! ## The kept offset -/

/-- The sessions that have set `ofst[k]`. -/
def State.settings (σ : State) (k : Cpu) : List Measurement :=
  σ.measured.filter fun x => x.cpu == k && !x.tune

/-- In every run, let `d` be the offset of the counters of CPU `k` and of the
master, and let each session that has set `ofst[k]` have had a round of less
than `2 * e` cycles and no wrap of its counter, with `|d| + e` below a tenth of
2^31. Then `ofst[k]` is within `e + 4.5` of `d`, but for `4/5` of the first
distance for each session; its absolute value never exceeds `|d| + e`. -/
theorem ofst_tracks_offset (P : Params) (k : Cpu) (e : Int) (he : 0 ≤ e)
    (hb : 10 * (|P.counter k - P.counter MASTER_CPU| + e) < 2147483648) :
    (machine P).Invariant fun σ =>
      (∀ x ∈ σ.settings k, (∀ r ∈ x.rounds, r.Plain (x.shift P)) ∧ x.rt < 2 * e) →
        |σ.ofst k| ≤ |P.counter k - P.counter MASTER_CPU| + e ∧
        5 ^ (σ.settings k).length *
            (2 * |σ.ofst k - (P.counter k - P.counter MASTER_CPU)| - (2 * e + 9)) ≤
          4 ^ (σ.settings k).length * (2 * |P.counter k - P.counter MASTER_CPU|) ∧
        (4 ^ (σ.settings k).length * (2 * |P.counter k - P.counter MASTER_CPU|) <
            5 ^ (σ.settings k).length →
          |σ.ofst k - (P.counter k - P.counter MASTER_CPU)| ≤ e + 4) := by
  intro σ hr hgood
  have hbook := booked_invariant P σ hr
  have hfold : Tracks (P.counter k - P.counter MASTER_CPU) e (σ.settings k).length (σ.ofst k) := by
    have hlen : ((σ.settings k).map (·.diff)).length = (σ.settings k).length :=
      List.length_map _
    rw [hbook.ofst k, ← hlen]
    refine Tracks.fold he hb _ ?_
    intro y hy
    obtain ⟨x, hx, rfl⟩ := List.mem_map.mp hy
    obtain ⟨hmem, hsets⟩ := List.mem_filter.mp hx
    obtain ⟨hcpu, htune⟩ := Bool.and_eq_true_iff.mp hsets
    obtain ⟨hplain, hrt⟩ := hgood x hx
    obtain ⟨r, -, -, -, err, hdiff, hlo, hhi⟩ := (hbook.measured x hmem).bounds hplain
    have hoff : x.offset P = P.counter k - P.counter MASTER_CPU := by
      have hno : x.tune = false := by simpa using htune
      unfold Measurement.offset Measurement.shift
      rw [beq_iff_eq.mp hcpu, hno]
      simp
    refine ⟨P.counter k - P.counter MASTER_CPU + err, by rw [hdiff, hoff], ?_⟩
    rw [abs_le]
    omega
  exact ⟨hfold.small, hfold.near, hfold.worn⟩

/-- Two sessions: 900 apart, measured as 903, the kept offset is 180 and then 324. -/
theorem ofst_tracks_offset_sessions :
    ∃ σ, (machine demoParams).Reachable σ ∧ σ.ofst 1 = 324 ∧
      5 ^ 2 * (2 * |σ.ofst 1 - 900| - (2 * 9 + 9)) ≤ 4 ^ 2 * (2 * |(900 : Int)|) := by
  have hrun : (machine demoParams).leadsTo initState (sessionLabels 1 ++ sessionLabels 1) (fun σ =>
      decide ((∀ x ∈ σ.settings 1, (∀ r ∈ x.rounds, r.Plain (x.shift demoParams)) ∧ x.rt < 2 * 9) ∧
        σ.ofst 1 = 324 ∧ (σ.settings 1).length = 2)) = true := by
    decide +kernel
  obtain ⟨σ, hr, hask⟩ := TSys.Reachable.of_leadsTo rfl hrun
  obtain ⟨hgood, hofst, hlen⟩ := of_decide_eq_true hask
  obtain ⟨-, hnear, -⟩ := ofst_tracks_offset demoParams 1 9 (by decide) (by decide) σ hr hgood
  rw [hlen] at hnear
  exact ⟨σ, hr, hofst, hnear⟩

end RtaiDemos.Tscsync
