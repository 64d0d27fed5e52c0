import RtaiDemos.Preempt.Jitter

/-!
# The worst jitter

The threads in the kernel change the sign of every jitter before the comparison, so
what they keep is the greatest of the negatives: a late activation counts only for
as much as an earlier one was early. The threads in user space keep the greatest
absolute value.
-/

namespace RtaiDemos.Preempt

open CInt Fold

theorem Bounded.fits {jit : Int} (h : Bounded jit) : Fits jit := ⟨le_of_lt h.1, h.2⟩

theorem Bounded.neg_fits {jit : Int} (h : Bounded jit) : Fits (-jit) := by
  obtain ⟨hlo, hhi⟩ := h
  exact ⟨by omega, by omega⟩

theorem Bounded.abs_fits {jit : Int} (h : Bounded jit) : Fits |jit| := by
  rcases abs_choice jit with heq | heq
  · rw [heq]
    exact h.fits
  · rw [heq]
    exact h.neg_fits

/-! ### The threads in the kernel -/

namespace Kern

theorem turn_eq {nominal t : Int} {σ : Thread} (h : Bounded (t - σ.svt - nominal)) :
    turn nominal σ t = some ⟨t, raise σ.worst (-(t - σ.svt - nominal))⟩ := by
  unfold turn
  rw [toInt_of_fits h.fits]
  simp only
  split
  · rw [checked_of_fits h.neg_fits, Option.map_some]
  · rename_i hzero
    rw [not_not] at hzero
    rw [hzero, neg_zero, Option.map_some]

/-- A thread keeps the greatest of the negatives. -/
theorem foldlM_turn {nominal : Int} (ts : List Int) : ∀ σ : Thread,
    (∀ jit ∈ jitters nominal σ.svt ts, Bounded jit) →
      ∃ svt, ts.foldlM (turn nominal) σ =
        some ⟨svt, (jitters nominal σ.svt ts).foldl (fun m jit => raise m (-jit)) σ.worst⟩ := by
  induction ts with
  | nil =>
      intro σ _
      exact ⟨σ.svt, rfl⟩
  | cons t ts ih =>
      intro σ h
      obtain ⟨svt, hsvt⟩ := ih ⟨t, raise σ.worst (-(t - σ.svt - nominal))⟩
        fun jit hjit => h jit (List.mem_cons_of_mem _ hjit)
      refine ⟨svt, ?_⟩
      rw [List.foldlM_cons, turn_eq (h _ List.mem_cons_self)]
      exact hsvt

theorem jitters_take {nominal : Int} (ts : List Int) : ∀ (svt : Int) (k : Nat),
    jitters nominal svt (ts.take k) = (jitters nominal svt ts).take k := by
  induction ts with
  | nil =>
      intro svt k
      rw [List.take_nil]
      exact List.take_nil.symm
  | cons t ts ih =>
      intro svt k
      cases k with
      | zero => rfl
      | succ k => exact congrArg _ (ih t k)

/-- A thread with these jitters reports the worst of them after every turn. -/
def ReportsWorst (run : List Int → Option Thread) (jits ts : List Int) : Prop :=
  ∀ k, ∃ σ, run (ts.take k) = some σ ∧ Worst (jits.take k) σ.worst

end Kern

/-! ### Signs -/

/-- If the negatives give the worst jitter, what is late comes after what was early by as
much. -/
theorem earlyFirst_of_worst {jits : List Int}
    (h : ∀ k, Worst (jits.take k) ((jits.take k).foldl (fun m jit => raise m (-jit)) 0)) :
    EarlyFirst jits := by
  intro k jit hjit hpos
  have htake : jits.take (k + 1) = jits.take k ++ [jit] := by
    rw [List.take_add_one, hjit]
    rfl
  have hmem : jit ∈ jits.take (k + 1) := by
    rw [htake]
    exact List.mem_append_right _ (List.mem_singleton.mpr rfl)
  have hle : jit ≤ (jits.take (k + 1)).foldl (fun m jit => raise m (-jit)) 0 :=
    (le_abs_self jit).trans ((h (k + 1)).2 (.inr ⟨jit, hmem, rfl⟩))
  rcases (isGreatest_foldl_raise (fun jit : Int => -jit) (jits.take (k + 1)) 0).1 with
    hzero | ⟨early, hearly, heq⟩
  · omega
  · refine ⟨early, ?_, by omega⟩
    rw [htake] at hearly
    rcases List.mem_append.mp hearly with hin | hlast
    · exact hin
    · have := List.mem_singleton.mp hlast
      omega

/-- A jitter is off by no more than the greatest of the negatives. -/
theorem EarlyFirst.abs_le {jits : List Int} (h : EarlyFirst jits) {k : Nat} {jit : Int}
    (hjit : jit ∈ jits.take k) : |jit| ≤ (jits.take k).foldl (fun m jit => raise m (-jit)) 0 := by
  have hle := (isGreatest_foldl_raise (fun jit : Int => -jit) (jits.take k) 0).2
  rcases le_or_gt jit 0 with hneg | hpos
  · rw [abs_of_nonpos hneg]
    exact hle (.inr ⟨jit, hjit, rfl⟩)
  · rw [abs_of_pos hpos]
    obtain ⟨i, hi⟩ := List.mem_iff_getElem?.mp hjit
    have hik : i < k := by
      have hlt := (List.getElem?_eq_some_iff.mp hi).1
      rw [List.length_take] at hlt
      omega
    rw [List.getElem?_take_of_lt hik] at hi
    obtain ⟨early, hearly, hlate⟩ := h i jit hi hpos
    have hin : early ∈ jits.take k := by
      rw [← Nat.min_eq_left hik.le, ← List.take_take] at hearly
      exact List.mem_of_mem_take hearly
    have := hle (.inr ⟨early, hin, rfl⟩)
    omega

/-- The negatives of the jitters have the greatest absolute value after every turn if
and only if every late activation comes after an early one that makes up for it. -/
theorem worst_neg_iff (jits : List Int) :
    (∀ k, Worst (jits.take k) ((jits.take k).foldl (fun m jit => raise m (-jit)) 0)) ↔
      EarlyFirst jits := by
  refine ⟨earlyFirst_of_worst, fun h k => ?_⟩
  obtain ⟨hmem, hle⟩ := isGreatest_foldl_raise (fun jit : Int => -jit) (jits.take k) 0
  refine ⟨?_, ?_⟩
  · rcases hmem with hzero | ⟨jit, hjit, heq⟩
    · exact .inl hzero
    · refine .inr ⟨jit, hjit, le_antisymm ?_ (h.abs_le hjit)⟩
      rw [heq]
      exact neg_le_abs jit
  · rintro x (rfl | ⟨jit, hjit, rfl⟩)
    · exact hle (.inl rfl)
    · exact h.abs_le hjit

/-- What a thread in the kernel reports. -/
theorem Kern.thread_iff {nominal start : Int} {ts : List Int}
    (h : ∀ jit ∈ threadJitters nominal start ts, Bounded jit) :
    ReportsWorst (thread nominal start) (threadJitters nominal start ts) ts ↔
      EarlyFirst (threadJitters nominal start ts) := by
  rw [← worst_neg_iff]
  refine forall_congr' fun k => ?_
  have hk : ∀ jit ∈ jitters nominal (start - nominal) (ts.take k), Bounded jit := by
    rw [jitters_take]
    exact fun jit hjit => h jit (List.mem_of_mem_take hjit)
  obtain ⟨svt, hthread⟩ := foldlM_turn (ts.take k) ⟨start - nominal, 0⟩ hk
  rw [jitters_take] at hthread
  unfold thread threadJitters
  rw [hthread]
  constructor
  · rintro ⟨σ, hσ, hworst⟩
    cases hσ
    exact hworst
  · intro hworst
    exact ⟨_, rfl, hworst⟩

/-! ### The threads in user space -/

namespace User

variable {count2nano : Int → Int}

theorem turn_eq {period t : Int} {σ : Thread} (h : Bounded (count2nano (t - σ.expected))) :
    turn count2nano period σ t =
      some ⟨σ.expected + period, raise σ.worst |count2nano (t - σ.expected)|⟩ := by
  unfold turn
  rw [toInt_of_fits h.fits, checked_of_fits h.abs_fits, Option.map_some]

/-- A thread keeps the greatest absolute value. -/
theorem foldlM_turn {period : Int} (ts : List Int) : ∀ σ : Thread,
    (∀ jit ∈ jitters count2nano period σ.expected ts, Bounded jit) →
      ∃ expected, ts.foldlM (turn count2nano period) σ =
        some ⟨expected,
          (jitters count2nano period σ.expected ts).foldl (fun m jit => raise m |jit|) σ.worst⟩ := by
  induction ts with
  | nil =>
      intro σ _
      exact ⟨σ.expected, rfl⟩
  | cons t ts ih =>
      intro σ h
      obtain ⟨expected, hexpected⟩ :=
        ih ⟨σ.expected + period, raise σ.worst |count2nano (t - σ.expected)|⟩
          fun jit hjit => h jit (List.mem_cons_of_mem _ hjit)
      refine ⟨expected, ?_⟩
      rw [List.foldlM_cons, turn_eq (h _ List.mem_cons_self)]
      exact hexpected

theorem thread_worst {nano2count : Int → Int} {mul ticks tick start : Int} {ts : List Int}
    (h : ∀ jit ∈ threadJitters nano2count count2nano mul ticks tick start ts, Bounded jit) :
    ∃ σ, thread nano2count count2nano mul ticks tick start ts = some σ ∧
      Worst (threadJitters nano2count count2nano mul ticks tick start ts) σ.worst := by
  obtain ⟨expected, hthread⟩ := foldlM_turn ts ⟨start + ticks * nano2count tick, 0⟩ h
  exact ⟨_, hthread, isGreatest_foldl_raise _ _ _⟩

end User

/-! ### The report -/

/-- With jitters in bounds, the slow and the fast thread in the kernel report the worst
jitter after every turn if and only if every late activation comes after an early one
that is off by as much. Those in user space always report it. -/
theorem worst_jitter_iff (uclinux : Bool) (start : Int) (ts : List Int) :
    ((∀ jit ∈ Kern.slowJitters uclinux start ts, Bounded jit) →
      (Kern.ReportsWorst (Kern.Slow_Thread uclinux start) (Kern.slowJitters uclinux start ts) ts ↔
        EarlyFirst (Kern.slowJitters uclinux start ts))) ∧
    ((∀ jit ∈ Kern.fastJitters uclinux start ts, Bounded jit) →
      (Kern.ReportsWorst (Kern.Fast_Thread uclinux start) (Kern.fastJitters uclinux start ts) ts ↔
        EarlyFirst (Kern.fastJitters uclinux start ts))) ∧
    (∀ nano2count count2nano : Int → Int,
      (∀ jit ∈ User.slowJitters nano2count count2nano uclinux start ts, Bounded jit) →
        ∃ σ, User.slow_fun nano2count count2nano uclinux start ts = some σ ∧
          Worst (User.slowJitters nano2count count2nano uclinux start ts) σ.worst) ∧
    ∀ nano2count count2nano : Int → Int,
      (∀ jit ∈ User.fastJitters nano2count count2nano uclinux start ts, Bounded jit) →
        ∃ σ, User.fast_fun nano2count count2nano uclinux start ts = some σ ∧
          Worst (User.fastJitters nano2count count2nano uclinux start ts) σ.worst :=
  ⟨Kern.thread_iff, Kern.thread_iff, fun _ _ => User.thread_worst, fun _ _ => User.thread_worst⟩

/-- An early activation of the slow thread, and a late one. -/
theorem worst_jitter_iff_two :
    (∀ jit ∈ Kern.slowJitters false 0 [0, 2395000, 4799000], Bounded jit) ∧
      (Kern.ReportsWorst (Kern.Slow_Thread false 0)
          (Kern.slowJitters false 0 [0, 2395000, 4799000]) [0, 2395000, 4799000] ↔
        EarlyFirst (Kern.slowJitters false 0 [0, 2395000, 4799000])) :=
  ⟨by decide, (worst_jitter_iff false 0 [0, 2395000, 4799000]).1 (by decide)⟩

/-- A slow thread that is late by 1000 ns reports 0. -/
theorem late_not_reported :
    ¬ ∀ (uclinux : Bool) (start : Int) (ts : List Int),
      (∀ jit ∈ Kern.slowJitters uclinux start ts, Bounded jit) →
        Kern.ReportsWorst (Kern.Slow_Thread uclinux start) (Kern.slowJitters uclinux start ts) ts := by
  intro h
  have hfirst := (Kern.thread_iff (by decide)).mp (h false 0 [0, 2401000] (by decide))
  obtain ⟨early, hearly, hle⟩ := hfirst 1 1000 rfl (by decide)
  have hzero : early = 0 := List.mem_singleton.mp hearly
  omega

end RtaiDemos.Preempt
