import Mathlib.Data.Fintype.BigOperators
import Mathlib.Data.Fintype.Option
import RtaiDemos.Core.Relay
import RtaiDemos.Namedstuff.Logic.Places

/-!
# The phases of the test

The counts of the semaphores and the mailboxes in terms of where the tasks stand,
and what follows for the order of the phases: the ring is over before the start
task has waited for all tasks, and so on (`Phases`).
-/

namespace RtaiDemos.Namedstuff

open Threads

variable {n : Nat} [NeZero n] {strs : Nat → String}

/-- Where the start task stands. -/
def start (σ : Config (threads n strs)) : StartPc n := σ.pc none

/-- Where a task stands. -/
def task (σ : Config (threads n strs)) (i : Fin n) : TaskPc := σ.pc (some i)

/-- The semaphores and mailboxes, read off the places of the tasks. -/
structure Counts (σ : Config (threads n strs)) : Prop where
  ring : ∀ j, σ.count (.sems j) + (task σ j).waits + σ.extra (.sems j) =
    (task σ (j - 1)).posts + if j = 0 then (start σ).begun else 0
  sync : σ.count .sync_sem + (start σ).syncs1 + (start σ).syncs2 + ∑ i, (task σ i).hadSync +
    σ.extra .sync_sem = (start σ).gave + ∑ i, (task σ i).gave
  prio : σ.count .prio_sem + ∑ i, (task σ i).hadPrio + σ.extra .prio_sem = (start σ).prios
  print : σ.count .print_sem + (start σ).inside + ∑ i, (task σ i).inside +
    σ.extra .print_sem = 1
  mbx_in : (σ.box .mbx_in).length + ∑ i, (task σ i).heard + σ.late .mbx_in = (start σ).sent
  mbx_out : (σ.box .mbx_out).length + (start σ).heard + σ.late .mbx_out = ∑ i, (task σ i).sent

theorem counts {σ : Config (threads n strs)} (h : (tally n strs).Balanced σ) : Counts σ := by
  have htokens : ∀ s, (σ.count s : Int) + ((start σ).held s + ∑ i, (task σ i).held i s) +
      σ.extra s = (threads n strs).tokens s := by
    intro s
    have hs := h.tokens s
    rw [Fintype.sum_option] at hs
    exact hs
  refine ⟨?_, ?_, ?_, ?_, ?_, ?_⟩
  · intro j
    have hj := htokens (.sems j)
    have hsum : ∑ i, (task σ i).held i (.sems j) =
        ((task σ j).waits : Int) - (task σ (j - 1)).posts := by
      have hpred : ∀ i : Fin n, j = i + 1 ↔ j - 1 = i := fun i => sub_eq_iff_eq_add.symm
      simp only [TaskPc.held, Finset.sum_sub_distrib, hpred, Finset.sum_ite_eq, Finset.mem_univ,
        if_true]
    rw [hsum] at hj
    simp only [StartPc.held, threads] at hj
    split_ifs at hj ⊢ <;> omega
  · have hs := htokens .sync_sem
    simp only [StartPc.held, TaskPc.held, Finset.sum_sub_distrib, threads, ← Nat.cast_sum] at hs
    omega
  · have hs := htokens .prio_sem
    simp only [StartPc.held, TaskPc.held, threads, ← Nat.cast_sum] at hs
    omega
  · have hs := htokens .print_sem
    simp only [StartPc.held, TaskPc.held, threads, ← Nat.cast_sum] at hs
    omega
  · have hm := h.box_length .mbx_in
    rw [Fintype.sum_option, Fintype.sum_option] at hm
    have hout : ∑ i, ((tally n strs).said (some i) (σ.pc (some i)) .mbx_in).length = 0 :=
      Finset.sum_eq_zero fun i _ => rfl
    have hin : ((tally n strs).said none (σ.pc none) .mbx_in).length = (start σ).sent := by
      show ((List.range (start σ).sent).map strs).length = _
      rw [List.length_map, List.length_range]
    have hgot : ∑ i, (tally n strs).heard (some i) (σ.pc (some i)) .mbx_in =
        ∑ i, (task σ i).heard := rfl
    have hnone : (tally n strs).heard none (σ.pc none) .mbx_in = 0 := rfl
    omega
  · have hm := h.box_length .mbx_out
    rw [Fintype.sum_option, Fintype.sum_option] at hm
    have hout : ((tally n strs).said none (σ.pc none) .mbx_out).length = 0 := rfl
    have hin : ∑ i, ((tally n strs).said (some i) (σ.pc (some i)) .mbx_out).length =
        ∑ i, (task σ i).sent := by
      refine Finset.sum_congr rfl fun i _ => ?_
      show (if (task σ i).sent = 1 then [strs i] else []).length = _
      have hle := (task σ i).order
      split
      · rename_i hsent
        rw [hsent]
        rfl
      · rw [List.length_nil]
        omega
    have hgot : ∑ i, (tally n strs).heard (some i) (σ.pc (some i)) .mbx_out = 0 :=
      Finset.sum_eq_zero fun i _ => rfl
    have hnone : (tally n strs).heard none (σ.pc none) .mbx_out = (start σ).heard := rfl
    omega

/-! ## Bounded sums over the tasks -/

omit [NeZero n] in
theorem sum_le {f : Fin n → Nat} {c : Nat} (hle : ∀ i, f i ≤ c) : ∑ i, f i ≤ n * c := by
  have hconst : ∑ _i : Fin n, c = n * c := by
    rw [Finset.sum_const_nat fun _ _ => rfl, Finset.card_univ, Fintype.card_fin]
  rw [← hconst]
  exact Finset.sum_le_sum fun i _ => hle i

omit [NeZero n] in
/-- A sum of `n` numbers that are at most `c` is `n * c` only if all are `c`. -/
theorem all_of_sum {f : Fin n → Nat} {c : Nat} (hle : ∀ i, f i ≤ c) (h : n * c ≤ ∑ i, f i)
    (i : Fin n) : f i = c := by
  by_contra hne
  have hconst : ∑ _i : Fin n, c = n * c := by
    rw [Finset.sum_const_nat fun _ _ => rfl, Finset.card_univ, Fintype.card_fin]
  have hlt : ∑ i, f i < ∑ _i : Fin n, c :=
    Finset.sum_lt_sum (fun i _ => hle i) ⟨i, Finset.mem_univ i, Nat.lt_of_le_of_ne (hle i) hne⟩
  omega

omit [NeZero n] in
theorem le_sum (f : Fin n → Nat) (i : Fin n) : f i ≤ ∑ i, f i :=
  Finset.single_le_sum (fun _ _ => Nat.zero_le _) (Finset.mem_univ i)

/-! ## The phases -/

/-- What holds besides the counts: nobody moves before the first task is signalled, the
start task is not ahead of the tasks, timed calls get tokens of `prio_sem` only and no
messages. -/
structure Phases (σ : Config (threads n strs)) : Prop where
  idle : (start σ).begun = 0 → ∀ i, task σ i = .ringWait 0
  line : ∀ i r p, task σ i = .ringLine r p → i.val = n - 1
  synced1 : 0 < (start σ).prios → ∀ i, 1 ≤ (task σ i).gave
  synced2 : 0 < (start σ).sent → ∀ i, (task σ i).gave = 2
  extra : ∀ s, s ≠ .prio_sem → σ.extra s = 0
  late : ∀ m, σ.late m = 0

section

variable {σ : Config (threads n strs)}

/-- Once the start task has waited for all tasks, they are past the ring. -/
theorem Phases.after_ring (h : Phases σ) (hc : Counts σ) (hs : (start σ).syncs1 = n) (i : Fin n) :
    1 ≤ (task σ i).gave := by
  by_cases hprios : 0 < (start σ).prios
  · exact h.synced1 hprios i
  · -- nobody has got `prio_sem`, so every token of `sync_sem` is the first of a task
    have hstart := (start σ).order
    have hprio := hc.prio
    have hsync := hc.sync
    have hzero : ∀ j, (task σ j).hadPrio = 0 := by
      intro j
      have := le_sum (fun j => (task σ j).hadPrio) j
      omega
    have hle : ∀ j, (task σ j).gave ≤ 1 := by
      intro j
      have := (task σ j).order
      have := hzero j
      omega
    have hall := all_of_sum hle (by omega) i
    omega

/-- Once it has waited for all tasks again, they are past the priority test. -/
theorem Phases.after_prio (h : Phases σ) (hc : Counts σ) (hs : (start σ).syncs2 = n) (i : Fin n) :
    (task σ i).gave = 2 := by
  by_cases hsent : 0 < (start σ).sent
  · exact h.synced2 hsent i
  · have hstart := (start σ).order
    have hsync := hc.sync
    have hn := Nat.pos_of_ne_zero (NeZero.ne n)
    have hs1 : (start σ).syncs1 = n := by omega
    have hle : ∀ j, (task σ j).gave ≤ 2 := fun j => by
      have := (task σ j).order
      omega
    exact all_of_sum hle (by omega) i

/-- When a task makes its timed receive, nothing is left to receive. -/
theorem Phases.mbx_in_empty (h : Phases σ) (hc : Counts σ) {i : Fin n}
    (hi : task σ i = .receiveTimed) : σ.box .mbx_in = [] := by
  have hstart := (start σ).order
  have hown := le_sum (fun j => (task σ j).hadSync) i
  have hheard := le_sum (fun j => (task σ j).heard) i
  have hhere : (task σ i).hadSync = 1 ∧ (task σ i).heard = 1 := by
    rw [hi]
    exact ⟨rfl, rfl⟩
  have hin := hc.mbx_in
  have hout := hc.mbx_out
  have hsync := hc.sync
  have hextra := h.extra .sync_sem nofun
  have hlate := h.late .mbx_in
  have hlate' := h.late .mbx_out
  have hn := Nat.pos_of_ne_zero (NeZero.ne n)
  have hs2 : (start σ).syncs2 = n := by omega
  have hs1 : (start σ).syncs1 = n := by omega
  have hgave := sum_le (f := fun j => (task σ j).gave) (c := 2) fun j => by
    have := (task σ j).order
    omega
  -- the token came from the start task, which has received all strings by then
  have hdone : (start σ).heard = n := by omega
  have hsent : ∀ j, (task σ j).sent = 1 := by
    refine all_of_sum (fun j => ?_) (by omega)
    have := (task σ j).order
    omega
  have hall : ∑ j, (task σ j).heard = n := by
    have hone : ∀ j ∈ Finset.univ, (task σ j).heard = 1 := by
      intro j _
      have := (task σ j).order
      have := hsent j
      omega
    rw [Finset.sum_const_nat hone, Finset.card_univ, Fintype.card_fin, Nat.mul_one]
  have hzero : (σ.box .mbx_in).length = 0 := by omega
  exact List.length_eq_zero_iff.mp hzero

/-! ## A step -/

omit [NeZero n] in
theorem TaskPc.gave_next (i : Fin n) (p : TaskPc) (served : Bool) :
    p.gave ≤ (p.next i served).gave := by
  cases p with
  | ringPass r =>
      simp only [next]
      split <;> simp
  | ringName r q => by_cases hlast : i.val = n - 1 <;> cases q <;> simp [hlast, next]
  | receiveTimed => cases served <;> simp [next]
  | ringLine r q | name q | semTimeout q | received q | mbxTimeout q | complete q =>
      cases q <;> simp [next]
  | _ => simp [next]

omit [NeZero n] in
/-- Only the last task ends the lines. -/
theorem TaskPc.next_line {i : Fin n} {p : TaskPc} {served : Bool} {r : Fin 5} {q : PrintPc}
    (h : p.next i served = .ringLine r q) : i.val = n - 1 ∨ ∃ q', p = .ringLine r q' := by
  cases p with
  | ringPass r =>
      simp only [next] at h
      split at h <;> cases h
  | ringName r' q' =>
      by_cases hlast : i.val = n - 1
      · exact .inl hlast
      · cases q' <;> simp [next, hlast] at h
  | ringLine r' q' =>
      refine .inr ⟨q', ?_⟩
      cases q' <;> simp [next] at h
      · rw [h.1]
      · rw [h.1]
  | receiveTimed => cases served <;> simp [next] at h
  | name q | semTimeout q | received q | mbxTimeout q | complete q =>
      cases q <;> simp [next] at h
  | _ => simp [next] at h

theorem StartPc.next_order (p : StartPc n) : p.begun ≤ p.next.begun ∧
    (0 < p.next.prios → p.syncs1 = n) ∧ (0 < p.next.sent → p.syncs2 = n) := by
  cases p with
  | sync1 i | prio i | sync2 i | send i | sync3 i =>
      simp only [next]
      obtain ⟨hlt, heq⟩ | ⟨hlast, heq⟩ := loop_cases i _ _
      · rw [heq]
        simp
      · rw [heq]
        simp
  | received i q =>
      cases q with
      | give =>
          simp only [next, PrintPc.andThen]
          obtain ⟨hlt, heq⟩ | ⟨hlast, heq⟩ := loop_cases i .receive (.line2 .take)
          · rw [heq]
            simp
          · rw [heq]
            simp
      | _ => simp [next]
  | syncLine1 q | line1 q | syncLine2 q | testing q | line2 q | complete q =>
      cases q <;> simp [next]
  | _ => simp [next]

/-- Who moves, and where to. -/
theorem moved_cases {σ' : Config (threads n strs)} {l : Thread n × Bool}
    (h : σ.next l = some σ') :
    (l.1 = none ∧ start σ' = (start σ).next ∧ ∀ i, task σ' i = task σ i) ∨
      ∃ i served, l.1 = some i ∧ start σ' = start σ ∧
        task σ' i = (task σ i).next i served ∧ ∀ j, j ≠ i → task σ' j = task σ j := by
  obtain ⟨k, e⟩ := l
  obtain ⟨st, -, ⟨served, hpc⟩, -⟩ := next_moved h
  unfold start task
  rw [hpc]
  cases k with
  | none =>
      refine .inl ⟨rfl, Function.update_self _ _ _, fun i => ?_⟩
      exact Function.update_of_ne (Option.some_ne_none i) _ _
  | some i =>
      refine .inr ⟨i, served, rfl, ?_, Function.update_self _ _ _, ?_⟩
      · exact Function.update_of_ne (Option.some_ne_none i).symm _ _
      · intro j hj
        exact Function.update_of_ne (fun heq => hj (Option.some.inj heq)) _ _

/-- A task that waits for a token of the ring. -/
theorem stmt_ring {i : Fin n} {r : Fin 5} (h : task σ i = .ringWait r) :
    (threads n strs).stmt (some i) (σ.pc (some i)) = some (.wait (.sems i)) := by
  show TaskPc.stmt strs i (task σ i) = _
  rw [h]
  rfl

/-- The timed calls of the program. -/
theorem timed_calls {k : Thread n} {st : Call n}
    (h : (threads n strs).stmt k (σ.pc k) = some st) :
    (∀ s, st = .waitTimed s → s = .prio_sem) ∧
      ∀ m, st = .receiveTimed m → m = .mbx_in ∧ ∃ i, task σ i = .receiveTimed := by
  have hprint : ∀ (p : PrintPc) (line : Option String → String),
      (∀ s, p.stmt (n := n) line ≠ .waitTimed s) ∧ ∀ m, p.stmt (n := n) line ≠ .receiveTimed m := by
    intro p line
    cases p <;> simp
  cases k with
  | none =>
      change StartPc.stmt strs (start σ) = some st at h
      cases hp : start σ with
      | syncLine1 q | line1 q | syncLine2 q | testing q | received i q | line2 q | complete q =>
          rw [hp] at h
          cases h
          exact ⟨fun s hs => absurd hs ((hprint _ _).1 s), fun m hm => absurd hm ((hprint _ _).2 m)⟩
      | _ =>
          rw [hp] at h
          cases h <;> exact ⟨fun s hs => (by cases hs), fun m hm => (by cases hm)⟩
  | some i =>
      change TaskPc.stmt strs i (task σ i) = some st at h
      cases hp : task σ i with
      | ringName r q | ringLine r q | name q | semTimeout q | received q | mbxTimeout q
      | complete q =>
          rw [hp] at h
          cases h
          exact ⟨fun s hs => absurd hs ((hprint _ _).1 s), fun m hm => absurd hm ((hprint _ _).2 m)⟩
      | prioTimed =>
          rw [hp] at h
          cases h
          refine ⟨fun s hs => ?_, fun m hm => (by cases hm)⟩
          cases hs
          rfl
      | receiveTimed =>
          rw [hp] at h
          cases h
          refine ⟨fun s hs => (by cases hs), fun m hm => ?_⟩
          cases hm
          exact ⟨rfl, i, hp⟩
      | _ =>
          rw [hp] at h
          cases h <;> exact ⟨fun s hs => (by cases hs), fun m hm => (by cases hm)⟩

theorem Phases.step {σ' : Config (threads n strs)} {l : Thread n × Bool} (h : Phases σ)
    (hc : Counts σ) (hnext : σ.next l = some σ') : Phases σ' := by
  have htimed := next_timed (k := l.1) (e := l.2) hnext
  have hextra : ∀ s, s ≠ .prio_sem → σ'.extra s = 0 := by
    intro s hs
    rcases htimed.1 s with heq | hst
    · rw [heq, h.extra s hs]
    · exact absurd ((timed_calls hst).1 s rfl) hs
  have hlate : ∀ m, σ'.late m = 0 := by
    intro m
    rcases htimed.2 m with heq | ⟨hst, hbox⟩
    · rw [heq, h.late m]
    · obtain ⟨rfl, i, hi⟩ := (timed_calls hst).2 m rfl
      exact absurd (h.mbx_in_empty hc hi) hbox
  obtain ⟨-, hstart, htask⟩ | ⟨i, served, hl, hstart, hi, hothers⟩ := moved_cases hnext
  · have horder := (start σ).next_order
    refine ⟨?_, ?_, ?_, ?_, hextra, hlate⟩
    · intro hzero i
      rw [htask]
      rw [hstart] at hzero
      exact h.idle (by omega) i
    · intro i r p hi
      rw [htask] at hi
      exact h.line i r p hi
    · intro hprios i
      rw [hstart] at hprios
      rw [htask]
      exact h.after_ring hc (horder.2.1 hprios) i
    · intro hsent i
      rw [hstart] at hsent
      rw [htask]
      exact h.after_prio hc (horder.2.2 hsent) i
  · have hgave : ∀ j, (task σ j).gave ≤ (task σ' j).gave := by
      intro j
      by_cases hj : j = i
      · rw [hj, hi]
        exact TaskPc.gave_next i _ served
      · rw [hothers j hj]
    refine ⟨?_, ?_, ?_, ?_, hextra, hlate⟩
    · intro hzero
      rw [hstart] at hzero
      have hidle := h.idle hzero
      -- the first to move would need a token that nobody has given
      have hring := hc.ring i
      rw [hidle i, hidle (i - 1), hzero] at hring
      have htoken := next_wait (k := l.1) (e := l.2) hnext (by rw [hl]; exact stmt_ring (hidle i))
      simp only [TaskPc.waits, TaskPc.posts, Fin.val_zero, ite_self] at hring
      omega
    · intro j r p hj
      by_cases hji : j = i
      · subst hji
        rw [hi] at hj
        obtain hlast | ⟨q', hq⟩ := TaskPc.next_line hj
        · exact hlast
        · exact h.line j r q' hq
      · rw [hothers j hji] at hj
        exact h.line j r p hj
    · intro hprios j
      rw [hstart] at hprios
      exact Nat.le_trans (h.synced1 hprios j) (hgave j)
    · intro hsent j
      rw [hstart] at hsent
      have hbefore := h.synced2 hsent j
      have hafter := hgave j
      have hmost := (task σ' j).order
      omega

end

/-- The counts of every run. -/
theorem reachable_counts {σ : Config (threads n strs)} (h : (threads n strs).machine.Reachable σ) :
    Counts σ :=
  counts (balanced (tally n strs) σ h)

/-- The phases of every run. -/
theorem reachable_phases : (threads n strs).machine.Invariant Phases := by
  refine TSys.Invariant.of_inductive_with (fun _ => reachable_counts) ?_ ?_
  · rintro _ rfl
    exact ⟨fun _ _ => rfl, nofun, nofun, nofun, fun _ _ => rfl, fun _ => rfl⟩
  · intro σ σ' l hc h hnext
    exact h.step hc hnext

end RtaiDemos.Namedstuff
