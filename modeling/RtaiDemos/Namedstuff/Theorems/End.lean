import Mathlib.Algebra.BigOperators.Fin
import RtaiDemos.Namedstuff.Logic.Progress

/-!
# The end of the test

Every run ends after so many calls. It ends with all tasks suspended, unless a timed
wait has taken a token of `prio_sem` that a task still waits for.
-/

namespace RtaiDemos.Namedstuff

open Threads

section

variable {n : Nat} [NeZero n] {strs : Nat → String} {σ : Config (threads n strs)}

/-- When the start task has ended, it has got the strings of all tasks. -/
theorem received_all (h : (tally n strs).Balanced σ) (hph : Phases σ)
    (hend : start σ = .suspended) :
    ((σ.got .mbx_out).map Prod.snd).Perm ((List.range n).map strs) := by
  have hout := (counts h).mbx_out
  rw [hend, hph.late] at hout
  simp only [StartPc.heard] at hout
  have hmost := sum_le (f := fun i => (task σ i).sent) (c := 1) fun i => by
    have := (task σ i).order
    omega
  have hsent : ∀ i, (task σ i).sent = 1 := by
    refine all_of_sum (fun i => ?_) (by omega)
    have := (task σ i).order
    omega
  have hbox : σ.box .mbx_out = [] := List.length_eq_zero_iff.mp (by omega)
  have hfifo := h.fifo .mbx_out
  rw [hbox, List.append_nil] at hfifo
  have hsum := h.sent .mbx_out
  rw [hfifo, Fintype.sum_option] at hsum
  have hown : ∀ i : Fin n,
      ((tally n strs).said (some i) (σ.pc (some i)) .mbx_out : Multiset String) = {strs i} := by
    intro i
    have hi : (tally n strs).said (some i) (σ.pc (some i)) .mbx_out = [strs i] := if_pos (hsent i)
    rw [hi]
    rfl
  have hall : ∀ c, ∑ i ∈ Finset.range c, ({strs i} : Multiset String) =
      ((List.range c).map strs : List String) := by
    intro c
    induction c with
    | zero => rfl
    | succ c ih =>
        rw [Finset.sum_range_succ, ih, List.range_succ, List.map_append, ← Multiset.coe_add]
        rfl
  simp only [hown] at hsum
  rw [← Finset.sum_range fun i => ({strs i} : Multiset String), hall] at hsum
  exact Multiset.coe_eq_coe.mp (hsum.trans (zero_add _))

end

/-- Every run is at most `79 * n + 25` calls long. Where no thread can go on, all have
ended if no timed wait got a token; otherwise as many tasks still wait for one. When the
start task has ended, no timed wait got one and all strings have come back. -/
theorem run_ends (n : Nat) [NeZero n] (strs : Nat → String) (ls : List (Thread n × Bool))
    (σ : Config (threads n strs))
    (h : (threads n strs).machine.run (threads n strs).initial ls = some σ) :
    ls.length ≤ 79 * n + 25 ∧
      (σ.Stuck →
        if σ.extra .prio_sem = 0 then start σ = .suspended ∧ ∀ i, task σ i = .suspended
        else (∃ m, start σ = .sync2 m) ∧ (∀ i, task σ i = .prio ∨ task σ i = .receive) ∧
          (Finset.univ.filter fun i => task σ i = .prio).card = σ.extra .prio_sem) ∧
      (start σ = .suspended → σ.extra .prio_sem = 0 ∧
        ((σ.got .mbx_out).map Prod.snd).Perm ((List.range n).map strs)) := by
  have hreach : (threads n strs).machine.Reachable σ := TSys.Reachable.of_run rfl h
  have hbalanced := balanced (tally n strs) σ hreach
  have hc := counts hbalanced
  have hph := reachable_phases σ hreach
  refine ⟨?_, ?_, ?_⟩
  · have hlength := run_length (tally n strs) h
    have hleft : ∑ k, (tally n strs).left k ((threads n strs).initial.pc k) = 79 * n + 25 := by
      have htasks : ∑ i : Fin n, TaskPc.left (.ringWait 0) = n * 70 := by
        rw [Finset.sum_const_nat fun _ _ => rfl, Finset.card_univ, Fintype.card_fin]
        rfl
      rw [Fintype.sum_option]
      show 9 * n + 25 + ∑ i : Fin n, TaskPc.left (.ringWait 0) = _
      rw [htasks]
      omega
    omega
  · intro hstuck
    rcases halts hstuck hc hph with ⟨hstart, htask, hextra⟩ | ⟨hstart, htask, hcard, hextra⟩
    · rw [if_pos hextra]
      exact ⟨hstart, htask⟩
    · rw [if_neg (by omega)]
      exact ⟨hstart, htask, hcard⟩
  · intro hend
    refine ⟨?_, received_all hbalanced hph hend⟩
    have hgave := hph.synced2 (by rw [hend]; exact Nat.pos_of_ne_zero (NeZero.ne n))
    have hone : ∀ i ∈ Finset.univ, (task σ i).hadPrio = 1 := by
      intro i _
      have hi := (task σ i).order
      have := hgave i
      omega
    have hprio := hc.prio
    rw [Finset.sum_const_nat hone, Finset.card_univ, Fintype.card_fin, hend] at hprio
    simp only [StartPc.prios] at hprio
    omega

/-- Who goes on and for how many calls; no timed wait gets what it waits for. -/
def turns : List (Thread 2 × Nat) :=
  [(none, 2), (some 0, 5), (some 1, 8), (some 0, 5), (some 1, 8), (some 0, 5), (some 1, 8),
   (some 0, 5), (some 1, 8), (some 0, 6), (some 1, 9), (none, 6), (some 0, 10), (none, 1),
   (some 1, 10), (none, 12), (some 0, 5), (none, 1), (some 1, 5), (none, 12), (some 0, 8),
   (none, 1), (some 1, 8), (none, 4)]

set_option maxRecDepth 8000 in
/-- Two tasks, from the first call to the last. -/
theorem run_ends_both :
    let strs := fun k => if k = 0 then "Joey    " else "Johnny  "
    ∃ σ, (threads 2 strs).machine.run (threads 2 strs).initial
        (turns.flatMap fun t => List.replicate t.2 (t.1, true)) = some σ ∧
      σ.Stuck ∧ 152 ≤ 79 * 2 + 25 ∧ (start σ = .suspended ∧ ∀ i, task σ i = .suspended) ∧
      ((σ.got .mbx_out).map Prod.snd).Perm ["Joey    ", "Johnny  "] := by
  intro strs
  obtain ⟨σ, hrun, hstart, htask⟩ : ∃ σ, (threads 2 strs).machine.run (threads 2 strs).initial
      (turns.flatMap fun t => List.replicate t.2 (t.1, true)) = some σ ∧
      start σ = .suspended ∧ ∀ i, task σ i = .suspended :=
    ⟨_, rfl, rfl, Fin.forall_fin_two.mpr ⟨rfl, rfl⟩⟩
  have hstuck : σ.Stuck := by
    rintro ⟨k, e⟩
    cases k with
    | none =>
        have hstmt : (threads 2 strs).stmt none (σ.pc none) = none := by
          rw [show σ.pc none = _ from hstart]
          rfl
        rw [Config.next, hstmt]
        rfl
    | some i =>
        have hstmt : (threads 2 strs).stmt (some i) (σ.pc (some i)) = none := by
          rw [show σ.pc (some i) = _ from htask i]
          rfl
        rw [Config.next, hstmt]
        rfl
  obtain ⟨hlength, hends, hend⟩ := run_ends 2 strs _ σ hrun
  obtain ⟨hextra, hgot⟩ := hend hstart
  have hboth := hends hstuck
  rw [if_pos hextra] at hboth
  exact ⟨σ, hrun, hstuck, hlength, hboth, hgot⟩

end RtaiDemos.Namedstuff
