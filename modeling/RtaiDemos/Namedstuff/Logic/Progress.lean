import RtaiDemos.Namedstuff.Logic.Phases

/-!
# Where the test can stop

A state in which no thread can move, read off the point of the start task. The
test stops before its end only in the second wait of the start task, when timed
waits have taken tokens of `prio_sem`.
-/

namespace RtaiDemos.Namedstuff

open Threads

variable {n : Nat} [NeZero n] {strs : Nat → String} {σ : Config (threads n strs)}

/-- What is waited for at the end of a step that no thread can take. -/
structure Halted (σ : Config (threads n strs)) : Prop where
  startWaits : ∀ st, StartPc.stmt strs (start σ) = some st → σ.Waits st
  taskWaits : ∀ i st, TaskPc.stmt strs i (task σ i) = some st → σ.Waits st

theorem halted (h : σ.Stuck) : Halted σ :=
  ⟨fun _ hst => h.waits (k := none) hst, fun i _ hst => h.waits (k := some i) hst⟩

/-- Inside a print, a thread can go on. -/
theorem PrintPc.inside_waits {p : PrintPc} {line : Option String → String}
    (h : σ.Waits (p.stmt line)) :
    p.inside = 0 ∧ σ.count .print_sem = 0 := by
  cases p with
  | take => exact ⟨rfl, h⟩
  | text => exact h.elim
  | give => exact h.elim

/-- The waits of the tasks. -/
inductive TaskHalt (σ : Config (threads n strs)) (i : Fin n) : TaskPc → Prop
  | ring (r : Fin 5) : σ.count (.sems i) = 0 → TaskHalt σ i (.ringWait r)
  | prio : σ.count .prio_sem = 0 → TaskHalt σ i .prio
  | receive : σ.box .mbx_in = [] → TaskHalt σ i .receive
  | send : n ≤ (σ.box .mbx_out).length → TaskHalt σ i .send
  | sync3 : σ.count .sync_sem = 0 → TaskHalt σ i .sync3
  | suspended : TaskHalt σ i .suspended

/-- The waits of the start task. -/
inductive StartHalt (σ : Config (threads n strs)) : StartPc n → Prop
  | sync1 (i : Fin n) : σ.count .sync_sem = 0 → StartHalt σ (.sync1 i)
  | sync2 (i : Fin n) : σ.count .sync_sem = 0 → StartHalt σ (.sync2 i)
  | send (i : Fin n) : n ≤ (σ.box .mbx_in).length → StartHalt σ (.send i)
  | receive (i : Fin n) : σ.box .mbx_out = [] → StartHalt σ (.receive i)
  | suspended : StartHalt σ .suspended

namespace Halted

theorem task_inside (h : Halted σ) (i : Fin n) : (task σ i).inside = 0 := by
  have hi := h.taskWaits i
  cases hp : task σ i with
  | ringName r q | ringLine r q | name q | semTimeout q | received q | mbxTimeout q
  | complete q =>
      rw [hp] at hi
      exact (PrintPc.inside_waits (hi _ rfl)).1
  | _ => rfl

theorem start_inside (h : Halted σ) : (start σ).inside = 0 := by
  have hi := h.startWaits
  cases hp : start σ with
  | syncLine1 q | line1 q | syncLine2 q | testing q | received i q | line2 q | complete q =>
      rw [hp] at hi
      exact (PrintPc.inside_waits (hi _ rfl)).1
  | _ => rfl

/-- So `print_sem` is free. -/
theorem print_free (h : Halted σ) (hc : Counts σ) (hph : Phases σ) :
    σ.count .print_sem ≠ 0 := by
  have hprint := hc.print
  have hzero : ∑ i, (task σ i).inside = 0 :=
    Finset.sum_eq_zero fun i _ => h.task_inside i
  rw [hzero, h.start_inside, hph.extra .print_sem (by simp)] at hprint
  omega

theorem task_halt (h : Halted σ) (hc : Counts σ) (hph : Phases σ) (i : Fin n) :
    TaskHalt σ i (task σ i) := by
  have hi := h.taskWaits i
  have hfree := h.print_free hc hph
  cases hp : task σ i with
  | ringName r q | ringLine r q | name q | semTimeout q | received q | mbxTimeout q
  | complete q =>
      rw [hp] at hi
      exact absurd (PrintPc.inside_waits (hi _ rfl)).2 hfree
  | ringWait r => rw [hp] at hi; exact .ring r (hi _ rfl)
  | prio => rw [hp] at hi; exact .prio (hi _ rfl)
  | receive => rw [hp] at hi; exact .receive (hi _ rfl)
  | send => rw [hp] at hi; exact .send (hi _ rfl)
  | sync3 => rw [hp] at hi; exact .sync3 (hi _ rfl)
  | suspended => exact .suspended
  | _ => rw [hp] at hi; exact (hi _ rfl).elim

theorem start_halt (h : Halted σ) (hc : Counts σ) (hph : Phases σ) :
    StartHalt σ (start σ) := by
  have hi := h.startWaits
  have hfree := h.print_free hc hph
  cases hp : start σ with
  | syncLine1 q | line1 q | syncLine2 q | testing q | received i q | line2 q | complete q =>
      rw [hp] at hi
      exact absurd (PrintPc.inside_waits (hi _ rfl)).2 hfree
  | sync1 j => rw [hp] at hi; exact .sync1 j (hi _ rfl)
  | sync2 j => rw [hp] at hi; exact .sync2 j (hi _ rfl)
  | send j => rw [hp] at hi; exact .send j (hi _ rfl)
  | receive j => rw [hp] at hi; exact .receive j (hi _ rfl)
  | suspended => exact .suspended
  | _ => rw [hp] at hi; exact (hi _ rfl).elim

end Halted

/-- The semaphores of the ring pass one token round. -/
theorem relay (hc : Counts σ) :
    Relay (fun i => (task σ i).waits) (fun i => (task σ i).posts) := by
  have hring : ∀ i, (task σ i).waits ≤ (task σ (i - 1)).posts + if i = 0 then 1 else 0 := by
    intro i
    have hi := hc.ring i
    have hstart := (start σ).order
    split_ifs at hi ⊢ <;> omega
  refine ⟨fun i => ?_, fun i hi => ?_, ?_⟩
  · have hi := (task σ i).order
    exact ⟨hi.1, hi.2.1⟩
  · have hi' := hring i
    rw [if_neg hi] at hi'
    exact hi'
  · have hi' := hring 0
    rw [if_pos rfl] at hi'
    exact hi'

/-- The start task never waits to send. -/
theorem room_to_send {m : Fin n} (hc : Counts σ) (hm : start σ = .send m) :
    (σ.box .mbx_in).length < n := by
  have hin := hc.mbx_in
  rw [hm] at hin
  simp only [StartPc.sent] at hin
  have := m.isLt
  omega

section

variable (hc : Counts σ) (hph : Phases σ) (htask : ∀ i, TaskHalt σ i (task σ i))
include hc hph htask

/-- No thread can be stuck in the ring. -/
theorem not_sync1 {m : Fin n} (hm : start σ = .sync1 m) (hsync : σ.count .sync_sem = 0) :
    False := by
  have hprio := hc.prio
  have hsum := hc.sync
  rw [hm] at hprio hsum
  simp only [StartPc.prios, StartPc.syncs1, StartPc.syncs2, StartPc.gave] at hprio hsum
  have hnone : ∀ i, (task σ i).hadPrio = 0 := by
    intro i
    have := le_sum (fun i => (task σ i).hadPrio) i
    omega
  have hhad : ∑ i, (task σ i).hadSync = 0 := by
    refine Finset.sum_eq_zero fun i _ => ?_
    have := (task σ i).order
    have := hnone i
    omega
  have hrest : ∀ i, (task σ i).waits = (task σ i).posts := by
    intro i
    have hi := htask i
    generalize task σ i = p at hi
    cases hi <;> rfl
  -- the token of the ring is at a task that is past it
  have hall := (relay hc).at_rest (c := 5) hrest fun i hi => by
    have hring := hc.ring i
    have hextra := hph.extra (.sems i) (by simp)
    have hzero : σ.count (.sems i) = 0 := by
      have hhalt := htask i
      generalize task σ i = p at hhalt hi
      cases hhalt with
      | ring r h => exact h
      | _ => exact absurd hi (Nat.lt_irrefl 5)
    rw [hm, hzero, hextra] at hring
    simpa using hring
  have hgave : ∀ i ∈ Finset.univ, (task σ i).gave = 1 := by
    intro i _
    have hhalt := htask i
    have h5 := hall i
    have h0 := hnone i
    generalize task σ i = p at hhalt h5 h0
    cases hhalt with
    | ring r h => exact absurd r.isLt (Nat.not_lt.mpr h5)
    | prio => rfl
    | _ => cases h0
  rw [Finset.sum_const_nat hgave, Finset.card_univ, Fintype.card_fin, hhad, hsync,
    hph.extra .sync_sem (by simp)] at hsum
  have := m.isLt
  omega

/-- Nor when the start task receives. -/
theorem not_receive {m : Fin n} (hm : start σ = .receive m) (hempty : σ.box .mbx_out = []) :
    False := by
  have hin := hc.mbx_in
  have hout := hc.mbx_out
  have hgave := hph.synced2
  rw [hm] at hin hout hgave
  have hn := m.isLt
  simp only [StartPc.sent, StartPc.heard, hph.late] at hin hout
  have hall : ∀ i ∈ Finset.univ, (task σ i).sent = 1 := by
    intro i _
    have hhalt := htask i
    have hi := hgave (by simp only [StartPc.sent]; omega) i
    have hheard := all_of_sum (f := fun i => (task σ i).heard) (c := 1) (fun j => by
      have := (task σ j).order
      omega) (i := i)
    generalize task σ i = p at hhalt hi hheard
    cases hhalt with
    | receive hbox =>
        rw [hbox, List.length_nil] at hin
        cases hheard (by omega)
    | send hbox =>
        rw [hempty, List.length_nil] at hbox
        omega
    | sync3 => rfl
    | suspended => rfl
    | ring => cases hi
    | prio => cases hi
  rw [Finset.sum_const_nat hall, Finset.card_univ, Fintype.card_fin, hempty,
    List.length_nil] at hout
  omega

/-- When the start task has ended, the tasks end. -/
theorem all_ended (hm : start σ = .suspended) (i : Fin n) : task σ i = .suspended := by
  have hsync := hc.sync
  have hout := hc.mbx_out
  rw [hm] at hsync hout
  simp only [StartPc.syncs1, StartPc.syncs2, StartPc.gave, StartPc.heard, hph.late] at hsync hout
  have hsent : ∀ j, (task σ j).sent = 1 := by
    refine all_of_sum (fun j => ?_) (by omega)
    have := (task σ j).order
    omega
  have hgave : ∀ j ∈ Finset.univ, (task σ j).gave = 2 := by
    intro j _
    have := (task σ j).order
    have := hsent j
    omega
  have hhad := all_of_sum (f := fun i => (task σ i).hadSync) (c := 1) (fun j => by
    have := (task σ j).order
    omega) (i := i)
  rw [Finset.sum_const_nat hgave, Finset.card_univ, Fintype.card_fin,
    hph.extra .sync_sem (by simp)] at hsync
  have hhalt := htask i
  have hi := hsent i
  generalize task σ i = p at hhalt hi hhad ⊢
  cases hhalt with
  | sync3 hzero => cases hhad (by omega)
  | suspended => rfl
  | _ => cases hi

/-- When the start task waits for the second time, it waits for tasks whose token of
`prio_sem` a timed wait has taken. -/
theorem lost_tokens {m : Fin n} (hm : start σ = .sync2 m) (hsync : σ.count .sync_sem = 0) :
    (∀ i, task σ i = .prio ∨ task σ i = .receive) ∧
      (Finset.univ.filter fun i => task σ i = .prio).card = σ.extra .prio_sem ∧
      0 < σ.extra .prio_sem := by
  have hsum := hc.sync
  have hprio := hc.prio
  have hin := hc.mbx_in
  have hgave := hph.after_ring hc (by rw [hm]; rfl)
  rw [hm] at hsum hprio hin
  simp only [StartPc.syncs1, StartPc.syncs2, StartPc.gave, StartPc.prios, StartPc.sent]
    at hsum hprio hin
  have hhere : ∀ i, task σ i = .prio ∨ task σ i = .receive := by
    intro i
    have hhalt := htask i
    have h1 := hgave i
    have h0 := le_sum (fun i => (task σ i).heard) i
    generalize task σ i = p at hhalt h1 h0
    cases hhalt with
    | prio => exact .inl rfl
    | receive => exact .inr rfl
    | ring => cases h1
    | send | sync3 | suspended =>
        change 1 ≤ ∑ i, (task σ i).heard at h0
        omega
  have hat : ∀ i, (task σ i).hadPrio + (if task σ i = .prio then 1 else 0) = 1 ∧
      (task σ i).gave + (if task σ i = .prio then 1 else 0) = 2 ∧ (task σ i).hadSync = 0 := by
    intro i
    rcases hhere i with h | h <;> simp [h]
  have hcard : ∀ f : Fin n → Nat, ∀ c, (∀ i, f i + (if task σ i = .prio then 1 else 0) = c) →
      ∑ i, f i + (Finset.univ.filter fun i => task σ i = .prio).card = n * c := by
    intro f c hf
    rw [Finset.card_filter, ← Finset.sum_add_distrib, Finset.sum_const_nat fun i _ => hf i,
      Finset.card_univ, Fintype.card_fin]
  have h1 := hcard _ 1 fun i => (hat i).1
  have h2 := hcard _ 2 fun i => (hat i).2.1
  have h3 : ∑ i, (task σ i).hadSync = 0 := Finset.sum_eq_zero fun i _ => (hat i).2.2
  have hextra := hph.extra .sync_sem (by simp)
  have hm' := m.isLt
  have hzero : σ.count .prio_sem = 0 := by
    by_contra hne
    have hno : ∀ i, ¬ task σ i = .prio := by
      intro i hi
      have hhalt := htask i
      rw [hi] at hhalt
      cases hhalt with
      | prio h => exact hne h
    rw [Finset.card_eq_zero.mpr (Finset.filter_eq_empty_iff.mpr fun i _ => hno i)] at h2
    omega
  exact ⟨hhere, by omega, by omega⟩

end

/-- Where the test stops. -/
theorem halts (h : σ.Stuck) (hc : Counts σ) (hph : Phases σ) :
    (start σ = .suspended ∧ (∀ i, task σ i = .suspended) ∧ σ.extra .prio_sem = 0) ∨
      (∃ m, start σ = .sync2 m) ∧ (∀ i, task σ i = .prio ∨ task σ i = .receive) ∧
        (Finset.univ.filter fun i => task σ i = .prio).card = σ.extra .prio_sem ∧
        0 < σ.extra .prio_sem := by
  have htask := (halted h).task_halt hc hph
  have hstart := (halted h).start_halt hc hph
  cases hm : start σ with
  | suspended => 
      have hall := all_ended hc hph htask hm
      have hprio := hc.prio
      have hone : ∀ i ∈ Finset.univ, (task σ i).hadPrio = 1 := by
        intro i _
        rw [hall i]
        rfl
      rw [Finset.sum_const_nat hone, Finset.card_univ, Fintype.card_fin, hm] at hprio
      simp only [StartPc.prios] at hprio
      exact .inl ⟨rfl, hall, by omega⟩
  | sync1 m =>
      rw [hm] at hstart
      cases hstart with
      | sync1 _ hsync => exact (not_sync1 hc hph htask hm hsync).elim
  | sync2 m =>
      rw [hm] at hstart
      cases hstart with
      | sync2 _ hsync => exact .inr ⟨⟨m, rfl⟩, lost_tokens hc hph htask hm hsync⟩
  | send m =>
      rw [hm] at hstart
      cases hstart with
      | send _ hfull => exact absurd (room_to_send hc hm) (Nat.not_lt.mpr hfull)
  | receive m =>
      rw [hm] at hstart
      cases hstart with
      | receive _ hempty => exact (not_receive hc hph htask hm hempty).elim
  | _ =>
      rw [hm] at hstart
      cases hstart

end RtaiDemos.Namedstuff
