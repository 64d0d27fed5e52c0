import Mathlib.Data.Fintype.Fin
import RtaiDemos.Namedstuff.Logic.Progress

/-!
# The first lines of the test

While the token goes round, the log grows by exactly the next line: the strings of
the tasks in order and a newline, five times, and then the start task's `sync_str`.
-/

namespace RtaiDemos.Namedstuff

open Threads

/-- What the five rounds print. -/
def ringLines (n : Nat) (strs : Nat → String) : List String :=
  (List.replicate 5 ((List.range n).map strs ++ ["\n"])).flatten

/-- The lines before the priority test. -/
def firstLines (n : Nat) (strs : Nat → String) : List String :=
  ringLines n strs ++ ["sync\n"]

/-- Whether the text of a print is out. -/
@[simp] def PrintPc.out : PrintPc → Nat
  | .take | .text => 0
  | .give => 1

/-- How many lines of the ring a task prints in a round. -/
def share {n : Nat} (i : Fin n) : Nat := if i.val = n - 1 then 2 else 1

/-- How many of them it has printed. -/
@[simp] def TaskPc.lines {n : Nat} (i : Fin n) : TaskPc → Nat
  | .ringWait r => share i * r
  | .ringName r p => share i * r + p.out
  | .ringLine r p => share i * r + 1 + p.out
  | .ringPass r => share i * (r + 1)
  | _ => share i * 5

/-- Whether `sync_str` has been printed. -/
@[simp] def StartPc.synced {n : Nat} : StartPc n → Nat
  | .create | .first | .sync1 _ => 0
  | .syncLine1 p => p.out
  | _ => 1

section

variable {n : Nat} [NeZero n] {strs : Nat → String} {σ : Config (threads n strs)}

/-- How many of the first lines are out. -/
def printed (σ : Config (threads n strs)) : Nat :=
  ∑ i, (task σ i).lines i + (start σ).synced

/-! ## The lines by number -/

theorem mod_round {q c k : Nat} (hk : k < c) : (q * c + k) % c = k := by
  rw [Nat.mul_comm, Nat.mul_add_mod, Nat.mod_eq_of_lt hk]

theorem flatten_range (f : Nat → String) (c r : Nat) (hf : ∀ q k, k < c → f (q * c + k) = f k) :
    (List.replicate r ((List.range c).map f)).flatten = (List.range (r * c)).map f := by
  induction r with
  | zero =>
      rw [Nat.zero_mul]
      rfl
  | succ r ih =>
      rw [List.replicate_succ', List.flatten_append, ih, List.flatten_singleton, Nat.succ_mul,
        List.range_add, List.map_append, List.map_map]
      refine congrArg _ (List.map_congr_left fun k hk => ?_)
      exact (hf r k (List.mem_range.mp hk)).symm

omit [NeZero n] in
/-- A line of the ring by its number. -/
theorem ringLines_eq : ringLines n strs = (List.range (5 * (n + 1))).map fun k =>
    if k % (n + 1) < n then strs (k % (n + 1)) else "\n" := by
  rw [← flatten_range]
  · unfold ringLines
    congr 2
    rw [List.range_succ, List.map_append, List.map_singleton, Nat.mod_eq_of_lt (Nat.lt_succ_self n),
      if_neg (Nat.lt_irrefl n)]
    refine congrArg (· ++ _) (List.map_congr_left fun k hk => ?_)
    have hlt := List.mem_range.mp hk
    rw [Nat.mod_eq_of_lt (Nat.lt_succ_of_lt hlt), if_pos hlt]
  · intro q k hk
    rw [mod_round hk, Nat.mod_eq_of_lt hk]

omit [NeZero n] in
theorem firstLines_ring {r k : Nat} (hr : r < 5) (hk : k < n + 1) :
    (firstLines n strs)[r * (n + 1) + k]? = some (if k < n then strs k else "\n") := by
  have hlt : r * (n + 1) + k < 5 * (n + 1) := by
    have hrounds := Nat.mul_le_mul_right (n + 1) (Nat.le_of_lt_succ hr)
    omega
  unfold firstLines
  rw [ringLines_eq, List.getElem?_append_left (by simpa using hlt), List.getElem?_map,
    List.getElem?_range hlt]
  simp only [Option.map_some, mod_round hk]

omit [NeZero n] in
theorem firstLines_sync : (firstLines n strs)[5 * (n + 1)]? = some "sync\n" := by
  unfold firstLines
  rw [ringLines_eq, List.getElem?_append_right (by simp)]
  simp

omit [NeZero n] in
theorem firstLines_length : (firstLines n strs).length = 5 * (n + 1) + 1 := by
  unfold firstLines
  rw [ringLines_eq]
  simp

/-! ## A step of a task -/

omit [NeZero n] in
/-- The lines of the ring that a step prints. -/
theorem TaskPc.lines_next {i : Fin n} {p : TaskPc} (served : Bool)
    (hline : ∀ r q, p = .ringLine r q → i.val = n - 1) :
    (p.next i served).lines i = p.lines i +
      if (∃ r, p = .ringName r .text) ∨ ∃ r, p = .ringLine r .text then 1 else 0 := by
  cases p with
  | ringPass r =>
      simp only [next]
      split
      · simp
      · have hr : r.val + 1 = 5 := by omega
        simp [hr]
  | ringName r q =>
      by_cases hlast : i.val = n - 1 <;> cases q <;> simp [next, hlast, share]
  | ringLine r q =>
      have hlast := hline r q rfl
      cases q <;> simp [next, hlast, share]
      omega
  | receiveTimed => cases served <;> simp [next]
  | name q | semTimeout q | received q | mbxTimeout q | complete q =>
      cases q <;> simp [next]
  | ringWait r => simp [next]
  | _ => simp [next]

omit [NeZero n] in
/-- A task that does not have the token has printed its lines of all its rounds. -/
theorem TaskPc.lines_rest (i : Fin n) {p : TaskPc} (h : p.waits = p.posts) :
    p.lines i = share i * p.posts := by
  cases p with
  | ringName r q | ringLine r q | ringPass r =>
      simp only [waits, posts] at h
      omega
  | _ => rfl

/-! ## Which line is next -/

/-- The lines when the tasks before `i` have finished round `r` and the others have not. -/
theorem sum_share (r : Nat) (i : Fin n) :
    ∑ j, share j * (r + if j < i then 1 else 0) = r * (n + 1) + i.val := by
  have hsplit : ∀ j : Fin n, share j * (r + if j < i then 1 else 0) =
      r * (1 + if j.val = n - 1 then 1 else 0) + if j.val < i.val then 1 else 0 := by
    intro j
    have hi := i.isLt
    unfold share
    simp only [Fin.lt_def]
    split_ifs <;> omega
  have hlast : ∀ j : Fin n, j.val = n - 1 ↔ j = 0 - 1 := fun j => by
    rw [Fin.ext_iff, Relay.val_last]
  have hlt : ∑ j : Fin n, (if j.val < i.val then 1 else 0) = i.val := by
    rw [← Finset.card_filter, Fin.card_filter_val_lt, Nat.min_eq_right (Nat.le_of_lt i.isLt)]
  have hone : ∑ j : Fin n, (1 + if j.val = n - 1 then 1 else 0) = n + 1 := by
    simp only [Finset.sum_add_distrib, hlast, Finset.sum_ite_eq', Finset.mem_univ, if_true]
    simp
  simp only [hsplit]
  rw [Finset.sum_add_distrib, ← Finset.mul_sum, hone, hlt]

/-- The number of the line that the task with the token prints. -/
theorem sum_lines (hc : Counts σ) {i : Fin n} {r : Nat} (hw : (task σ i).waits = r + 1)
    (hp : (task σ i).posts = r) (done : Nat) (hdone : (task σ i).lines i = share i * r + done) :
    ∑ j, (task σ j).lines j = r * (n + 1) + i.val + done := by
  have hrelay := relay hc
  have hhold : (task σ i).waits = (task σ i).posts + 1 := by rw [hw, hp]
  have hlines : ∀ j, (task σ j).lines j =
      share j * (r + if j < i then 1 else 0) + if j = i then done else 0 := by
    intro j
    by_cases hj : j = i
    · rw [hj, hdone, if_neg (lt_irrefl i), if_pos rfl, Nat.add_zero]
    · have hrest := hrelay.unique (i := i) hhold hj
      have hpost := hrelay.holder (i := i) hhold j
      rw [TaskPc.lines_rest j hrest, hpost, hp, if_neg hj, Nat.add_zero]
  simp only [hlines, Finset.sum_add_distrib, Finset.sum_ite_eq', Finset.mem_univ, if_true]
  rw [sum_share]

/-- All tasks past the ring. -/
theorem sum_lines_done (h : ∀ i, 1 ≤ (task σ i).gave) :
    ∑ i, (task σ i).lines i = 5 * (n + 1) := by
  have hlines : ∀ i, (task σ i).lines i = share i * (5 + if i < 0 then 1 else 0) := by
    intro i
    have hi := h i
    have hzero : ¬ i < 0 := Fin.not_lt.mpr (Fin.le_def.mpr (Nat.zero_le _))
    rw [if_neg hzero]
    generalize task σ i = p at hi ⊢
    cases p with
    | ringWait | ringName | ringLine | ringPass | sync1 => cases hi
    | _ => rfl
  simp only [hlines]
  rw [sum_share]
  rfl

/-! ## The log -/

omit [NeZero n] in
/-- The next line. -/
theorem take_next {log lines : List String} {m : Nat} {line : String}
    (h : log.take lines.length = lines.take m) (hline : lines[m]? = some line) :
    (log ++ [line]).take lines.length = lines.take (m + 1) := by
  obtain ⟨hm, -⟩ := List.getElem?_eq_some_iff.mp hline
  have hlength := congrArg List.length h
  rw [List.length_take, List.length_take] at hlength
  have hlog : log = lines.take m := by
    rw [← h, List.take_of_length_le (by omega)]
  rw [List.take_of_length_le (by rw [List.length_append, List.length_singleton]; omega),
    List.take_add_one, hline, hlog]
  rfl

omit [NeZero n] in
/-- A line after the last. -/
theorem take_after {log lines : List String} {m : Nat} (more : List String)
    (h : log.take lines.length = lines.take m) (hm : lines.length ≤ m) :
    (log ++ more).take lines.length = lines.take m := by
  have hlength := congrArg List.length h
  rw [List.length_take, List.length_take] at hlength
  rw [List.take_append_of_le_length (by omega), h]

/-- The log agrees with the first lines as far as they are out. -/
def Printed (σ : Config (threads n strs)) : Prop :=
  σ.log.take (firstLines n strs).length = (firstLines n strs).take (printed σ)

omit [NeZero n] in
/-- What a call of a task prints. -/
theorem TaskPc.prints [NeZero n] {i : Fin n} {p : TaskPc} {st : Call n}
    (h : p.stmt strs i = some st) (buf : Option String) :
    (∃ r, p = .ringName r .text ∧ st.prints buf = [strs i]) ∨
      (∃ r, p = .ringLine r .text ∧ st.prints buf = ["\n"]) ∨
      (¬ ((∃ r, p = .ringName r .text) ∨ ∃ r, p = .ringLine r .text)) ∧
        (st.prints buf = [] ∨ p.hadPrio = 1) := by
  cases p with
  | ringName r q =>
      cases q with
      | text => cases h; exact .inl ⟨r, rfl, rfl⟩
      | _ => cases h; exact .inr (.inr ⟨by simp, .inl rfl⟩)
  | ringLine r q =>
      cases q with
      | text => cases h; exact .inr (.inl ⟨r, rfl, rfl⟩)
      | _ => cases h; exact .inr (.inr ⟨by simp, .inl rfl⟩)
  | ringWait | ringPass | sync1 | prio => cases h; exact .inr (.inr ⟨by simp, .inl rfl⟩)
  | _ => exact .inr (.inr ⟨by simp, .inr rfl⟩)

/-- What a call of the start task prints. -/
theorem StartPc.prints {p : StartPc n} {st : Call n} (h : p.stmt strs = some st)
    (buf : Option String) :
    (p = .syncLine1 .text ∧ st.prints buf = ["sync\n"]) ∨
      p.next.synced = p.synced ∧ (st.prints buf = [] ∨ p.synced = 1 ∧ p.syncs1 = n) := by
  cases p with
  | syncLine1 q =>
      cases q with
      | text => cases h; exact .inl ⟨rfl, rfl⟩
      | _ => cases h; exact .inr ⟨rfl, .inl rfl⟩
  | sync1 i | prio i | sync2 i | send i | sync3 i =>
      cases h
      refine .inr ⟨?_, .inl rfl⟩
      simp only [next]
      obtain ⟨hlt, heq⟩ | ⟨hlast, heq⟩ := loop_cases i _ _
      · rw [heq]
        rfl
      · rw [heq]
        rfl
  | received i q =>
      refine .inr ⟨?_, .inr ⟨rfl, rfl⟩⟩
      cases q with
      | give =>
          simp only [next, PrintPc.andThen]
          obtain ⟨hlt, heq⟩ | ⟨hlast, heq⟩ := loop_cases i .receive (.line2 .take)
          · rw [heq]
            rfl
          · rw [heq]
            rfl
      | _ => rfl
  | line1 q | syncLine2 q | testing q | line2 q | complete q =>
      refine .inr ⟨?_, .inr ⟨rfl, rfl⟩⟩
      cases q <;> rfl
  | create | first => cases h; exact .inr ⟨rfl, .inl rfl⟩
  | _ => exact .inr ⟨rfl, .inr ⟨rfl, rfl⟩⟩

theorem Printed.step {σ' : Config (threads n strs)} {l : Thread n × Bool} (h : Printed σ)
    (hc : Counts σ) (hph : Phases σ) (hnext : σ.next l = some σ') : Printed σ' := by
  obtain ⟨st, hst, hmoved⟩ := next_moved (k := l.1) (e := l.2) hnext
  have hlog := hmoved.log
  have hlen : (firstLines n strs).length = 5 * (n + 1) + 1 := firstLines_length
  unfold Printed at h ⊢
  rw [hlog]
  obtain ⟨hl, hstart, htask⟩ | ⟨i, served, hl, hstart, hi, hothers⟩ := moved_cases hnext
  · have hsum : ∑ i, (task σ' i).lines i = ∑ i, (task σ i).lines i :=
      Finset.sum_congr rfl fun i _ => by rw [htask]
    rw [hl] at hst
    obtain ⟨hp, hprints⟩ | ⟨hsynced, hprints⟩ := StartPc.prints hst (σ.buf l.1)
    · -- `sync_str` comes when all tasks are past the ring
      have hring := sum_lines_done (hph.after_ring hc (by unfold start; rw [hp]; rfl))
      have hnow : printed σ = 5 * (n + 1) := by
        unfold printed start
        rw [hring, hp]
        rfl
      have hthen : printed σ' = printed σ + 1 := by
        rw [hnow]
        unfold printed
        rw [hsum, hring, hstart]
        unfold start
        rw [hp]
        rfl
      rw [hprints, hthen]
      exact take_next h (by rw [hnow]; exact firstLines_sync)
    · have hsame : printed σ' = printed σ := by
        unfold printed
        rw [hsum, hstart]
        exact congrArg _ hsynced
      rw [hsame]
      rcases hprints with hnone | ⟨hsync, hall⟩
      · rw [hnone, List.append_nil, h]
      · refine take_after _ h ?_
        have hring := sum_lines_done (hph.after_ring hc hall)
        unfold printed
        rw [hring, hlen]
        exact Nat.add_le_add_left (Nat.le_of_eq hsync.symm) _
  · have hlines := TaskPc.lines_next (i := i) (p := task σ i) served fun r q hq => hph.line i r q hq
    rw [← hi] at hlines
    have hsum : ∀ d, (task σ' i).lines i = (task σ i).lines i + d → printed σ' = printed σ + d := by
      intro d hd
      have hall : ∀ j, (task σ' j).lines j = (task σ j).lines j + if j = i then d else 0 := by
        intro j
        by_cases hj : j = i
        · rw [hj, hd, if_pos rfl]
        · rw [hothers j hj, if_neg hj, Nat.add_zero]
      unfold printed
      simp only [hall, Finset.sum_add_distrib, Finset.sum_ite_eq', Finset.mem_univ, if_true, hstart]
      omega
    -- a task that prints in the ring has the token, so nothing else has been printed
    have hholds : ∀ r : Fin 5, (task σ i).waits = r + 1 → (task σ i).posts = r →
        ∀ done, (task σ i).lines i = share i * r + done →
        printed σ = r * (n + 1) + (i.val + done) := by
      intro r hw hp done hdone
      have hnone : (start σ).synced = 0 := by
        by_contra hne
        have hpast : (start σ).syncs1 = n := by
          generalize start σ = p at hne ⊢
          cases p with
          | create | first | sync1 => exact absurd rfl hne
          | _ => rfl
        have hgave := hph.after_ring hc hpast i
        have horder := (task σ i).order
        omega
      unfold printed
      rw [sum_lines hc hw hp done hdone, hnone, Nat.add_zero, Nat.add_assoc]
    rw [hl] at hst
    obtain ⟨r, hp, hprints⟩ | ⟨r, hp, hprints⟩ | ⟨hno, hprints⟩ := TaskPc.prints hst (σ.buf l.1)
    · change task σ i = .ringName r .text at hp
      rw [if_pos (.inl ⟨r, hp⟩)] at hlines
      rw [hprints, hsum 1 hlines]
      refine take_next h ?_
      rw [hholds r (by rw [hp]; rfl) (by rw [hp]; rfl) 0 (by rw [hp]; rfl),
        firstLines_ring r.isLt (by omega), if_pos (by omega)]
      rfl
    · change task σ i = .ringLine r .text at hp
      have hlast := hph.line i r _ hp
      have hn := i.isLt
      rw [if_pos (.inr ⟨r, hp⟩)] at hlines
      rw [hprints, hsum 1 hlines]
      refine take_next h ?_
      rw [hholds r (by rw [hp]; rfl) (by rw [hp]; rfl) 1 (by rw [hp]; rfl),
        firstLines_ring r.isLt (by omega), if_neg (by omega)]
    · change ¬ ((∃ r, task σ i = .ringName r .text) ∨ ∃ r, task σ i = .ringLine r .text) at hno
      rw [if_neg hno, Nat.add_zero] at hlines
      rw [hsum 0 hlines]
      rcases hprints with hnone | hprio
      · rw [hnone, List.append_nil]
        exact h
      · change (task σ i).hadPrio = 1 at hprio
        refine take_after _ h ?_
        -- the token of `prio_sem` came after `sync_str`
        have hone := le_sum (fun i => (task σ i).hadPrio) i
        have hcount := hc.prio
        have horder := (start σ).order
        have hpast : (start σ).synced = 1 := by
          have hpos : 0 < (start σ).prios := by omega
          generalize start σ = p at hpos ⊢
          cases p with
          | create | first | sync1 | syncLine1 => exact absurd hpos (Nat.lt_irrefl 0)
          | _ => rfl
        have hring := sum_lines_done (hph.after_ring hc (horder.2.2.2.1 (by omega)))
        unfold printed
        rw [hring, hpast, hlen]

/-- The first lines of every run. -/
theorem reachable_printed : (threads n strs).machine.Invariant Printed := by
  refine TSys.Invariant.of_inductive_with (Q := fun σ => Counts σ ∧ Phases σ) ?_ ?_ ?_
  · intro σ h
    exact ⟨reachable_counts h, reachable_phases σ h⟩
  · rintro _ rfl
    have hzero : printed (threads n strs).initial = 0 := by
      have hlines : ∑ i : Fin n, TaskPc.lines i (.ringWait 0) = 0 :=
        Finset.sum_eq_zero fun i _ => Nat.mul_zero _
      exact hlines
    unfold Printed
    rw [hzero, List.take_zero]
    exact List.take_nil
  · intro σ σ' l hq h hnext
    exact h.step hq.1 hq.2 hnext

end

end RtaiDemos.Namedstuff
