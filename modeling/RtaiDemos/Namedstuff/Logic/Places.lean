import RtaiDemos.Namedstuff.Code

/-!
# What has been done at each point

Numbers read off the points of the two codes, the order in which the code puts
them, and the tally of the program made from them.
-/

namespace RtaiDemos.Namedstuff

open Threads

/-- Whether `print_sem` is held. -/
@[simp] def PrintPc.inside : PrintPc → Nat
  | .take => 0
  | .text | .give => 1

/-- The calls of a print that are left. -/
@[simp] def PrintPc.left : PrintPc → Nat
  | .take => 3
  | .text => 2
  | .give => 1

/-! ## The tasks -/

namespace TaskPc

/-- How often the semaphore of the task has been waited for. -/
@[simp] def waits : TaskPc → Nat
  | .ringWait r => r
  | .ringName r _ | .ringLine r _ | .ringPass r => r + 1
  | _ => 5

/-- How often it has been passed on. -/
@[simp] def posts : TaskPc → Nat
  | .ringWait r | .ringName r _ | .ringLine r _ | .ringPass r => r
  | _ => 5

/-- How often `sync_sem` has been signalled. -/
@[simp] def gave : TaskPc → Nat
  | .ringWait _ | .ringName _ _ | .ringLine _ _ | .ringPass _ | .sync1 => 0
  | .prio | .name _ | .sleep | .prioTimed | .semTimeout _ | .sync2 => 1
  | _ => 2

/-- Whether `prio_sem` has been waited for, without a time limit. -/
@[simp] def hadPrio : TaskPc → Nat
  | .ringWait _ | .ringName _ _ | .ringLine _ _ | .ringPass _ | .sync1 | .prio => 0
  | _ => 1

/-- Whether a string has been received. -/
@[simp] def heard : TaskPc → Nat
  | .received _ | .send | .sync3 | .receiveTimed | .mbxTimeout _ | .complete _ | .suspended => 1
  | _ => 0

/-- Whether the own string has been sent. -/
@[simp] def sent : TaskPc → Nat
  | .sync3 | .receiveTimed | .mbxTimeout _ | .complete _ | .suspended => 1
  | _ => 0

/-- Whether `sync_sem` has been waited for. -/
@[simp] def hadSync : TaskPc → Nat
  | .receiveTimed | .mbxTimeout _ | .complete _ | .suspended => 1
  | _ => 0

/-- Whether `print_sem` is held. -/
@[simp] def inside : TaskPc → Nat
  | .ringName _ p | .ringLine _ p | .name p | .semTimeout p | .received p | .mbxTimeout p
  | .complete p => p.inside
  | _ => 0

/-- A bound for the calls that are left. -/
@[simp] def left : TaskPc → Nat
  | .ringWait r => 8 * (4 - r) + 38
  | .ringName r p => 8 * (4 - r) + 34 + p.left
  | .ringLine r p => 8 * (4 - r) + 31 + p.left
  | .ringPass r => 8 * (4 - r) + 31
  | .sync1 => 30
  | .prio => 29
  | .name p => 25 + p.left
  | .sleep => 25
  | .prioTimed => 24
  | .semTimeout p => 20 + p.left
  | .sync2 => 20
  | .receive => 19
  | .received p => 15 + p.left
  | .send => 15
  | .sync3 => 14
  | .receiveTimed => 13
  | .mbxTimeout p => 9 + p.left
  | .complete p => 6 + p.left
  | .suspended => 0

/-- The order of the code. -/
theorem order (p : TaskPc) :
    p.posts ≤ p.waits ∧ p.waits ≤ p.posts + 1 ∧ p.waits ≤ 5 ∧ (0 < p.gave → p.posts = 5) ∧
      (p.gave ≤ 2) ∧ (p.hadPrio ≤ p.gave) ∧ (p.gave = 2 → p.hadPrio = 1) ∧ (p.hadPrio ≤ 1) ∧
      2 * p.heard ≤ p.gave ∧ p.sent ≤ p.heard ∧ p.hadSync ≤ p.sent := by
  cases p with
  | ringWait r | ringName r q | ringLine r q | ringPass r =>
      have hr := r.isLt
      simp only [posts, waits, gave, hadPrio, heard, sent, hadSync]
      omega
  | _ => simp

end TaskPc

/-! ## The start task -/

namespace StartPc

variable {n : Nat}

/-- Whether the first task has been signalled. -/
@[simp] def begun : StartPc n → Nat
  | .create | .first => 0
  | _ => 1

/-- How often `sync_sem` has been waited for after the ring. -/
@[simp] def syncs1 : StartPc n → Nat
  | .create | .first => 0
  | .sync1 i => i
  | _ => n

/-- How often `prio_sem` has been signalled. -/
@[simp] def prios : StartPc n → Nat
  | .create | .first | .sync1 _ | .syncLine1 _ => 0
  | .prio i => i
  | _ => n

/-- How often `sync_sem` has been waited for after the priority test. -/
@[simp] def syncs2 : StartPc n → Nat
  | .create | .first | .sync1 _ | .syncLine1 _ | .prio _ | .line1 _ => 0
  | .sync2 i => i
  | _ => n

/-- How many strings have been sent. -/
@[simp] def sent : StartPc n → Nat
  | .create | .first | .sync1 _ | .syncLine1 _ | .prio _ | .line1 _ | .sync2 _ | .syncLine2 _
  | .testing _ => 0
  | .send i => i
  | _ => n

/-- How many strings have been received. -/
@[simp] def heard : StartPc n → Nat
  | .create | .first | .sync1 _ | .syncLine1 _ | .prio _ | .line1 _ | .sync2 _ | .syncLine2 _
  | .testing _ | .send _ => 0
  | .receive i => i
  | .received i _ => i + 1
  | _ => n

/-- How often `sync_sem` has been signalled. -/
@[simp] def gave : StartPc n → Nat
  | .sync3 i => i
  | .complete _ | .cleanup | .suspended => n
  | _ => 0

/-- Whether `print_sem` is held. -/
@[simp] def inside : StartPc n → Nat
  | .syncLine1 p | .line1 p | .syncLine2 p | .testing p | .received _ p | .line2 p
  | .complete p => p.inside
  | _ => 0

/-- A bound for the calls that are left. -/
@[simp] def left : StartPc n → Nat
  | .create => 9 * n + 25
  | .first => 9 * n + 24
  | .sync1 i => 9 * n + 23 - i
  | .syncLine1 p => 8 * n + 20 + p.left
  | .prio i => 8 * n + 20 - i
  | .line1 p => 7 * n + 17 + p.left
  | .sync2 i => 7 * n + 17 - i
  | .syncLine2 p => 6 * n + 14 + p.left
  | .testing p => 6 * n + 11 + p.left
  | .send i => 6 * n + 11 - i
  | .receive i => 5 * n + 11 - 4 * i
  | .received i p => 5 * n + 7 - 4 * i + p.left
  | .line2 p => n + 5 + p.left
  | .sync3 i => n + 5 - i
  | .complete p => 1 + p.left
  | .cleanup => 1
  | .suspended => 0

/-- The order of the code. -/
theorem order (p : StartPc n) :
    p.begun ≤ 1 ∧ p.syncs1 ≤ n * p.begun ∧ p.prios ≤ n ∧ (0 < p.prios → p.syncs1 = n) ∧
      p.syncs2 ≤ n ∧ (0 < p.syncs2 → p.prios = n) ∧ p.sent ≤ n ∧ (0 < p.sent → p.syncs2 = n) ∧
      p.heard ≤ n ∧ (0 < p.heard → p.sent = n) ∧ p.gave ≤ n ∧ (0 < p.gave → p.heard = n) := by
  cases p with
  | received i q =>
      have hi : i.val + 1 ≤ n := i.isLt
      simp [hi]
  | _ => simp

end StartPc

/-! ## The tally -/

section

variable {n : Nat} [NeZero n]

/-- The tokens that a task has taken and not given back. -/
def TaskPc.held (i : Fin n) (p : TaskPc) : Sem n → Int
  | .sems j => (if j = i then (p.waits : Int) else 0) - if j = i + 1 then (p.posts : Int) else 0
  | .sync_sem => (p.hadSync : Int) - p.gave
  | .prio_sem => p.hadPrio
  | .print_sem => p.inside

def TaskPc.said (strs : Nat → String) (i : Fin n) (p : TaskPc) : Mbx → List String
  | .mbx_in => []
  | .mbx_out => if p.sent = 1 then [strs i] else []

def StartPc.held (p : StartPc n) : Sem n → Int
  | .sems j => if j = 0 then -(p.begun : Int) else 0
  | .sync_sem => (p.syncs1 : Int) + p.syncs2 - p.gave
  | .prio_sem => -(p.prios : Int)
  | .print_sem => p.inside

def StartPc.said (strs : Nat → String) (p : StartPc n) : Mbx → List String
  | .mbx_in => (List.range p.sent).map strs
  | .mbx_out => []

/-- A task that takes or gives a token. -/
theorem TaskPc.held_next {strs : Nat → String} {i : Fin n} {p : TaskPc} {st : Call n}
    (h : p.stmt strs i = some st) (served : Bool) (s : Sem n) :
    (p.next i served).held i s = p.held i s + st.takes s := by
  cases p with
  | ringWait r =>
      cases h
      cases s with
      | sems j =>
          show (if j = i then (r.val + 1 : Int) else 0) - (if j = i + 1 then (r.val : Int) else 0) =
            (if j = i then (r.val : Int) else 0) - (if j = i + 1 then (r.val : Int) else 0) +
              if Sem.sems i = Sem.sems j then 1 else 0
          simp only [Sem.sems.injEq, eq_comm (a := i)]
          split_ifs <;> omega
      | _ => rfl
  | ringPass r =>
      cases h
      have hround : ((TaskPc.ringPass r).next i served).waits = r.val + 1 ∧
          ((TaskPc.ringPass r).next i served).posts = r.val + 1 := by
        simp only [next]
        split
        · exact ⟨rfl, rfl⟩
        · have hr := r.isLt
          exact ⟨by simp only [waits]; omega, by simp only [posts]; omega⟩
      cases s with
      | sems j =>
          show (if j = i then (((TaskPc.ringPass r).next i served).waits : Int) else 0) -
              (if j = i + 1 then (((TaskPc.ringPass r).next i served).posts : Int) else 0) =
            (if j = i then (r.val + 1 : Int) else 0) - (if j = i + 1 then (r.val : Int) else 0) +
              if Sem.sems (i + 1) = Sem.sems j then -1 else 0
          rw [hround.1, hround.2]
          simp only [Sem.sems.injEq, eq_comm (a := i + 1)]
          split_ifs <;> omega
      | _ =>
          simp only [next]
          split <;> rfl
  | ringName r q =>
      cases h
      by_cases hlast : i.val = n - 1 <;> cases q <;> cases s <;>
        simp [hlast, next, held, Stmt.takes]
  | receiveTimed =>
      cases h
      cases served <;> cases s <;> simp [next, held, Stmt.takes]
  | ringLine r q | name q | semTimeout q | received q | mbxTimeout q | complete q =>
      cases q <;> cases h <;> cases s <;>
        simp [next, held, Stmt.takes]
  | _ =>
      cases h <;> cases s <;> simp [next, held, Stmt.takes]

theorem TaskPc.said_next {strs : Nat → String} {i : Fin n} {p : TaskPc} {st : Call n}
    (h : p.stmt strs i = some st) (served : Bool) (m : Mbx) :
    (p.next i served).said strs i m = p.said strs i m ++ st.puts m ∧
      (if m = .mbx_in then (p.next i served).heard else 0) =
        (if m = .mbx_in then p.heard else 0) + st.gets m := by
  cases p with
  | ringPass r =>
      cases h
      simp only [next]
      split <;> cases m <;> simp [said, Stmt.puts, Stmt.gets]
  | ringName r q =>
      cases h
      by_cases hlast : i.val = n - 1 <;> cases q <;> cases m <;>
        simp [hlast, next, said, Stmt.puts, Stmt.gets]
  | receiveTimed =>
      cases h
      cases served <;> cases m <;> simp [next, said, Stmt.puts, Stmt.gets]
  | ringLine r q | name q | semTimeout q | received q | mbxTimeout q | complete q =>
      cases q <;> cases h <;> cases m <;>
        simp [next, said, Stmt.puts, Stmt.gets]
  | _ =>
      cases h <;> cases m <;> simp [next, said, Stmt.puts, Stmt.gets]

theorem TaskPc.left_next {strs : Nat → String} {i : Fin n} {p : TaskPc} {st : Call n}
    (h : p.stmt strs i = some st) (served : Bool) : (p.next i served).left < p.left := by
  cases p with
  | ringPass r =>
      simp only [next]
      split
      · simp only [left]
        omega
      · simp only [left]
        omega
  | ringName r q =>
      by_cases hlast : i.val = n - 1 <;> cases q <;> simp [hlast, next]
  | receiveTimed => cases served <;> simp [next]
  | suspended => cases h
  | ringLine r q | name q | semTimeout q | received q | mbxTimeout q | complete q =>
      cases q <;> simp [next]
  | _ => simp [next]

omit [NeZero n] in
/-- A round of a loop, and the last. -/
theorem loop_cases (i : Fin n) (again : Fin n → StartPc n) (done : StartPc n) :
    (∃ h : i.val + 1 < n, loop i again done = again ⟨i.val + 1, h⟩) ∨
      i.val + 1 = n ∧ loop i again done = done := by
  unfold loop
  by_cases h : i.val + 1 < n
  · exact .inl ⟨h, dif_pos h⟩
  · exact .inr ⟨by omega, dif_neg h⟩

theorem StartPc.held_next {strs : Nat → String} {p : StartPc n} {st : Call n}
    (h : p.stmt strs = some st) (s : Sem n) : p.next.held s = p.held s + st.takes s := by
  cases p with
  | first =>
      cases h
      cases s with
      | sems j =>
          show (if j = 0 then (-1 : Int) else 0) = (if j = 0 then 0 else 0) +
            if Sem.sems 0 = Sem.sems j then -1 else 0
          simp only [Sem.sems.injEq, eq_comm (a := (0 : Fin n))]
          split_ifs <;> rfl
      | _ => simp [next, held, Stmt.takes]
  | sync1 i | prio i | sync2 i | send i | sync3 i =>
      cases h
      simp only [next]
      obtain ⟨hlt, heq⟩ | ⟨hlast, heq⟩ := loop_cases i _ _
      · rw [heq]
        cases s <;> simp [held, Stmt.takes]
        all_goals omega
      · rw [heq]
        cases s <;> simp [held, Stmt.takes]
        all_goals omega
  | received i q =>
      simp only [next]
      cases q with
      | give =>
          cases h
          simp only [PrintPc.andThen]
          obtain ⟨hlt, heq⟩ | ⟨hlast, heq⟩ := loop_cases i .receive (.line2 .take)
          · rw [heq]
            cases s <;> simp [held, Stmt.takes]
          · rw [heq]
            cases s <;> simp [held, Stmt.takes]
      | _ => cases h; cases s <;> simp [held, Stmt.takes]
  | syncLine1 q | line1 q | syncLine2 q | testing q | line2 q | complete q =>
      cases q <;> cases h <;> cases s <;>
        simp [next, held, Stmt.takes]
  | _ =>
      cases h <;> cases s <;> simp [next, held, Stmt.takes]

theorem StartPc.said_next {strs : Nat → String} {p : StartPc n} {st : Call n}
    (h : p.stmt strs = some st) (m : Mbx) :
    p.next.said strs m = p.said strs m ++ st.puts m ∧
      (if m = .mbx_out then p.next.heard else 0) =
        (if m = .mbx_out then p.heard else 0) + st.gets m := by
  cases p with
  | sync1 i | prio i | sync2 i | sync3 i =>
      cases h
      simp only [next]
      obtain ⟨hlt, heq⟩ | ⟨hlast, heq⟩ := loop_cases i _ _
      · rw [heq]
        cases m <;> simp [said, Stmt.puts, Stmt.gets]
      · rw [heq]
        cases m <;> simp [said, Stmt.puts, Stmt.gets]
  | send i =>
      cases h
      simp only [next]
      obtain ⟨hlt, heq⟩ | ⟨hlast, heq⟩ := loop_cases i .send (.receive 0)
      · rw [heq]
        cases m <;> simp [said, Stmt.puts, Stmt.gets, List.range_succ]
      · rw [heq]
        cases m <;> simp [said, Stmt.puts, Stmt.gets, ← hlast, List.range_succ]
  | received i q =>
      simp only [next]
      cases q with
      | give =>
          cases h
          simp only [PrintPc.andThen]
          obtain ⟨hlt, heq⟩ | ⟨hlast, heq⟩ := loop_cases i .receive (.line2 .take)
          · rw [heq]
            cases m <;> simp [said, Stmt.puts, Stmt.gets]
          · rw [heq]
            cases m <;> simp [said, Stmt.puts, Stmt.gets, hlast]
      | _ => cases h; cases m <;> simp [said, Stmt.puts, Stmt.gets]
  | syncLine1 q | line1 q | syncLine2 q | testing q | line2 q | complete q =>
      cases q <;> cases h <;> cases m <;> simp [next, said, Stmt.puts, Stmt.gets]
  | _ =>
      cases h <;> cases m <;> simp [next, said, Stmt.puts, Stmt.gets]

theorem StartPc.left_next {strs : Nat → String} {p : StartPc n} {st : Call n}
    (h : p.stmt strs = some st) : p.next.left < p.left := by
  cases p with
  | sync1 i | prio i | sync2 i | send i | sync3 i =>
      simp only [next]
      obtain ⟨hlt, heq⟩ | ⟨hlast, heq⟩ := loop_cases i _ _
      · rw [heq]
        simp only [left]
        omega
      · rw [heq]
        simp only [left, PrintPc.left, Fin.val_zero]
        omega
  | received i q =>
      simp only [next]
      cases q with
      | give =>
          simp only [PrintPc.andThen]
          obtain ⟨hlt, heq⟩ | ⟨hlast, heq⟩ := loop_cases i .receive (.line2 .take)
          · rw [heq]
            simp only [left, PrintPc.left]
            omega
          · rw [heq]
            simp only [left, PrintPc.left]
            omega
      | _ => simp
  | receive i =>
      simp only [next, left, PrintPc.left]
      omega
  | suspended => cases h
  | syncLine1 q | line1 q | syncLine2 q | testing q | line2 q | complete q =>
      cases q <;> simp [next]
  | _ => simp [next]

/-- The tally of the program. -/
def tally (n : Nat) [NeZero n] (strs : Nat → String) : Tally (threads n strs) where
  held
    | none, p => StartPc.held p
    | some i, p => TaskPc.held i p
  said
    | none, p => StartPc.said strs p
    | some i, p => TaskPc.said strs i p
  heard
    | none, p => fun m => if m = .mbx_out then StartPc.heard p else 0
    | some _, p => fun m => if m = .mbx_in then TaskPc.heard p else 0
  left
    | none, p => StartPc.left p
    | some _, p => TaskPc.left p
  start k := by
    cases k with
    | none =>
        refine ⟨fun s => ?_, fun m => ?_⟩
        · cases s <;> simp [threads, StartPc.held]
        · cases m <;> simp [threads, StartPc.said]
    | some i =>
        refine ⟨fun s => ?_, fun m => ?_⟩
        · cases s <;> simp [threads, TaskPc.held]
        · cases m <;> simp [threads, TaskPc.said]
  next k p st served h := by
    cases k with
    | none =>
        exact ⟨fun s => StartPc.held_next h s, fun m => (StartPc.said_next h m).1,
          fun m => (StartPc.said_next h m).2, StartPc.left_next h⟩
    | some i =>
        exact ⟨fun s => TaskPc.held_next h served s, fun m => (TaskPc.said_next h served m).1,
          fun m => (TaskPc.said_next h served m).2, TaskPc.left_next h served⟩

end

end RtaiDemos.Namedstuff
