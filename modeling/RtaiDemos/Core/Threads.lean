import Mathlib.Algebra.BigOperators.Ring.Finset
import Mathlib.Algebra.Order.BigOperators.Group.Finset
import RtaiDemos.Core.TSys

/-!
# Threads over semaphores and mailboxes

Threads whose next call depends only on where they stand. A call may wait for a
token of a counting semaphore or for a message, at most until some time if it is
timed; who waits first is not kept, so a token may go to any thread that asks.
What a thread has taken, given, sent and received so far can be read off its
place (`Tally`), and with that the counts of all semaphores and the contents of
all mailboxes (`balanced`).
-/

namespace RtaiDemos

/-- A call, for semaphores `S`, mailboxes `M` of messages `V`, and a log of lines `L`;
a line may show the last message received. -/
inductive Stmt (S M V L : Type)
  | wait (s : S)
  | signal (s : S)
  | waitTimed (s : S)
  | send (m : M) (v : V)
  | receive (m : M)
  | receiveTimed (m : M)
  | print (line : Option V → L)
  | pass

namespace Stmt

variable {S M V L : Type} [DecidableEq S] [DecidableEq M]

/-- The tokens of a semaphore that a call takes for good; it gives one for `-1`. -/
def takes (s : S) : Stmt S M V L → Int
  | .wait s' => if s' = s then 1 else 0
  | .signal s' => if s' = s then -1 else 0
  | _ => 0

/-- What a call puts into a mailbox. -/
def puts (m : M) : Stmt S M V L → List V
  | .send m' v => if m' = m then [v] else []
  | _ => []

/-- How many messages a call gets from a mailbox. -/
def gets (m : M) : Stmt S M V L → Nat
  | .receive m' => if m' = m then 1 else 0
  | _ => 0

/-- The lines a call adds to the log. -/
def prints (buf : Option V) : Stmt S M V L → List L
  | .print line => [line buf]
  | _ => []

end Stmt

/-- The code of the threads `K`. `next` is told whether a timed call was served. -/
structure Threads (K S M V L : Type) where
  Pc : K → Type
  start : ∀ k, Pc k
  stmt : ∀ k, Pc k → Option (Stmt S M V L)
  next : ∀ k, Pc k → Bool → Pc k
  tokens : S → Nat
  room : M → Nat

namespace Threads

variable {K S M V L : Type}

/-- A state: where the threads stand, the last message each has received, the
semaphores, the mailboxes, the log. `extra` and `late` count what timed calls got,
`sent` and `got` are the messages so far with their threads; no step reads them. -/
structure Config (T : Threads K S M V L) where
  pc : ∀ k, T.Pc k
  buf : K → Option V
  count : S → Nat
  box : M → List V
  log : List L
  extra : S → Nat
  late : M → Nat
  sent : M → List (K × V)
  got : M → List (K × V)

variable {T : Threads K S M V L} [DecidableEq K] [DecidableEq S] [DecidableEq M]

/-- The thread goes on. -/
def Config.move (σ : Config T) (k : K) (served : Bool) : Config T :=
  { σ with pc := Function.update σ.pc k (T.next k (σ.pc k) served) }

/-- A message goes to the thread. -/
def Config.deliver (σ : Config T) (k : K) (m : M) (v : V) (rest : List V) : Config T :=
  { σ with
    box := Function.update σ.box m rest
    buf := Function.update σ.buf k (some v)
    got := Function.update σ.got m (σ.got m ++ [(k, v)]) }

/-- A thread makes a call; `expired` ends a timed call that waits. -/
def Config.call (σ : Config T) (k : K) (expired : Bool) : Stmt S M V L → Option (Config T)
  | .wait s =>
    if σ.count s = 0 then none
    else some { σ.move k true with count := Function.update σ.count s (σ.count s - 1) }
  | .signal s =>
    some { σ.move k true with count := Function.update σ.count s (σ.count s + 1) }
  | .waitTimed s =>
    if σ.count s = 0 then if expired then some (σ.move k false) else none
    else some { σ.move k true with
      count := Function.update σ.count s (σ.count s - 1)
      extra := Function.update σ.extra s (σ.extra s + 1) }
  | .send m v =>
    if (σ.box m).length < T.room m then
      some { σ.move k true with
        box := Function.update σ.box m (σ.box m ++ [v])
        sent := Function.update σ.sent m (σ.sent m ++ [(k, v)]) }
    else none
  | .receive m =>
    match σ.box m with
    | [] => none
    | v :: rest => some ((σ.move k true).deliver k m v rest)
  | .receiveTimed m =>
    match σ.box m with
    | [] => if expired then some (σ.move k false) else none
    | v :: rest => some { (σ.move k true).deliver k m v rest with
        late := Function.update σ.late m (σ.late m + 1) }
  | .print line => some { σ.move k true with log := σ.log ++ [line (σ.buf k)] }
  | .pass => some (σ.move k true)

/-- One step of a thread. -/
def Config.next (σ : Config T) (l : K × Bool) : Option (Config T) :=
  (T.stmt l.1 (σ.pc l.1)).bind (σ.call l.1 l.2)

/-- No thread can move. -/
def Config.Stuck (σ : Config T) : Prop := ∀ l, σ.next l = none

/-- A call that waits. -/
def Config.Waits (σ : Config T) : Stmt S M V L → Prop
  | .wait s => σ.count s = 0
  | .send m _ => T.room m ≤ (σ.box m).length
  | .receive m => σ.box m = []
  | _ => False

/-- When no thread can move, each has ended or waits. -/
theorem Config.Stuck.waits {σ : Config T} (h : σ.Stuck) {k : K} {st : Stmt S M V L}
    (hst : T.stmt k (σ.pc k) = some st) : σ.Waits st := by
  have hcall : σ.call k true st = none := by
    have hk := h (k, true)
    rw [Config.next, hst] at hk
    exact hk
  cases st with
  | wait s =>
      by_contra hne
      simp only [Config.Waits] at hne
      simp [Config.call, hne] at hcall
  | waitTimed s =>
      simp only [Config.call, if_true] at hcall
      split at hcall <;> cases hcall
  | send m v =>
      by_contra hne
      simp only [Config.Waits, not_le] at hne
      simp [Config.call, hne] at hcall
  | receive m =>
      simp only [Config.call] at hcall
      split at hcall
      · assumption
      · cases hcall
  | receiveTimed m =>
      simp only [Config.call, if_true] at hcall
      split at hcall <;> cases hcall
  | signal s => cases hcall
  | print line => cases hcall
  | pass => cases hcall

/-- The state in which all threads begin. -/
def initial (T : Threads K S M V L) : Config T :=
  { pc := T.start
    buf := fun _ => none
    count := T.tokens
    box := fun _ => []
    log := []
    extra := fun _ => 0
    late := fun _ => 0
    sent := fun _ => []
    got := fun _ => [] }

/-- The threads in any order. -/
def machine (T : Threads K S M V L) : TSys (Config T) (K × Bool) where
  init σ := σ = T.initial
  next := Config.next

/-- What a thread that stands somewhere has done so far: the tokens it has taken and not
given back, the messages it has sent and how many it has received; and how many calls
are left to it. What timed calls got is not counted. -/
structure Tally (T : Threads K S M V L) where
  held : ∀ k, T.Pc k → S → Int
  said : ∀ k, T.Pc k → M → List V
  heard : ∀ k, T.Pc k → M → Nat
  left : ∀ k, T.Pc k → Nat
  start : ∀ k, (∀ s, held k (T.start k) s = 0) ∧ ∀ m, said k (T.start k) m = [] ∧
    heard k (T.start k) m = 0
  next : ∀ k pc st served, T.stmt k pc = some st →
    (∀ s, held k (T.next k pc served) s = held k pc s + st.takes s) ∧
    (∀ m, said k (T.next k pc served) m = said k pc m ++ st.puts m) ∧
    (∀ m, heard k (T.next k pc served) m = heard k pc m + st.gets m) ∧
    left k (T.next k pc served) < left k pc

/-- What a step of thread `k` at the call `st` does. -/
structure Moved (σ σ' : Config T) (k : K) (st : Stmt S M V L) : Prop where
  pc : ∃ served, σ'.pc = Function.update σ.pc k (T.next k (σ.pc k) served)
  count : ∀ s, (σ'.count s : Int) + st.takes s + σ'.extra s = σ.count s + σ.extra s
  sent : ∀ m, σ'.sent m = σ.sent m ++ (st.puts m).map fun v => (k, v)
  got : ∀ m, ∃ new, σ'.got m = σ.got m ++ new.map (fun v => (k, v)) ∧
    new ++ σ'.box m = σ.box m ++ st.puts m ∧ new.length + σ.late m = st.gets m + σ'.late m
  log : σ'.log = σ.log ++ st.prints (σ.buf k)

/-- The parts of `Moved` for a call that leaves the mailboxes alone. -/
theorem Moved.of_count {σ σ' : Config T} {k : K} {st : Stmt S M V L} (served : Bool)
    (hpc : σ'.pc = Function.update σ.pc k (T.next k (σ.pc k) served))
    (hcount : ∀ s, (σ'.count s : Int) + st.takes s + σ'.extra s = σ.count s + σ.extra s)
    (hst : ∀ m, st.puts m = [] ∧ st.gets m = 0) (hbox : σ'.box = σ.box)
    (hsent : σ'.sent = σ.sent) (hgot : σ'.got = σ.got) (hlate : σ'.late = σ.late)
    (hlog : σ'.log = σ.log ++ st.prints (σ.buf k)) : Moved σ σ' k st := by
  refine ⟨⟨served, hpc⟩, hcount, ?_, ?_, hlog⟩
  · intro m
    rw [(hst m).1, hsent, List.map_nil, List.append_nil]
  · intro m
    refine ⟨[], ?_, ?_, ?_⟩
    · rw [hgot, List.map_nil, List.append_nil]
    · rw [(hst m).1, hbox, List.append_nil, List.nil_append]
    · rw [(hst m).2, hlate, List.length_nil]

/-- A message goes from a mailbox to the thread. -/
theorem Moved.of_deliver {σ σ' : Config T} {k : K} {st : Stmt S M V L} {m : M} {v : V}
    {rest : List V} (hbox : σ.box m = v :: rest)
    (hpc : σ'.pc = Function.update σ.pc k (T.next k (σ.pc k) true))
    (hst : ∀ s, st.takes s = 0) (hputs : ∀ m, st.puts m = [])
    (hcount : σ'.count = σ.count) (hextra : σ'.extra = σ.extra) (hsent : σ'.sent = σ.sent)
    (hbox' : σ'.box = Function.update σ.box m rest)
    (hgot : σ'.got = Function.update σ.got m (σ.got m ++ [(k, v)]))
    (hlate : ∀ m', (if m' = m then 1 else 0) + σ.late m' = st.gets m' + σ'.late m')
    (hlog : σ'.log = σ.log ++ st.prints (σ.buf k)) : Moved σ σ' k st := by
  refine ⟨⟨true, hpc⟩, ?_, ?_, ?_, hlog⟩
  · intro s
    rw [hcount, hextra, hst, Int.add_zero]
  · intro m'
    rw [hputs, hsent, List.map_nil, List.append_nil]
  · intro m'
    have hlate := hlate m'
    rw [hputs, hgot, hbox', List.append_nil]
    by_cases hm : m' = m
    · subst hm
      refine ⟨[v], ?_, ?_, ?_⟩
      · rw [Function.update_self]
        rfl
      · rw [Function.update_self, hbox]
        rfl
      · rw [if_pos rfl] at hlate
        exact hlate
    · refine ⟨[], ?_, ?_, ?_⟩
      · rw [Function.update_of_ne hm, List.map_nil, List.append_nil]
      · rw [Function.update_of_ne hm, List.nil_append]
      · rw [if_neg hm] at hlate
        exact hlate

/-- What one step can do. -/
theorem next_moved {σ σ' : Config T} {k : K} {e : Bool} (h : σ.next (k, e) = some σ') :
    ∃ st, T.stmt k (σ.pc k) = some st ∧ Moved σ σ' k st := by
  obtain ⟨st, hst, h⟩ := Option.bind_eq_some_iff.mp h
  refine ⟨st, hst, ?_⟩
  have hsame : ∀ s : S, (σ.count s : Int) + 0 + σ.extra s = σ.count s + σ.extra s := by
    intro s
    rw [Int.add_zero]
  have hlog : σ.log = σ.log ++ [] := (List.append_nil _).symm
  have hsub : ∀ (s s' : S) (c : Nat) (d : Nat), σ.count s ≠ 0 → c = σ.count s - 1 →
      (Function.update σ.count s c s' : Int) + (if s = s' then 1 else 0) + d =
        σ.count s' + d := by
    intro s s' c d hne hc
    by_cases hs : s' = s
    · subst hs
      rw [Function.update_self, if_pos rfl]
      omega
    · rw [Function.update_of_ne hs, if_neg (Ne.symm hs)]
      omega
  cases st with
  | wait s =>
      simp only [Config.call] at h
      split at h
      · cases h
      · rename_i hne
        cases h
        exact .of_count true rfl (fun s' => hsub s s' _ _ hne rfl) (fun _ => ⟨rfl, rfl⟩) rfl rfl
          rfl rfl hlog
  | signal s =>
      cases h
      refine .of_count true rfl (fun s' => ?_) (fun _ => ⟨rfl, rfl⟩) rfl rfl rfl rfl hlog
      show (Function.update σ.count s (σ.count s + 1) s' : Int) + (if s = s' then -1 else 0) +
        σ.extra s' = σ.count s' + σ.extra s'
      by_cases hs : s' = s
      · subst hs
        rw [Function.update_self, if_pos rfl]
        omega
      · rw [Function.update_of_ne hs, if_neg (Ne.symm hs)]
        omega
  | waitTimed s =>
      simp only [Config.call] at h
      split at h
      · split at h
        · cases h
          exact .of_count false rfl hsame (fun _ => ⟨rfl, rfl⟩) rfl rfl rfl rfl hlog
        · cases h
      · rename_i hne
        cases h
        refine .of_count true rfl (fun s' => ?_) (fun _ => ⟨rfl, rfl⟩) rfl rfl rfl rfl hlog
        show (Function.update σ.count s (σ.count s - 1) s' : Int) + 0 +
          (Function.update σ.extra s (σ.extra s + 1) s' : Nat) = σ.count s' + σ.extra s'
        by_cases hs : s' = s
        · subst hs
          rw [Function.update_self, Function.update_self]
          omega
        · rw [Function.update_of_ne hs, Function.update_of_ne hs]
          omega
  | send m v =>
      simp only [Config.call] at h
      split at h
      · cases h
        refine ⟨⟨true, rfl⟩, hsame, ?_, ?_, hlog⟩
        · intro m'
          show Function.update σ.sent m (σ.sent m ++ [(k, v)]) m' =
            σ.sent m' ++ (if m = m' then [v] else []).map _
          by_cases hm : m' = m
          · subst hm
            rw [Function.update_self, if_pos rfl]
            rfl
          · rw [Function.update_of_ne hm, if_neg (Ne.symm hm), List.map_nil, List.append_nil]
        · intro m'
          refine ⟨[], by rw [List.map_nil, List.append_nil]; rfl, ?_, ?_⟩
          · show [] ++ Function.update σ.box m (σ.box m ++ [v]) m' =
              σ.box m' ++ if m = m' then [v] else []
            by_cases hm : m' = m
            · subst hm
              rw [Function.update_self, if_pos rfl, List.nil_append]
            · rw [Function.update_of_ne hm, if_neg (Ne.symm hm), List.append_nil, List.nil_append]
          · rfl
      · cases h
  | receive m =>
      simp only [Config.call] at h
      split at h
      · cases h
      · rename_i v rest hbox
        cases h
        refine .of_deliver hbox rfl (fun _ => rfl) (fun _ => rfl) rfl rfl rfl rfl rfl
          (fun m' => ?_) hlog
        show (if m' = m then 1 else 0) + σ.late m' = (if m = m' then 1 else 0) + σ.late m'
        simp only [eq_comm]
  | receiveTimed m =>
      simp only [Config.call] at h
      split at h
      · split at h
        · cases h
          exact .of_count false rfl hsame (fun _ => ⟨rfl, rfl⟩) rfl rfl rfl rfl hlog
        · cases h
      · rename_i v rest hbox
        cases h
        refine .of_deliver hbox rfl (fun _ => rfl) (fun _ => rfl) rfl rfl rfl rfl rfl
          (fun m' => ?_) hlog
        show (if m' = m then 1 else 0) + σ.late m' =
          0 + Function.update σ.late m (σ.late m + 1) m'
        by_cases hm : m' = m
        · subst hm
          rw [Function.update_self, if_pos rfl]
          omega
        · rw [Function.update_of_ne hm, if_neg hm]
  | print line =>
      cases h
      exact .of_count true rfl hsame (fun _ => ⟨rfl, rfl⟩) rfl rfl rfl rfl rfl
  | pass =>
      cases h
      exact .of_count true rfl hsame (fun _ => ⟨rfl, rfl⟩) rfl rfl rfl rfl hlog

/-- A call that waits for a token goes on only if there is one. -/
theorem next_wait {σ σ' : Config T} {k : K} {e : Bool} {s : S} (h : σ.next (k, e) = some σ')
    (hst : T.stmt k (σ.pc k) = some (.wait s)) : σ.count s ≠ 0 := by
  intro hzero
  simp [Config.next, hst, Config.call, hzero] at h

/-- Only a timed call that is served changes the counts of timed calls. -/
theorem next_timed {σ σ' : Config T} {k : K} {e : Bool} (h : σ.next (k, e) = some σ') :
    (∀ s, σ'.extra s = σ.extra s ∨ T.stmt k (σ.pc k) = some (.waitTimed s)) ∧
      ∀ m, σ'.late m = σ.late m ∨
        T.stmt k (σ.pc k) = some (.receiveTimed m) ∧ σ.box m ≠ [] := by
  obtain ⟨st, hst, h⟩ := Option.bind_eq_some_iff.mp h
  change T.stmt k (σ.pc k) = some st at hst
  rw [hst]
  cases st with
  | waitTimed s =>
      simp only [Config.call] at h
      split at h
      · split at h
        · cases h
          exact ⟨fun _ => .inl rfl, fun _ => .inl rfl⟩
        · cases h
      · cases h
        refine ⟨fun s' => ?_, fun _ => .inl rfl⟩
        by_cases hs : s' = s
        · rw [hs]
          exact .inr rfl
        · exact .inl (Function.update_of_ne hs _ _)
  | receiveTimed m =>
      simp only [Config.call] at h
      split at h
      · split at h
        · cases h
          exact ⟨fun _ => .inl rfl, fun _ => .inl rfl⟩
        · cases h
      · rename_i v rest hbox
        cases h
        refine ⟨fun _ => .inl rfl, fun m' => ?_⟩
        by_cases hm : m' = m
        · rw [hm, hbox]
          exact .inr ⟨rfl, List.cons_ne_nil _ _⟩
        · exact .inl (Function.update_of_ne hm _ _)
  | wait s =>
      simp only [Config.call] at h
      split at h
      · cases h
      · cases h
        exact ⟨fun _ => .inl rfl, fun _ => .inl rfl⟩
  | send m v =>
      simp only [Config.call] at h
      split at h
      · cases h
        exact ⟨fun _ => .inl rfl, fun _ => .inl rfl⟩
      · cases h
  | receive m =>
      simp only [Config.call] at h
      split at h
      · cases h
      · cases h
        exact ⟨fun _ => .inl rfl, fun _ => .inl rfl⟩
  | signal s | print line | pass =>
      cases h
      exact ⟨fun _ => .inl rfl, fun _ => .inl rfl⟩

variable [Fintype K]

/-- The semaphores and mailboxes have what the threads have left there. -/
structure Tally.Balanced (Y : Tally T) (σ : Config T) : Prop where
  tokens : ∀ s, (σ.count s : Int) + ∑ k, Y.held k (σ.pc k) s + σ.extra s = T.tokens s
  fifo : ∀ m, (σ.sent m).map Prod.snd = (σ.got m).map Prod.snd ++ σ.box m
  said : ∀ m k, ((σ.sent m).filter (·.1 = k)).map Prod.snd = Y.said k (σ.pc k) m
  heard : ∀ m, (σ.got m).length = ∑ k, Y.heard k (σ.pc k) m + σ.late m

omit [DecidableEq S] [DecidableEq M] in
/-- A sum over the threads when one of them moves. -/
theorem sum_move {α : Type} [AddCommMonoid α] (f : ∀ k, T.Pc k → α) (pc : ∀ k, T.Pc k) (k : K)
    (p : T.Pc k) :
    ∑ j, f j (Function.update pc k p j) + f k (pc k) = ∑ j, f j (pc j) + f k p := by
  have hsplit : ∀ g : K → α, ∑ j, g j = g k + ∑ j ∈ Finset.univ.erase k, g j :=
    fun g => (Finset.add_sum_erase Finset.univ g (Finset.mem_univ k)).symm
  have hrest : ∑ j ∈ Finset.univ.erase k, f j (Function.update pc k p j) =
      ∑ j ∈ Finset.univ.erase k, f j (pc j) := by
    refine Finset.sum_congr rfl fun j hj => ?_
    rw [Function.update_of_ne (Finset.ne_of_mem_erase hj)]
  rw [hsplit, hsplit fun j => f j (pc j), hrest, Function.update_self, add_comm,
    add_assoc (f k (pc k)), add_comm (f k p)]

variable {Y : Tally T} {σ σ' : Config T}

theorem Tally.Balanced.step (h : Y.Balanced σ) {l : K × Bool} (hnext : σ.next l = some σ') :
    Y.Balanced σ' := by
  obtain ⟨k, e⟩ := l
  obtain ⟨st, hst, ⟨served, hpc⟩, hcount, hsent, hgot, -⟩ := next_moved hnext
  obtain ⟨hheld, hsaid, hheard, -⟩ := Y.next k (σ.pc k) st served hst
  refine ⟨?_, ?_, ?_, ?_⟩
  · intro s
    have hold := h.tokens s
    have hthis := hcount s
    have hsum := sum_move (fun k p => Y.held k p s) σ.pc k (T.next k (σ.pc k) served)
    simp only [← hpc, hheld s] at hsum
    omega
  · intro m
    obtain ⟨new, hg, hbox, -⟩ := hgot m
    have hval : ∀ vs : List V, (vs.map fun v => (k, v)).map Prod.snd = vs := by
      intro vs
      rw [List.map_map]
      exact List.map_id vs
    rw [hsent, hg, List.map_append, List.map_append, hval, hval, h.fifo, List.append_assoc,
      List.append_assoc, hbox]
  · intro m j
    rw [hsent, hpc, List.filter_append, List.map_append, h.said]
    by_cases hj : j = k
    · subst hj
      rw [Function.update_self, hsaid, List.filter_eq_self.mpr (by simp), List.map_map]
      exact congrArg _ (List.map_id _)
    · rw [Function.update_of_ne hj, List.filter_eq_nil_iff.mpr (by simp [Ne.symm hj]), List.map_nil,
        List.append_nil]
  · intro m
    obtain ⟨new, hg, -, hlate⟩ := hgot m
    have hsum := sum_move (fun k p => Y.heard k p m) σ.pc k (T.next k (σ.pc k) served)
    simp only [← hpc, hheard m] at hsum
    have hold := h.heard m
    rw [hg, List.length_append, List.length_map]
    omega

/-- In every state of every run the semaphores and mailboxes can be read off the places
of the threads. -/
theorem balanced (Y : Tally T) : T.machine.Invariant Y.Balanced := by
  refine TSys.Invariant.of_inductive ?_ fun σ σ' l h hnext => h.step hnext
  rintro _ rfl
  refine ⟨?_, fun m => rfl, ?_, ?_⟩
  · intro s
    have hzero : ∑ k, Y.held k (T.start k) s = 0 :=
      Finset.sum_eq_zero fun k _ => (Y.start k).1 s
    simp [initial, hzero]
  · intro m k
    exact ((Y.start k).2 m).1.symm
  · intro m
    have hzero : ∑ k, Y.heard k (T.start k) m = 0 :=
      Finset.sum_eq_zero fun k _ => ((Y.start k).2 m).2
    simp [initial, hzero]

omit [DecidableEq S] [DecidableEq M] in
/-- Messages sorted by who has sent them. -/
theorem sum_filter (l : List (K × V)) :
    ∑ k, (((l.filter (·.1 = k)).map Prod.snd : List V) : Multiset V) =
      (l.map Prod.snd : List V) := by
  induction l with
  | nil => exact Finset.sum_eq_zero fun _ _ => rfl
  | cons a l ih =>
      have hone : ∀ k, ((((a :: l).filter (·.1 = k)).map Prod.snd : List V) : Multiset V) =
          (if a.1 = k then {a.2} else 0) + ((l.filter (·.1 = k)).map Prod.snd : List V) := by
        intro k
        by_cases hk : a.1 = k
        · rw [List.filter_cons_of_pos (by simpa using hk), if_pos hk, List.map_cons]
          rfl
        · rw [List.filter_cons_of_neg (by simpa using hk), if_neg hk, zero_add]
      simp only [hone, Finset.sum_add_distrib, ih, Finset.sum_ite_eq, Finset.mem_univ, if_true]
      rfl

/-- A mailbox has got what the threads have sent, in some order. -/
theorem Tally.Balanced.sent (h : Y.Balanced σ) (m : M) :
    (((σ.sent m).map Prod.snd : List V) : Multiset V) =
      ∑ k, (Y.said k (σ.pc k) m : Multiset V) := by
  rw [← sum_filter]
  exact Finset.sum_congr rfl fun k _ => by rw [h.said]

/-- A mailbox to which only one thread sends. -/
theorem Tally.Balanced.sent_by (h : Y.Balanced σ) {m : M} {k : K}
    (honly : ∀ j, j ≠ k → Y.said j (σ.pc j) m = []) :
    (σ.sent m).map Prod.snd = Y.said k (σ.pc k) m := by
  have hfrom : ∀ a ∈ σ.sent m, decide (a.1 = k) = true := by
    intro a ha
    rw [decide_eq_true_eq]
    by_contra hne
    have hnone := List.map_eq_nil_iff.mp ((h.said m a.1).trans (honly a.1 hne))
    exact List.filter_eq_nil_iff.mp hnone a ha (decide_eq_true rfl)
  rw [← h.said, List.filter_eq_self.mpr hfrom]

/-- How many messages are in a mailbox. -/
theorem Tally.Balanced.box_length (h : Y.Balanced σ) (m : M) :
    (σ.box m).length + ∑ k, Y.heard k (σ.pc k) m + σ.late m =
      ∑ k, (Y.said k (σ.pc k) m).length := by
  have hfifo := congrArg List.length (h.fifo m)
  have hsent := congrArg Multiset.card (h.sent m)
  rw [Multiset.coe_card, Multiset.card_sum] at hsent
  simp only [Multiset.coe_card] at hsent
  rw [List.length_append, hsent, List.length_map, h.heard] at hfifo
  omega

/-- Each step is one of the calls that were left. -/
theorem run_length (Y : Tally T) {ls : List (K × Bool)} (h : T.machine.run σ ls = some σ') :
    ls.length + ∑ k, Y.left k (σ'.pc k) ≤ ∑ k, Y.left k (σ.pc k) := by
  induction ls generalizing σ with
  | nil =>
      cases h
      rw [List.length_nil, Nat.zero_add]
  | cons l rest ih =>
      obtain ⟨σ₁, hnext, hrest⟩ := Option.bind_eq_some_iff.mp h
      obtain ⟨k, e⟩ := l
      obtain ⟨st, hst, ⟨served, hpc⟩, -⟩ := next_moved hnext
      have hleft := (Y.next k (σ.pc k) st served hst).2.2.2
      have hsum := sum_move (fun k p => Y.left k p) σ.pc k (T.next k (σ.pc k) served)
      rw [← hpc] at hsum
      have hlater := ih hrest
      rw [List.length_cons]
      omega

end Threads

end RtaiDemos
