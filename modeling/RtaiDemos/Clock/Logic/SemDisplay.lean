import RtaiDemos.Clock.SemDisplay

/-!
# What the mutex of the display guards

`Data` says what holds of the slots, the count of `notEmpty` and the history
while the holder of the mutex stands at a given statement (`idle` if nobody
holds it). Each statement takes `Data` to `Data`, and the rules of `Locked` make
an invariant of all tasks of that.
-/

namespace RtaiDemos.Clock.SemDisplay

open Tasks

/-! ## Statements -/

namespace Pc

/-- Between `rt_sem_wait(mutex)` and `rt_sem_signal(mutex)`. -/
def inside : Pc → Bool
  | .putCopy _ _ | .putMark _ | .putTest _ | .putFill _ | .putSignal | .putUnlock => true
  | .getTest | .getTake _ | .getClear _ _ | .getUnlock _ => true
  | _ => false

/-- Past `rt_sem_wait(notEmpty)`, with no slot emptied yet. -/
def passed : Pc → Nat
  | .getLock | .getTest | .getTake _ | .getClear _ _ => 1
  | _ => 0

/-- A slot has been filled and `notEmpty` not signalled. -/
def owing : Pc → Nat
  | .putSignal => 1
  | _ => 0

/-- A chain is put and its slot not yet marked full. -/
def filling : Pc → Option Slot
  | .putTest d | .putFill d => some d
  | _ => none

/-- A chain is copied and its letter not yet written. -/
def marking : Pc → Option Slot
  | .putMark d => some d
  | _ => none

/-- What is about to be returned. -/
def result : Pc → List (Option Taken)
  | .getUnlock r => [r]
  | _ => []

end Pc

/-! ## The data -/

/-- 1 for a full slot. -/
def Status.count : Status → Nat
  | .full => 1
  | .empty => 0

section

variable {T : Type} [Fintype T]

/-- How many slots are full. -/
def State.fulls (σ : State T) : Nat := (σ.status .hour).count + (σ.status .times).count

/-- The getters past `rt_sem_wait(notEmpty)` that have emptied no slot. -/
def State.passed (σ : State T) : Nat := total Pc.passed σ.pc

/-- What the tests before a statement have found. -/
def Here (σ : State T) : Pc → Prop
  | .putFill d => σ.status d = .empty
  | .getTake d => σ.status d = .full
  | .getClear d chain => σ.status d = .full ∧ chain = σ.slot d
  | .getUnlock r => r ≠ none
  | _ => True

/-- A chain of the slot has not been taken. -/
def Pending (σ : State T) (pc : Pc) (d : Slot) : Prop :=
  σ.status d = .full ∨ pc.filling = some d

/-- See the module header. -/
structure Data (σ : State T) (pc : Pc) : Prop where
  balance : σ.notEmpty + σ.passed + pc.owing = σ.fulls
  order : σ.taken.Pairwise fun r r' => r.slot = r'.slot → r.count < r'.count
  latest : ∀ r ∈ σ.taken, 0 < r.count ∧ (σ.puts r.slot)[r.count - 1]? = some r.chain
  fresh : ∀ d, Pending σ pc d → ∀ r ∈ σ.taken, r.slot = d → r.count < (σ.puts d).length
  last : ∀ d, ¬ Pending σ pc d → σ.puts d ≠ [] →
    ∃ r ∈ σ.taken, r.slot = d ∧ r.count = (σ.puts d).length
  stored : ∀ d, pc.marking ≠ some d → σ.puts d ≠ [] → (σ.puts d).getLast? = some (σ.slot d)
  put : ∀ d, Pending σ pc d → σ.puts d ≠ []
  here : Here σ pc
  returned : σ.taken.map some = σ.returned ++ pc.result

theorem Data.count_le {σ : State T} {pc : Pc} (h : Data σ pc) {r : Taken} (hr : r ∈ σ.taken) :
    r.count ≤ (σ.puts r.slot).length := by
  obtain ⟨hpos, hget⟩ := h.latest r hr
  have hlt := (List.getElem?_eq_some_iff.mp hget).1
  omega

/-- A statement that leaves the slots and the history alone. -/
theorem Data.move {σ σ' : State T} {pc pc' : Pc} (h : Data σ pc) (hstatus : σ'.status = σ.status)
    (hslot : σ'.slot = σ.slot) (hputs : σ'.puts = σ.puts) (htaken : σ'.taken = σ.taken)
    (hbalance : σ'.notEmpty + σ'.passed + pc'.owing = σ.notEmpty + σ.passed + pc.owing)
    (hpending : ∀ d, Pending σ pc' d ↔ Pending σ pc d) (hmark : pc'.marking = pc.marking)
    (hhere : Here σ pc') (hreturned : σ'.returned ++ pc'.result = σ.returned ++ pc.result) :
    Data σ' pc' := by
  have hpend : ∀ d, Pending σ' pc' d ↔ Pending σ pc d := by
    intro d
    rw [← hpending d]
    unfold Pending
    rw [hstatus]
  refine ⟨?_, ?_, ?_, ?_, ?_, ?_, ?_, ?_, ?_⟩
  · rw [hbalance, h.balance]
    unfold State.fulls
    rw [hstatus]
  · rw [htaken]
    exact h.order
  · rw [htaken, hputs]
    exact h.latest
  · intro d hd
    rw [htaken, hputs]
    exact h.fresh d ((hpend d).mp hd)
  · intro d hd
    rw [htaken, hputs]
    exact h.last d (fun hp => hd ((hpend d).mpr hp))
  · intro d hd
    rw [hmark] at hd
    rw [hputs, hslot]
    exact h.stored d hd
  · intro d hd
    rw [hputs]
    exact h.put d ((hpend d).mp hd)
  · unfold Here at hhere ⊢
    rw [hstatus, hslot]
    exact hhere
  · rw [htaken, hreturned]
    exact h.returned

end

/-! ## The statements of a call -/

section

variable {T : Type} [Fintype T] [DecidableEq T] {σ : State T} {t : T}

omit [Fintype T] in
theorem goto_self (σ : State T) (t : T) (pc : Pc) : (σ.goto t pc).pc t = pc := by
  show Function.update σ.pc t pc t = pc
  rw [Function.update_self]

omit [Fintype T] in
theorem goto_other (σ : State T) {t t' : T} (pc : Pc) (h : t' ≠ t) :
    (σ.goto t pc).pc t' = σ.pc t' := by
  show Function.update σ.pc t pc t' = σ.pc t'
  rw [Function.update_of_ne h]

theorem passed_goto (σ : State T) (t : T) (pc : Pc) :
    (σ.goto t pc).passed + (σ.pc t).passed = σ.passed + pc.passed :=
  total_update Pc.passed σ.pc t pc

theorem passed_goto_same {pc : Pc} (h : pc.passed = (σ.pc t).passed) :
    (σ.goto t pc).passed = σ.passed := by
  have hgoto := passed_goto σ t pc
  omega

/-- `hour = chain`. -/
theorem Data.copy {d : Slot} {chain : MenageHmsh_tChain11} (hpc : σ.pc t = .putCopy d chain)
    (h : Data σ (.putCopy d chain)) :
    Data { σ.goto t (.putMark d) with slot := Function.update σ.slot d chain } (.putMark d) := by
  have hpassed : (σ.goto t (.putMark d)).passed = σ.passed := passed_goto_same (by rw [hpc]; rfl)
  refine ⟨?_, h.order, h.latest, h.fresh, h.last, ?_, h.put, trivial, h.returned⟩
  · have hbalance := h.balance
    rw [← hpassed] at hbalance
    exact hbalance
  · intro d' hd' hputs
    have hne : d' ≠ d := by
      intro he
      rw [he] at hd'
      exact hd' rfl
    show _ = some (Function.update σ.slot d chain d')
    rw [Function.update_of_ne hne]
    exact h.stored d' (by simp [Pc.marking]) hputs

/-- `hour.chain[0] = 'h'`. -/
theorem Data.mark {d : Slot} (hpc : σ.pc t = .putMark d) (h : Data σ (.putMark d)) :
    Data { σ.goto t (.putTest d) with
      slot := Function.update σ.slot d (d.mark (σ.slot d))
      puts := Function.update σ.puts d (σ.puts d ++ [d.mark (σ.slot d)]) } (.putTest d) := by
  have hpassed : (σ.goto t (.putTest d)).passed = σ.passed := passed_goto_same (by rw [hpc]; rfl)
  refine ⟨?_, h.order, ?_, ?_, ?_, ?_, ?_, trivial, h.returned⟩
  · have hbalance := h.balance
    rw [← hpassed] at hbalance
    exact hbalance
  · intro r hr
    obtain ⟨hpos, hget⟩ := h.latest r hr
    refine ⟨hpos, ?_⟩
    by_cases hd : r.slot = d
    · rw [hd] at hget
      show (Function.update σ.puts d _ r.slot)[r.count - 1]? = _
      rw [hd, Function.update_self,
        List.getElem?_append_left (List.getElem?_eq_some_iff.mp hget).1]
      exact hget
    · show (Function.update σ.puts d _ r.slot)[r.count - 1]? = _
      rw [Function.update_of_ne hd]
      exact hget
  · intro d' hpend r hr hslot
    show r.count < (Function.update σ.puts d _ d').length
    by_cases hd : d' = d
    · have hle := h.count_le hr
      rw [hslot, hd] at hle
      rw [hd, Function.update_self, List.length_append]
      simp only [List.length_singleton]
      omega
    · rw [Function.update_of_ne hd]
      refine h.fresh d' (.inl ?_) r hr hslot
      rcases hpend with hfull | hfill
      · exact hfull
      · cases hfill
        exact absurd rfl hd
  · intro d' hpend hputs
    have hd : d' ≠ d := by
      intro he
      exact hpend (.inr (by rw [he]; rfl))
    have hsame : Function.update σ.puts d (σ.puts d ++ [d.mark (σ.slot d)]) d' = σ.puts d' :=
      Function.update_of_ne hd _ _
    have hputs : Function.update σ.puts d (σ.puts d ++ [d.mark (σ.slot d)]) d' ≠ [] := hputs
    show ∃ r ∈ σ.taken, r.slot = d' ∧ r.count = (Function.update σ.puts d _ d').length
    rw [hsame] at hputs ⊢
    refine h.last d' ?_ hputs
    rintro (hfull | hfill)
    · exact hpend (.inl hfull)
    · cases hfill
  · intro d' _ hputs
    show (Function.update σ.puts d _ d').getLast? = some (Function.update σ.slot d _ d')
    by_cases hd : d' = d
    · rw [hd, Function.update_self, Function.update_self, List.getLast?_concat]
    · have hputs : Function.update σ.puts d (σ.puts d ++ [d.mark (σ.slot d)]) d' ≠ [] := hputs
      rw [Function.update_of_ne hd] at hputs
      rw [Function.update_of_ne hd, Function.update_of_ne hd]
      refine h.stored d' ?_ hputs
      intro hmark
      cases hmark
      exact hd rfl
  · intro d' hpend
    show Function.update σ.puts d _ d' ≠ []
    by_cases hd : d' = d
    · rw [hd, Function.update_self]
      simp
    · rw [Function.update_of_ne hd]
      refine h.put d' (.inl ?_)
      rcases hpend with hfull | hfill
      · exact hfull
      · cases hfill
        exact absurd rfl hd

/-- The assignment of `full` or `empty` to the status of one slot. -/
theorem fulls_update (status : Slot → Status) (d : Slot) (s : Status) :
    (Function.update status d s .hour).count + (Function.update status d s .times).count +
        (status d).count =
      (status .hour).count + (status .times).count + s.count := by
  cases d with
  | hour =>
      rw [Function.update_self, Function.update_of_ne (by decide)]
      omega
  | times =>
      rw [Function.update_self, Function.update_of_ne (by decide)]
      omega

/-- The slot becomes full. -/
theorem Data.fill {d : Slot} (hpc : σ.pc t = .putFill d) (h : Data σ (.putFill d)) :
    Data { σ.goto t .putSignal with status := Function.update σ.status d .full } .putSignal := by
  have hpassed : (σ.goto t .putSignal).passed = σ.passed := passed_goto_same (by rw [hpc]; rfl)
  have hempty : σ.status d = .empty := h.here
  have hother : ∀ d', d' ≠ d → Function.update σ.status d .full d' = σ.status d' := by
    intro d' hd
    exact Function.update_of_ne hd _ _
  have hpend : ∀ d', Pending { σ.goto t .putSignal with
      status := Function.update σ.status d .full } .putSignal d' ↔ Pending σ (.putFill d) d' := by
    intro d'
    by_cases hd : d' = d
    · rw [hd]
      refine ⟨fun _ => .inr rfl, fun _ => .inl ?_⟩
      exact Function.update_self _ _ _
    · refine ⟨?_, ?_⟩
      · rintro (hfull | hfill)
        · exact .inl (by rw [← hother d' hd]; exact hfull)
        · cases hfill
      · rintro (hfull | hfill)
        · exact .inl (by rw [← hother d' hd] at hfull; exact hfull)
        · cases hfill
          exact absurd rfl hd
  refine ⟨?_, h.order, h.latest, ?_, ?_, ?_, ?_, trivial, h.returned⟩
  · have hbalance := h.balance
    have hfulls := fulls_update σ.status d .full
    rw [hempty] at hfulls
    unfold State.fulls at hbalance ⊢
    show σ.notEmpty + (σ.goto t .putSignal).passed + 1 =
      (Function.update σ.status d .full .hour).count + (Function.update σ.status d .full .times).count
    have howe : (Pc.putFill d).owing = 0 := rfl
    have hfull : Status.full.count = 1 := rfl
    have hnone : Status.empty.count = 0 := rfl
    rw [hpassed]
    omega
  · intro d' hd'
    exact h.fresh d' ((hpend d').mp hd')
  · intro d' hd'
    exact h.last d' (fun hp => hd' ((hpend d').mpr hp))
  · intro d' _
    exact h.stored d' (by simp [Pc.marking])
  · intro d' hd'
    exact h.put d' ((hpend d').mp hd')

/-- The slot is emptied. -/
theorem Data.clear {d : Slot} {chain : MenageHmsh_tChain11} (hpc : σ.pc t = .getClear d chain)
    (h : Data σ (.getClear d chain)) :
    Data { σ.goto t (.getUnlock (some ⟨d, (σ.puts d).length, chain⟩)) with
      status := Function.update σ.status d .empty
      taken := σ.taken ++ [⟨d, (σ.puts d).length, chain⟩] }
      (.getUnlock (some ⟨d, (σ.puts d).length, chain⟩)) := by
  obtain ⟨hfull, hchain⟩ := h.here
  have hputs := h.put d (.inl hfull)
  have hpos : 0 < (σ.puts d).length := List.length_pos_iff.mpr hputs
  have hother : ∀ d', d' ≠ d → Function.update σ.status d .empty d' = σ.status d' := by
    intro d' hd
    exact Function.update_of_ne hd _ _
  have hnot : Function.update σ.status d .empty d ≠ .full := by
    rw [Function.update_self]
    decide
  refine ⟨?_, ?_, ?_, ?_, ?_, ?_, ?_, ?_, ?_⟩
  · have hbalance := h.balance
    have hgoto := passed_goto σ t (.getUnlock (some ⟨d, (σ.puts d).length, chain⟩))
    have hfulls := fulls_update σ.status d .empty
    rw [hpc] at hgoto
    rw [hfull] at hfulls
    unfold State.fulls at hbalance ⊢
    show σ.notEmpty + (σ.goto t _).passed + 0 = (Function.update σ.status d .empty .hour).count +
      (Function.update σ.status d .empty .times).count
    have howe : (Pc.getClear d chain).owing = 0 := rfl
    have hone : (Pc.getClear d chain).passed = 1 := rfl
    have hzero : (Pc.getUnlock (some ⟨d, (σ.puts d).length, chain⟩)).passed = 0 := rfl
    have hfullc : Status.full.count = 1 := rfl
    have hnone : Status.empty.count = 0 := rfl
    omega
  · refine List.pairwise_append.mpr ⟨h.order, List.pairwise_singleton _ _, ?_⟩
    intro r hr r' hr' hslot
    rw [List.mem_singleton.mp hr'] at hslot ⊢
    exact h.fresh d (.inl hfull) r hr hslot
  · intro r hr
    rcases List.mem_append.mp hr with hr | hr
    · exact h.latest r hr
    · rw [List.mem_singleton.mp hr]
      refine ⟨hpos, ?_⟩
      show (σ.puts d)[(σ.puts d).length - 1]? = some chain
      rw [← List.getLast?_eq_getElem?, h.stored d (by simp [Pc.marking]) hputs, hchain]
  · intro d' hpend r hr hslot
    have hd : d' ≠ d := by
      intro he
      rcases hpend with hf | hf
      · rw [he] at hf
        exact hnot hf
      · cases hf
    rcases List.mem_append.mp hr with hr | hr
    · refine h.fresh d' (.inl ?_) r hr hslot
      rcases hpend with hf | hf
      · rw [← hother d' hd]
        exact hf
      · cases hf
    · rw [List.mem_singleton.mp hr] at hslot
      exact absurd hslot.symm hd
  · intro d' hpend hne
    by_cases hd : d' = d
    · refine ⟨_, List.mem_append.mpr (.inr (List.mem_singleton.mpr rfl)), hd.symm, ?_⟩
      rw [hd]
      rfl
    · obtain ⟨r, hr, hslot, hcount⟩ := h.last d' (by
        rintro (hf | hf)
        · rw [← hother d' hd] at hf
          exact hpend (.inl hf)
        · cases hf) hne
      exact ⟨r, List.mem_append.mpr (.inl hr), hslot, hcount⟩
  · intro d' _
    exact h.stored d' (by simp [Pc.marking])
  · intro d' hpend
    rcases hpend with hf | hf
    · have hd : d' ≠ d := by
        intro he
        rw [he] at hf
        exact hnot hf
      have hf : Function.update σ.status d .empty d' = .full := hf
      rw [hother d' hd] at hf
      exact h.put d' (.inl hf)
    · cases hf
  · intro hr
    cases hr
  · have hreturned := h.returned
    simp only [Pc.result, List.append_nil] at hreturned
    show (σ.taken ++ [_]).map some = σ.returned ++ [_]
    rw [List.map_append, hreturned]
    rfl

omit [DecidableEq T] in
/-- A getter with the mutex finds a full slot. -/
theorem Data.some_full (hpc : σ.pc t = .getTest) (h : Data σ .getTest)
    (htimes : σ.status .times ≠ .full) : σ.status .hour = .full := by
  have hbalance := h.balance
  have hle : (σ.pc t).passed ≤ σ.passed := le_total Pc.passed σ.pc t
  have hone : (σ.pc t).passed = 1 := by rw [hpc]; rfl
  unfold State.fulls at hbalance
  cases hhour : σ.status .hour with
  | full => rfl
  | empty =>
      cases ht : σ.status .times with
      | full => exact absurd ht htimes
      | empty =>
          rw [hhour, ht] at hbalance
          simp only [Status.count] at hbalance
          omega

/-! ## All tasks -/

/-- The mutex guards the data. -/
def Inv (σ : State T) : Prop := Locked Pc.inside .idle (Data σ) σ.mutex σ.pc

/-- A task at a statement that leaves `Data` as it is without a holder. -/
def Pc.plain (pc : Pc) : Prop :=
  pc.owing = 0 ∧ pc.filling = none ∧ pc.marking = none ∧ pc.result = []

theorem Data.goto {pc : Pc} (h : Data σ pc) (mutex : Nat) (pc' : Pc)
    (hpassed : pc'.passed = (σ.pc t).passed) (hhere : Here σ pc') (hpc : pc.plain)
    (hpc' : pc'.plain) : Data { σ.goto t pc' with mutex := mutex } pc' := by
  obtain ⟨howing, hfilling, hmarking, hresult⟩ := hpc
  obtain ⟨howing', hfilling', hmarking', hresult'⟩ := hpc'
  refine h.move rfl rfl rfl rfl ?_ ?_ ?_ hhere ?_
  · show σ.notEmpty + (σ.goto t pc').passed + pc'.owing = _
    rw [passed_goto_same hpassed, howing, howing']
  · intro d
    unfold Pending
    rw [hfilling, hfilling']
  · rw [hmarking, hmarking']
  · rw [hresult, hresult']
    rfl

/-- A statement outside the mutex that keeps the units. -/
theorem Inv.outside (h : Inv σ) {pc : Pc} {notEmpty : Nat} (hin : (σ.pc t).inside = false)
    (hpc : pc.inside = false)
    (hunits : notEmpty + pc.passed = σ.notEmpty + (σ.pc t).passed) :
    Inv { σ.goto t pc with notEmpty := notEmpty } := by
  refine h.outer hin hpc ?_
  intro q hq
  refine hq.move rfl rfl rfl rfl ?_ (fun _ => Iff.rfl) rfl hq.here rfl
  have hgoto := passed_goto σ t pc
  show notEmpty + (σ.goto t pc).passed + q.owing = _
  omega

theorem Inv.call (h : Inv σ) {c : Call} (hout : (σ.pc t).out = true) : Inv (σ.goto t c.pc) := by
  have hpassed : (σ.pc t).passed = 0 := by
    cases hpc : σ.pc t <;> rw [hpc] at hout <;> first | rfl | cases hout
  have hin : (σ.pc t).inside = false := by
    cases hpc : σ.pc t <;> rw [hpc] at hout <;> first | rfl | cases hout
  have hzero : c.pc.passed = 0 := by cases c <;> rfl
  refine h.outside hin (by cases c <;> rfl) ?_
  omega

theorem Inv.put (h : Inv σ) {σ' : State T} (hstep : Display_Put σ t = some σ') : Inv σ' := by
  unfold Display_Put at hstep
  split at hstep
  · rename_i d chain hpc
    split at hstep
    · rename_i hpos
      cases hstep
      refine h.acquire hpos rfl ?_
      intro hd
      exact hd.goto _ _ (by rw [hpc]; rfl) trivial ⟨rfl, rfl, rfl, rfl⟩ ⟨rfl, rfl, rfl, rfl⟩
    · cases hstep
  · rename_i d chain hpc
    cases hstep
    refine h.inner (by rw [hpc]; rfl) rfl ?_
    intro hd
    rw [hpc] at hd
    exact hd.copy hpc
  · rename_i d hpc
    cases hstep
    refine h.inner (by rw [hpc]; rfl) rfl ?_
    intro hd
    rw [hpc] at hd
    exact hd.mark hpc
  · rename_i d hpc
    cases hstep
    by_cases hempty : σ.status d = .empty
    · rw [if_pos hempty]
      refine h.inner (by rw [hpc]; rfl) rfl ?_
      intro hd
      rw [hpc] at hd
      refine hd.move rfl rfl rfl rfl ?_ (fun _ => Iff.rfl) rfl hempty rfl
      rw [passed_goto_same (by rw [hpc]; rfl)]
      rfl
    · rw [if_neg hempty]
      refine h.inner (by rw [hpc]; rfl) rfl ?_
      intro hd
      rw [hpc] at hd
      refine hd.move rfl rfl rfl rfl ?_ ?_ rfl trivial rfl
      · rw [passed_goto_same (by rw [hpc]; rfl)]
        rfl
      · intro d'
        refine ⟨?_, ?_⟩
        · rintro (hf | hf)
          · exact .inl hf
          · cases hf
        · rintro (hf | hf)
          · exact .inl hf
          · cases hf
            cases hs : σ.status d with
            | full => exact .inl hs
            | empty => exact absurd hs hempty
  · rename_i d hpc
    cases hstep
    refine h.inner (by rw [hpc]; rfl) rfl ?_
    intro hd
    rw [hpc] at hd
    exact hd.fill hpc
  · rename_i hpc
    cases hstep
    refine h.inner (by rw [hpc]; rfl) rfl ?_
    intro hd
    rw [hpc] at hd
    refine hd.move rfl rfl rfl rfl ?_ (fun _ => Iff.rfl) rfl trivial rfl
    show σ.notEmpty + 1 + (σ.goto t .putUnlock).passed + 0 = σ.notEmpty + σ.passed + 1
    rw [passed_goto_same (by rw [hpc]; rfl)]
    omega
  · rename_i hpc
    cases hstep
    refine h.release (by rw [hpc]; rfl) rfl ?_
    intro hd
    rw [hpc] at hd
    refine hd.move rfl rfl rfl rfl ?_ (fun _ => Iff.rfl) rfl trivial rfl
    show σ.notEmpty + (σ.goto t .idle).passed + 0 = σ.notEmpty + σ.passed + 0
    rw [passed_goto_same (by rw [hpc]; rfl)]
  · cases hstep

theorem Inv.get (h : Inv σ) {σ' : State T} (hstep : Display_Get σ t = some σ') : Inv σ' := by
  unfold Display_Get at hstep
  split at hstep
  · rename_i hpc
    split at hstep
    · rename_i hpos
      cases hstep
      refine h.outside (by rw [hpc]; rfl) rfl ?_
      rw [hpc]
      show σ.notEmpty - 1 + 1 = σ.notEmpty + 0
      omega
    · cases hstep
  · rename_i hpc
    split at hstep
    · rename_i hpos
      cases hstep
      refine h.acquire hpos rfl ?_
      intro hd
      exact hd.goto _ _ (by rw [hpc]; rfl) trivial ⟨rfl, rfl, rfl, rfl⟩ ⟨rfl, rfl, rfl, rfl⟩
    · cases hstep
  · rename_i hpc
    cases hstep
    have hdata := (h.holder (by rw [hpc]; rfl)).2.2
    rw [hpc] at hdata
    have htake : ∀ d, σ.status d = .full → Inv (σ.goto t (.getTake d)) := by
      intro d hfull
      refine h.inner (by rw [hpc]; rfl) rfl ?_
      intro hd
      rw [hpc] at hd
      exact hd.goto σ.mutex _ (by rw [hpc]; rfl) hfull ⟨rfl, rfl, rfl, rfl⟩ ⟨rfl, rfl, rfl, rfl⟩
    by_cases htimes : σ.status .times = .full
    · rw [if_pos htimes]
      exact htake .times htimes
    · have hhour := hdata.some_full hpc htimes
      rw [if_neg htimes, if_pos hhour]
      exact htake .hour hhour
  · rename_i d hpc
    cases hstep
    refine h.inner (by rw [hpc]; rfl) rfl ?_
    intro hd
    rw [hpc] at hd
    exact hd.goto σ.mutex _ (by rw [hpc]; rfl) ⟨hd.here, rfl⟩ ⟨rfl, rfl, rfl, rfl⟩ ⟨rfl, rfl, rfl, rfl⟩
  · rename_i d chain hpc
    cases hstep
    refine h.inner (by rw [hpc]; rfl) rfl ?_
    intro hd
    rw [hpc] at hd
    exact hd.clear hpc
  · rename_i r hpc
    cases hstep
    refine h.release (by rw [hpc]; rfl) rfl ?_
    intro hd
    rw [hpc] at hd
    refine hd.move rfl rfl rfl rfl ?_ (fun _ => Iff.rfl) rfl trivial ?_
    · show σ.notEmpty + (σ.goto t (.got r)).passed + 0 = σ.notEmpty + σ.passed + 0
      rw [passed_goto_same (by rw [hpc]; rfl)]
    · show σ.returned ++ [r] ++ [] = σ.returned ++ [r]
      exact List.append_nil _
  · cases hstep

theorem Inv.exec (h : Inv σ) {σ' : State T} (hstep : exec σ t = some σ') : Inv σ' := by
  unfold SemDisplay.exec at hstep
  split at hstep
  · rename_i hput
    cases hstep
    exact h.put hput
  · exact h.get hstep

theorem Inv.step (h : Inv σ) {l : Label T} {σ' : State T} (hstep : step σ l = some σ') :
    Inv σ' := by
  cases l with
  | call t c =>
      simp only [SemDisplay.step] at hstep
      split at hstep
      · rename_i hout
        cases hstep
        exact h.call hout
      · cases hstep
  | run t => exact h.exec hstep

omit [DecidableEq T] in
theorem Inv.init (slot : Slot → MenageHmsh_tChain11) : Inv (initState slot : State T) := by
  refine .free rfl (fun _ => rfl) ?_
  refine ⟨?_, .nil, by simp [initState], ?_, ?_, ?_, ?_, trivial, rfl⟩
  · show 0 + total Pc.passed (fun _ : T => Pc.idle) + 0 = 0
    unfold total
    simp [Pc.passed]
  · intro d _ r hr
    cases hr
  · intro d _ hputs
    exact absurd rfl hputs
  · intro d _ hputs
    exact absurd rfl hputs
  · rintro d (hf | hf)
    · cases hf
    · cases hf

end

end RtaiDemos.Clock.SemDisplay
