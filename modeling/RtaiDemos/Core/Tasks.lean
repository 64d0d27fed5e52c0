import Mathlib.Algebra.BigOperators.Group.Finset.Piecewise
import Mathlib.Algebra.Order.BigOperators.Group.Finset
import Mathlib.Data.Fintype.Basic

/-!
# Tasks that share a lock

A finite set of tasks, each with a program counter. `total` counts over all of
them; `Locked` says that a binary semaphore guards some data, with one rule for
each way in which a step can meet it: taking the lock, giving it back, a step
inside and a step outside. What is known of the data may depend on where its
holder stands.
-/

namespace RtaiDemos.Tasks

variable {T P : Type}

section

variable [Fintype T]

/-- A quantity of the program counters, over all tasks. -/
def total (f : P → Nat) (pc : T → P) : Nat := ∑ t, f (pc t)

/-- One task moves. -/
theorem total_update [DecidableEq T] (f : P → Nat) (pc : T → P) (t : T) (p : P) :
    total f (Function.update pc t p) + f (pc t) = total f pc + f p := by
  have hnew : ∀ t', f (Function.update pc t p t') =
      Function.update (fun t => f (pc t)) t (f p) t' := by
    intro t'
    by_cases ht : t' = t
    · rw [ht, Function.update_self, Function.update_self]
    · rw [Function.update_of_ne ht, Function.update_of_ne ht]
  have hold := Finset.add_sum_erase Finset.univ (fun t => f (pc t)) (Finset.mem_univ t)
  unfold total
  rw [Finset.sum_congr rfl fun t' _ => hnew t', Finset.sum_update_of_mem (Finset.mem_univ t),
    Finset.sdiff_singleton_eq_erase]
  omega

theorem le_total (f : P → Nat) (pc : T → P) (t : T) : f (pc t) ≤ total f pc :=
  Finset.single_le_sum (fun t _ => Nat.zero_le (f (pc t))) (Finset.mem_univ t)

end

variable [DecidableEq T]

/-- Data guarded by a binary semaphore: it is free and the data is as `idle`
leaves it, or one task is inside and the data is as it is there. -/
inductive Locked (inside : P → Bool) (idle : P) (Data : P → Prop) (mutex : Nat) (pc : T → P) : Prop
  | free (hmutex : mutex = 1) (hout : ∀ t, inside (pc t) = false) (hdata : Data idle)
  | held (t : T) (hmutex : mutex = 0) (hin : inside (pc t) = true)
      (hout : ∀ t', t' ≠ t → inside (pc t') = false) (hdata : Data (pc t))

namespace Locked

variable {inside : P → Bool} {idle : P} {Data Data' : P → Prop} {mutex : Nat} {pc : T → P} {t : T}
  {p : P}

/-- A task outside finds the lock free or held by another. -/
theorem outside_update (hout : ∀ t', inside (pc t') = false) (hp : inside p = false) (t' : T) :
    inside (Function.update pc t p t') = false := by
  by_cases ht : t' = t
  · rw [ht, Function.update_self]
    exact hp
  · rw [Function.update_of_ne ht]
    exact hout t'

/-- A task inside is the holder. -/
theorem holder (h : Locked inside idle Data mutex pc) (hin : inside (pc t) = true) :
    mutex = 0 ∧ (∀ t', t' ≠ t → inside (pc t') = false) ∧ Data (pc t) := by
  cases h with
  | free _ hout _ =>
      rw [hout t] at hin
      cases hin
  | held t₀ hmutex _ hout hdata =>
      by_cases ht : t = t₀
      · rw [ht]
        exact ⟨hmutex, hout, hdata⟩
      · rw [hout t ht] at hin
        cases hin

theorem acquire (h : Locked inside idle Data mutex pc) (hpos : 0 < mutex) (hp : inside p = true)
    (hdata : Data idle → Data' p) :
    Locked inside idle Data' (mutex - 1) (Function.update pc t p) := by
  cases h with
  | free hmutex hout hfree =>
      refine .held t (by omega) ?_ ?_ ?_
      · rw [Function.update_self]
        exact hp
      · intro t' ht
        rw [Function.update_of_ne ht]
        exact hout t'
      · rw [Function.update_self]
        exact hdata hfree
  | held t₀ hmutex _ _ _ => omega

theorem release (h : Locked inside idle Data mutex pc) (hin : inside (pc t) = true)
    (hp : inside p = false) (hdata : Data (pc t) → Data' idle) :
    Locked inside idle Data' (mutex + 1) (Function.update pc t p) := by
  obtain ⟨hmutex, hout, hheld⟩ := h.holder hin
  refine .free (by omega) ?_ (hdata hheld)
  intro t'
  by_cases ht : t' = t
  · rw [ht, Function.update_self]
    exact hp
  · rw [Function.update_of_ne ht]
    exact hout t' ht

theorem inner (h : Locked inside idle Data mutex pc) (hin : inside (pc t) = true)
    (hp : inside p = true) (hdata : Data (pc t) → Data' p) :
    Locked inside idle Data' mutex (Function.update pc t p) := by
  obtain ⟨hmutex, hout, hheld⟩ := h.holder hin
  refine .held t hmutex ?_ ?_ ?_
  · rw [Function.update_self]
    exact hp
  · intro t' ht
    rw [Function.update_of_ne ht]
    exact hout t' ht
  · rw [Function.update_self]
    exact hdata hheld

theorem outer (h : Locked inside idle Data mutex pc) (hin : inside (pc t) = false)
    (hp : inside p = false) (hdata : ∀ q, Data q → Data' q) :
    Locked inside idle Data' mutex (Function.update pc t p) := by
  cases h with
  | free hmutex hout hfree => exact .free hmutex (outside_update hout hp) (hdata _ hfree)
  | held t₀ hmutex hheld hout hd =>
      have hne : t₀ ≠ t := by
        intro he
        rw [he, hin] at hheld
        cases hheld
      refine .held t₀ hmutex ?_ ?_ ?_
      · rw [Function.update_of_ne hne]
        exact hheld
      · intro t' ht'
        by_cases ht : t' = t
        · rw [ht, Function.update_self]
          exact hp
        · rw [Function.update_of_ne ht]
          exact hout t' ht'
      · rw [Function.update_of_ne hne]
        exact hdata _ hd

end Locked

end RtaiDemos.Tasks
