import Mathlib.Logic.Function.Basic
import RtaiDemos.Core.TSys

/-!
# Calls that take effect at once

A service is an object, a transition system whose labels are its operations,
together with what an operation may be for a call and what may be returned
after it. In the atomic system a caller invokes a call, has at most one
operation of the object performed for it, and returns. A system is
linearizable if for each of its runs the atomic system has one with the same
invocations and returns in the same order. The rule for it is a forward
simulation.
-/

namespace RtaiDemos

/-- What happens in the atomic system: callers `T`, calls `C`, operations `O`, results `R`. -/
inductive Event (T C O R : Type)
  | inv (t : T) (c : C)
  | op (t : T) (o : O)
  | res (t : T) (r : R)

/-- Operations are hidden; invocations and returns are shown. -/
def Event.shown {T C O R : Type} : Event T C O R → Bool
  | .inv _ _ | .res _ _ => true
  | .op _ _ => false

/-- An object, the operations a call may come to, and the results it may have:
after an operation, or without one. -/
structure Service (S C O R : Type) where
  object : TSys S O
  does : C → O → Prop
  fits : C → Option O → R → Prop

namespace Service

variable {S C O R T : Type} [DecidableEq T]

open Classical in
/-- The atomic system. A caller is outside, or inside a call that has come to an
operation or has not yet. -/
noncomputable def atomic (V : Service S C O R) (T : Type) [DecidableEq T] :
    TSys (S × (T → Option (C × Option O))) (Event T C O R) where
  init s := V.object.init s.1 ∧ ∀ t, s.2 t = none
  next
    | (s, at_), .inv t c =>
        match at_ t with
        | none => some (s, Function.update at_ t (some (c, none)))
        | some _ => none
    | (s, at_), .op t o =>
        match at_ t with
        | some (c, none) =>
            if V.does c o then
              (V.object.next s o).map fun s' => (s', Function.update at_ t (some (c, some o)))
            else none
        | _ => none
    | (s, at_), .res t r =>
        match at_ t with
        | some (c, o) => if V.fits c o r then some (s, Function.update at_ t none) else none
        | none => none

variable {V : Service S C O R} {s s' : S} {at_ : T → Option (C × Option O)} {t : T} {c : C} {o : O}
  {o? : Option O} {r : R}

theorem atomic_inv (h : at_ t = none) :
    (V.atomic T).next (s, at_) (.inv t c) = some (s, Function.update at_ t (some (c, none))) := by
  simp [atomic, h]

theorem atomic_op (h : at_ t = some (c, none)) (hdoes : V.does c o)
    (hs : V.object.next s o = some s') :
    (V.atomic T).next (s, at_) (.op t o) =
      some (s', Function.update at_ t (some (c, some o))) := by
  simp [atomic, h, hdoes, hs]

/-- Callers that have not come to an operation yet perform one that only looks. -/
theorem atomic_ops {l : List T} (hnodup : l.Nodup) (hs : V.object.next s o = some s)
    (hat : ∀ u ∈ l, ∃ c, at_ u = some (c, none) ∧ V.does c o) :
    ∃ at', (V.atomic T).run (s, at_) (l.map fun u => .op u o) = some (s, at') ∧
      (∀ u ∈ l, ∀ c, at_ u = some (c, none) → at' u = some (c, some o)) ∧
      ∀ u, u ∉ l → at' u = at_ u := by
  induction l generalizing at_ with
  | nil => exact ⟨at_, rfl, fun u hu => absurd hu List.not_mem_nil, fun _ _ => rfl⟩
  | cons v rest ih =>
      obtain ⟨hv, hrest⟩ := List.nodup_cons.mp hnodup
      obtain ⟨c, hc, hdoes⟩ := hat v List.mem_cons_self
      have hother : ∀ u, u ≠ v → Function.update at_ v (some (c, some o)) u = at_ u :=
        fun u hu => Function.update_of_ne hu ..
      have hready : ∀ u ∈ rest, ∃ c', Function.update at_ v (some (c, some o)) u = some (c', none) ∧
          V.does c' o := by
        intro u hu
        rw [hother u (fun h => hv (h ▸ hu))]
        exact hat u (List.mem_cons_of_mem v hu)
      obtain ⟨at', hrun, hin, hout⟩ := ih hrest hready
      refine ⟨at', ?_, ?_, ?_⟩
      · rw [List.map_cons, TSys.run, atomic_op hc hdoes hs]
        exact hrun
      · intro u hu c' hc'
        rcases List.mem_cons.mp hu with rfl | hu
        · rw [hc] at hc'
          cases hc'
          rw [hout u hv, Function.update_self]
        · refine hin u hu c' ?_
          rw [hother u (fun h => hv (h ▸ hu))]
          exact hc'
      · intro u hu
        rw [List.mem_cons, not_or] at hu
        rw [hout u hu.2, hother u hu.1]

theorem atomic_res (h : at_ t = some (c, o?)) (hfits : V.fits c o? r) :
    (V.atomic T).next (s, at_) (.res t r) = some (s, Function.update at_ t none) := by
  simp [atomic, h, hfits]

end Service

namespace TSys

variable {σ α τ ε : Type}

/-- What an observer sees of a run. -/
def trace (M : TSys σ α) (obs : σ → α → σ → List ε) : σ → List α → List ε
  | _, [] => []
  | s, a :: rest =>
      match M.next s a with
      | none => []
      | some s' => obs s a s' ++ M.trace obs s' rest

/-- The rule of forward simulation: each step of `M` is answered by some steps
of `N` that show what the observer sees. -/
theorem run_of_simulation {M : TSys σ α} {N : TSys τ ε} {obs : σ → α → σ → List ε}
    {shown : ε → Bool} {R : σ → τ → Prop}
    (hstep : ∀ s a s' b, R s b → M.next s a = some s' →
      ∃ es b', N.run b es = some b' ∧ es.filter shown = obs s a s' ∧ R s' b')
    {as : List α} {s s' : σ} {b : τ} (hR : R s b) (h : M.run s as = some s') :
    ∃ es b', N.run b es = some b' ∧ es.filter shown = M.trace obs s as ∧ R s' b' := by
  induction as generalizing s b with
  | nil =>
      cases h
      exact ⟨[], b, rfl, rfl, hR⟩
  | cons a rest ih =>
      obtain ⟨s₁, hnext, hrest⟩ := Option.bind_eq_some_iff.mp h
      obtain ⟨es, b₁, hes, hobs, hR₁⟩ := hstep s a s₁ b hR hnext
      obtain ⟨fs, b', hfs, hobs', hR'⟩ := ih hR₁ hrest
      refine ⟨es ++ fs, b', ?_, ?_, hR'⟩
      · rw [run_append, hes]
        exact hfs
      · rw [List.filter_append, hobs, hobs', trace, hnext]

/-- Every run shows the invocations and returns of some run of the atomic
system, which ends with the object that `abs` reads off the state. -/
def Linearizable {S C O R T : Type} [DecidableEq T] (M : TSys σ α)
    (obs : σ → α → σ → List (Event T C O R)) (abs : σ → S) (V : Service S C O R) : Prop :=
  ∀ s as s', M.init s → M.run s as = some s' →
    ∃ b es at', (V.atomic T).init b ∧ (V.atomic T).run b es = some (abs s', at') ∧
      es.filter Event.shown = M.trace obs s as

/-- The rule: a forward simulation that keeps the object equal to what `abs` reads. -/
theorem Linearizable.of_simulation {S C O R T : Type} [DecidableEq T] {M : TSys σ α}
    {obs : σ → α → σ → List (Event T C O R)} {abs : σ → S} {V : Service S C O R}
    (At : σ → (T → Option (C × Option O)) → Prop)
    (hinit : ∀ s, M.init s → V.object.init (abs s) ∧ At s fun _ => none)
    (hstep : ∀ s a s' at_, At s at_ → M.next s a = some s' →
      ∃ es at', (V.atomic T).run (abs s, at_) es = some (abs s', at') ∧
        es.filter Event.shown = obs s a s' ∧ At s' at') :
    M.Linearizable obs abs V := by
  intro s as s' hs hrun
  obtain ⟨hobj, hat⟩ := hinit s hs
  let Rel : σ → S × (T → Option (C × Option O)) → Prop := fun s b => b.1 = abs s ∧ At s b.2
  have hsim : ∀ s a s' b, Rel s b → M.next s a = some s' →
      ∃ es b', (V.atomic T).run b es = some b' ∧ es.filter Event.shown = obs s a s' ∧
        Rel s' b' := by
    rintro s a s' ⟨_, at_⟩ ⟨rfl, hat⟩ hnext
    obtain ⟨es, at', hes, hobs, hat'⟩ := hstep s a s' at_ hat hnext
    exact ⟨es, (abs s', at'), hes, hobs, rfl, hat'⟩
  have hstart : Rel s (abs s, fun _ => none) := ⟨rfl, hat⟩
  obtain ⟨es, ⟨_, at'⟩, hes, hobs, rfl, -⟩ := run_of_simulation hsim hstart hrun
  exact ⟨(abs s, fun _ => none), es, at', ⟨hobj, fun _ => rfl⟩, hes, hobs⟩

end TSys

end RtaiDemos
