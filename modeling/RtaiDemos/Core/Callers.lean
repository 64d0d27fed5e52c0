import RtaiDemos.Core.Atomic

/-!
# Programs that call

A program is a transition system that moves when one of its threads invokes a
call, when a call returns and by steps of its own. `calledBy` runs it on a system
whose steps show invocations and returns. If that system is linearizable, the
program is in no state that it could not be in with calls that take effect at
once: what holds in every run on the atomic system holds on the real one.
-/

namespace RtaiDemos

variable {T C O R L : Type}

/-- A move of a program: a thread invokes a call, a call returns, or neither. -/
inductive Move (T C R L : Type)
  | inv (t : T) (c : C)
  | res (t : T) (r : R)
  | own (l : L)

/-- What an event is to the program. -/
def Event.move? : Event T C O R → Option (Move T C R L)
  | .inv t c => some (.inv t c)
  | .res t r => some (.res t r)
  | .op _ _ => none

/-- What a move is to the system that is called. -/
def Move.event? : Move T C R L → Option (Event T C O R)
  | .inv t c => some (.inv t c)
  | .res t r => some (.res t r)
  | .own _ => none

/-- In the atomic system an event shows itself. -/
def Event.observed {σ : Type} (_ : σ) (e : Event T C O R) (_ : σ) : List (Event T C O R) :=
  if e.shown then [e] else []

theorem Event.filterMap_move? (es : List (Event T C O R)) :
    (es.filterMap (Event.move? (L := L))).filterMap Move.event? = es.filter Event.shown := by
  induction es with
  | nil => rfl
  | cons e es ih =>
      cases e with
      | inv t c => exact congrArg (Event.inv t c :: ·) ih
      | op t o => exact ih
      | res t r => exact congrArg (Event.res t r :: ·) ih

namespace TSys

variable {σ α τ κ : Type}

/-- A program on a system: a step of the system moves the program along what it shows. -/
def calledBy (M : TSys σ α) (obs : σ → α → σ → List (Event T C O R)) (Q : TSys κ (Move T C R L)) :
    TSys (κ × σ) (α ⊕ L) where
  init x := Q.init x.1 ∧ M.init x.2
  next
    | (k, s), .inl a => (M.next s a).bind fun s' =>
        (Q.run k ((obs s a s').filterMap Event.move?)).map fun k' => (k', s')
    | (k, s), .inr l => (Q.next k (.own l)).map fun k' => (k', s)

theorem Reachable.exists_run {M : TSys σ α} {s : σ} (h : M.Reachable s) :
    ∃ s₀ as, M.init s₀ ∧ M.run s₀ as = some s := by
  induction h with
  | init hs => exact ⟨_, [], hs, rfl⟩
  | @step s s' a _ _ hnext ih =>
      obtain ⟨s₀, as, hs₀, hrun⟩ := ih
      refine ⟨s₀, as ++ [a], hs₀, ?_⟩
      rw [run_append, hrun]
      simp [run, hnext]

variable {M : TSys σ α} {obs : σ → α → σ → List (Event T C O R)} {Q : TSys κ (Move T C R L)}

/-- A run of a program on a system is a run of each, and they agree on the calls. -/
theorem runs_of_run_calledBy {ls : List (α ⊕ L)} {k k' : κ} {s s' : σ}
    (h : (M.calledBy obs Q).run (k, s) ls = some (k', s')) :
    ∃ as ms, M.run s as = some s' ∧ Q.run k ms = some k' ∧
      ms.filterMap Move.event? = (M.trace obs s as).filter Event.shown := by
  induction ls generalizing k s with
  | nil =>
      cases h
      exact ⟨[], [], rfl, rfl, rfl⟩
  | cons l ls ih =>
      obtain ⟨⟨k₁, s₁⟩, hnext, hrest⟩ := Option.bind_eq_some_iff.mp h
      obtain ⟨as, ms, has, hms, hio⟩ := ih hrest
      cases l with
      | inl a =>
          obtain ⟨s₂, hs, hk⟩ := Option.bind_eq_some_iff.mp hnext
          obtain ⟨k₂, hk₂, hpair⟩ := Option.map_eq_some_iff.mp hk
          cases hpair
          refine ⟨a :: as, (obs s a s₁).filterMap Event.move? ++ ms, ?_, ?_, ?_⟩
          · rw [run, hs]
            exact has
          · rw [run_append, hk₂]
            exact hms
          · rw [List.filterMap_append, Event.filterMap_move?, hio, trace, hs, List.filter_append]
      | inr l =>
          obtain ⟨k₂, hk₂, hpair⟩ := Option.map_eq_some_iff.mp hnext
          cases hpair
          refine ⟨as, .own l :: ms, has, ?_, hio⟩
          rw [run, hk₂]
          exact hms

section

variable {N : TSys τ (Event T C O R)}

/-- Steps that show nothing leave the program where it is. -/
theorem run_calledBy_hidden {es : List (Event T C O R)} (k : κ) {b b' : τ}
    (hes : ∀ e ∈ es, ¬ e.shown = true) (h : N.run b es = some b') :
    (N.calledBy Event.observed Q).run (k, b) (es.map .inl) = some (k, b') := by
  induction es generalizing b with
  | nil =>
      cases h
      rfl
  | cons e es ih =>
      obtain ⟨b₁, hb, hrest⟩ := Option.bind_eq_some_iff.mp h
      have hhid := hes e List.mem_cons_self
      have hstep : (N.calledBy Event.observed Q).next (k, b) (.inl e) = some (k, b₁) := by
        simp [calledBy, hb, Event.observed, hhid, run]
      rw [List.map_cons, run, hstep]
      exact ih (fun e he => hes e (List.mem_cons_of_mem _ he)) hrest

/-- A run of the program and one of the system that agree on the calls make one of both. -/
theorem run_calledBy_of_runs {ms : List (Move T C R L)} {es : List (Event T C O R)} {k k' : κ}
    {b b' : τ} (hms : Q.run k ms = some k') (hes : N.run b es = some b')
    (hio : ms.filterMap Move.event? = es.filter Event.shown) :
    ∃ ls, (N.calledBy Event.observed Q).run (k, b) ls = some (k', b') := by
  induction ms generalizing k b es with
  | nil =>
      cases hms
      exact ⟨es.map .inl, run_calledBy_hidden _ (List.filter_eq_nil_iff.mp hio.symm) hes⟩
  | cons m ms ih =>
      obtain ⟨k₁, hk, hrest⟩ := Option.bind_eq_some_iff.mp hms
      cases hm : m.event? (O := O) with
      | none =>
          rw [List.filterMap_cons_none hm] at hio
          obtain ⟨ls, hls⟩ := ih hrest hes hio
          cases m with
          | own l =>
              refine ⟨.inr l :: ls, ?_⟩
              simp only [run, calledBy, hk, Option.map_some, Option.bind_some]
              exact hls
          | _ => cases hm
      | some e =>
          -- the calls before `e` are over; the hidden steps before it come first
          rw [List.filterMap_cons_some hm] at hio
          obtain ⟨hs, es', rfl, hhid, hsh, hio'⟩ := List.filter_eq_cons_iff.mp hio.symm
          rw [run_append] at hes
          obtain ⟨b₁, hb₁, hb⟩ := Option.bind_eq_some_iff.mp hes
          obtain ⟨b₂, hb₂, hes'⟩ := Option.bind_eq_some_iff.mp hb
          obtain ⟨ls, hls⟩ := ih hrest hes' hio'.symm
          have hmove : e.move? = some m := by
            cases m <;> cases hm <;> rfl
          have hstep : (N.calledBy Event.observed Q).next (k, b₁) (.inl e) = some (k₁, b₂) := by
            simp [calledBy, hb₂, Event.observed, hsh, hmove, run, hk]
          refine ⟨hs.map .inl ++ .inl e :: ls, ?_⟩
          rw [run_append, run_calledBy_hidden k hhid hb₁, Option.bind_some, run, hstep]
          exact hls

end

variable {S : Type} [DecidableEq T] {abs : σ → S} {V : Service S C O R}

/-- On a linearizable system a program is only where it could be with calls that
take effect at once, and the object is the same. -/
theorem Linearizable.reachable_calledBy (hlin : M.Linearizable obs abs V) {k : κ} {s : σ}
    (h : (M.calledBy obs Q).Reachable (k, s)) :
    ∃ at_, ((V.atomic T).calledBy Event.observed Q).Reachable (k, abs s, at_) := by
  obtain ⟨⟨k₀, s₀⟩, ls, ⟨hk₀, hs₀⟩, hrun⟩ := h.exists_run
  obtain ⟨as, ms, has, hms, hio⟩ := runs_of_run_calledBy hrun
  obtain ⟨b, es, at_, hb, hes, hshown⟩ := hlin s₀ as s hs₀ has
  rw [← hshown, List.filter_filter] at hio
  simp only [Bool.and_self] at hio
  obtain ⟨ls', hls'⟩ := run_calledBy_of_runs hms hes hio
  exact ⟨at_, .of_run ⟨hk₀, hb⟩ hls'⟩

/-- What holds in every run with calls that take effect at once holds on the real system. -/
theorem Linearizable.invariant_calledBy (hlin : M.Linearizable obs abs V) {P : κ → S → Prop}
    (hP : ((V.atomic T).calledBy Event.observed Q).Invariant fun x => P x.1 x.2.1) :
    (M.calledBy obs Q).Invariant fun x => P x.1 (abs x.2) := by
  rintro ⟨k, s⟩ h
  obtain ⟨at_, hat⟩ := hlin.reachable_calledBy h
  exact hP _ hat

/-- The invariant rule for a program with calls that take effect at once: a thread invokes
a call, its operation is performed, it returns, or the program moves by itself. -/
theorem invariant_calledBy_atomic {I : κ → S → (T → Option (C × Option O)) → Prop}
    (hinit : ∀ k s, Q.init k → V.object.init s → I k s fun _ => none)
    (hinv : ∀ k s at_ t c k', I k s at_ → at_ t = none → Q.next k (.inv t c) = some k' →
      I k' s (Function.update at_ t (some (c, none))))
    (hop : ∀ k s at_ t c o s', I k s at_ → at_ t = some (c, none) → V.does c o →
      V.object.next s o = some s' → I k s' (Function.update at_ t (some (c, some o))))
    (hres : ∀ k s at_ t c o r k', I k s at_ → at_ t = some (c, o) → V.fits c o r →
      Q.next k (.res t r) = some k' → I k' s (Function.update at_ t none))
    (hown : ∀ k s at_ l k', I k s at_ → Q.next k (.own l) = some k' → I k' s at_) :
    ((V.atomic T).calledBy Event.observed Q).Invariant fun x => I x.1 x.2.1 x.2.2 := by
  refine Invariant.of_inductive ?_ ?_
  · rintro ⟨k, s, at_⟩ ⟨hk, hs, hat⟩
    have hnone : at_ = fun _ => none := funext hat
    subst hnone
    exact hinit k s hk hs
  · rintro ⟨k, s, at_⟩ ⟨k', s', at'⟩ l hI h
    cases l with
    | inr l =>
        obtain ⟨k₁, hk₁, hpair⟩ := Option.map_eq_some_iff.mp h
        cases hpair
        exact hown k s at_ l _ hI hk₁
    | inl ev =>
        obtain ⟨⟨s₁, at₁⟩, hev, hk⟩ := Option.bind_eq_some_iff.mp h
        obtain ⟨k₁, hk₁, hpair⟩ := Option.map_eq_some_iff.mp hk
        cases hpair
        cases ev with
        | inv t c =>
            obtain ⟨k₂, hk₂, hend⟩ := Option.bind_eq_some_iff.mp hk₁
            cases hend
            unfold Service.atomic at hev
            dsimp only at hev
            split at hev
            · rename_i hat
              cases hev
              exact hinv k s at_ t c _ hI hat hk₂
            · cases hev
        | op t o =>
            cases hk₁
            unfold Service.atomic at hev
            dsimp only at hev
            split at hev
            · rename_i c hat
              split at hev
              · rename_i hd
                obtain ⟨s₂, hs₂, hpair⟩ := Option.map_eq_some_iff.mp hev
                cases hpair
                exact hop k s at_ t c o _ hI hat hd hs₂
              · cases hev
            · cases hev
        | res t r =>
            obtain ⟨k₂, hk₂, hend⟩ := Option.bind_eq_some_iff.mp hk₁
            cases hend
            unfold Service.atomic at hev
            dsimp only at hev
            split at hev
            · rename_i c o hat
              split at hev
              · rename_i hf
                cases hev
                exact hres k s at_ t c o r _ hI hat hf hk₂
              · cases hev
            · cases hev

end TSys

end RtaiDemos
