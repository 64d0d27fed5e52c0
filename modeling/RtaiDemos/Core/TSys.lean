import Mathlib.Logic.Relation
import Mathlib.Data.List.Basic

/-!
# Labelled transition systems with executable steps

A system is a set of initial states and a partial step function; the label
carries every choice the environment makes, so a run is a list of labels and
can be evaluated. `ReachableBy M ok` is reachability through steps that all
meet the condition `ok`; plain reachability is the case `ok = True`. The
invariant rule is stated once, for conditioned runs.
-/

namespace RtaiDemos

/-- A transition system over states `σ` and labels `α`. -/
structure TSys (σ α : Type) where
  init : σ → Prop
  next : σ → α → Option σ

namespace TSys

variable {σ α : Type}

/-- The states reached from an initial one by steps that all meet `ok`. -/
inductive ReachableBy (M : TSys σ α) (ok : σ → α → Prop) : σ → Prop
  | init {s} : M.init s → ReachableBy M ok s
  | step {s s' a} : ReachableBy M ok s → ok s a → M.next s a = some s' →
      ReachableBy M ok s'

/-- The states reached from an initial one by any steps. -/
abbrev Reachable (M : TSys σ α) : σ → Prop :=
  M.ReachableBy (fun _ _ => True)

/-- `P` holds in every reachable state. -/
def Invariant (M : TSys σ α) (P : σ → Prop) : Prop :=
  ∀ s, M.Reachable s → P s

/-- `P` holds in every state reached by steps that all meet `ok`. -/
def InvariantBy (M : TSys σ α) (ok : σ → α → Prop) (P : σ → Prop) : Prop :=
  ∀ s, M.ReachableBy ok s → P s

/-- One step of any label. -/
def Step (M : TSys σ α) (s s' : σ) : Prop := ∃ a, M.next s a = some s'

/-- Any number of steps. -/
abbrev Steps (M : TSys σ α) : σ → σ → Prop := Relation.ReflTransGen M.Step

theorem ReachableBy.reachable {M : TSys σ α} {ok : σ → α → Prop} {s : σ}
    (h : M.ReachableBy ok s) : M.Reachable s := by
  induction h with
  | init hi => exact .init hi
  | step _ _ hs ih => exact .step ih trivial hs

theorem ReachableBy.mono {M : TSys σ α} {ok ok' : σ → α → Prop} (hok : ∀ s a, ok s a → ok' s a)
    {s : σ} (h : M.ReachableBy ok s) : M.ReachableBy ok' s := by
  induction h with
  | init hi => exact .init hi
  | step _ ha hs ih => exact .step ih (hok _ _ ha) hs

theorem Reachable.steps {M : TSys σ α} {s s' : σ} (h : M.Reachable s)
    (hs : M.Steps s s') : M.Reachable s' := by
  induction hs with
  | refl => exact h
  | tail _ hst ih =>
      obtain ⟨a, ha⟩ := hst
      exact .step ih trivial ha

/-- The invariant rule for conditioned runs. -/
theorem ReachableBy.induct {M : TSys σ α} {ok : σ → α → Prop} {P : σ → Prop}
    (hinit : ∀ s, M.init s → P s)
    (hstep : ∀ s s' a, P s → ok s a → M.next s a = some s' → P s')
    {s : σ} (h : M.ReachableBy ok s) : P s := by
  induction h with
  | init hi => exact hinit _ hi
  | step _ hok hs ih => exact hstep _ _ _ ih hok hs

/-- The invariant rule for unconditioned runs. -/
theorem Invariant.of_inductive {M : TSys σ α} {P : σ → Prop}
    (hinit : ∀ s, M.init s → P s)
    (hstep : ∀ s s' a, P s → M.next s a = some s' → P s') : M.Invariant P :=
  fun _ h => h.induct hinit (fun s s' a hp _ => hstep s s' a hp)

/-- The invariant rule relative to an invariant already known. -/
theorem Invariant.of_inductive_with {M : TSys σ α} {P Q : σ → Prop}
    (hQ : M.Invariant Q) (hinit : ∀ s, M.init s → P s)
    (hstep : ∀ s s' a, Q s → P s → M.next s a = some s' → P s') : M.Invariant P := by
  intro s h
  induction h with
  | init hi => exact hinit _ hi
  | step hr _ hs ih => exact hstep _ _ _ (hQ _ hr) ih hs

/-- Execute a list of labels. -/
def run (M : TSys σ α) : σ → List α → Option σ
  | s, [] => some s
  | s, a :: rest => (M.next s a).bind fun s' => M.run s' rest

theorem run_append (M : TSys σ α) (as bs : List α) (s : σ) :
    M.run s (as ++ bs) = (M.run s as).bind fun s' => M.run s' bs := by
  induction as generalizing s with
  | nil => rfl
  | cons a rest ih =>
      simp only [List.cons_append, run, ih, Option.bind_assoc]

theorem Steps.of_run {M : TSys σ α} {as : List α} {s s' : σ}
    (h : M.run s as = some s') : M.Steps s s' := by
  induction as generalizing s with
  | nil => cases h; exact .refl
  | cons a rest ih =>
      obtain ⟨s₁, h₁, h₂⟩ := Option.bind_eq_some_iff.mp h
      exact .head ⟨a, h₁⟩ (ih h₂)

theorem Reachable.of_run {M : TSys σ α} {as : List α} {s s' : σ}
    (hs : M.init s) (h : M.run s as = some s') : M.Reachable s' :=
  Reachable.steps (.init hs) (.of_run h)

/-- The labels lead to a state that answers a question with yes. -/
def leadsTo (M : TSys σ α) (s : σ) (as : List α) (ask : σ → Bool) : Bool :=
  ((M.run s as).map ask).getD false

theorem run_of_leadsTo {M : TSys σ α} {s : σ} {as : List α} {ask : σ → Bool}
    (h : M.leadsTo s as ask = true) : ∃ s', M.run s as = some s' ∧ ask s' = true := by
  unfold leadsTo at h
  cases hr : M.run s as with
  | none =>
      rw [hr] at h
      cases h
  | some s' =>
      rw [hr] at h
      exact ⟨s', rfl, h⟩

theorem Reachable.of_leadsTo {M : TSys σ α} {s : σ} {as : List α} {ask : σ → Bool}
    (hs : M.init s) (h : M.leadsTo s as ask = true) : ∃ s', M.Reachable s' ∧ ask s' = true := by
  obtain ⟨s', hr, hask⟩ := run_of_leadsTo h
  exact ⟨s', .of_run hs hr, hask⟩

/-- The labels lead, by steps that all meet `ok`, to a state that answers a
question with yes. -/
def leadsBy (M : TSys σ α) (ok : σ → α → Prop) [∀ s a, Decidable (ok s a)] (ask : σ → Bool) :
    σ → List α → Bool
  | s, [] => ask s
  | s, a :: rest => decide (ok s a) && ((M.next s a).map fun s' => M.leadsBy ok ask s' rest).getD false

theorem ReachableBy.of_leadsBy {M : TSys σ α} {ok : σ → α → Prop} [∀ s a, Decidable (ok s a)]
    {ask : σ → Bool} {as : List α} {s : σ} (hs : M.ReachableBy ok s)
    (h : M.leadsBy ok ask s as = true) : ∃ s', M.ReachableBy ok s' ∧ ask s' = true := by
  induction as generalizing s with
  | nil => exact ⟨s, hs, h⟩
  | cons a rest ih =>
      obtain ⟨hok, hrest⟩ := Bool.and_eq_true_iff.mp h
      cases hn : M.next s a with
      | none =>
          rw [hn] at hrest
          cases hrest
      | some s₁ =>
          rw [hn] at hrest
          exact ih (.step hs (of_decide_eq_true hok) hn) hrest

/-- Whatever steps are taken from `s`, `Q` has come to hold by the time `n` of
them are `mine`, and until then a step of `mine` can be taken. -/
def Serves (M : TSys σ α) (mine : α → Bool) (n : Nat) (Q : σ → Prop) (s : σ) : Prop :=
  ∀ as s', M.run s as = some s' →
    Q s' ∨ as.countP mine < n ∧ ∃ a, mine a = true ∧ (M.next s' a).isSome = true

theorem Serves.mono {M : TSys σ α} {mine : α → Bool} {n : Nat} {Q Q' : σ → Prop} {s : σ}
    (h : M.Serves mine n Q s) (hQ : ∀ s, Q s → Q' s) : M.Serves mine n Q' s := by
  intro as s' hrun
  rcases h as s' hrun with hq | hgo
  · exact .inl (hQ s' hq)
  · exact .inr hgo

theorem run_stable {M : TSys σ α} {Q : σ → Prop} (hQ : ∀ s a s', Q s → M.next s a = some s' → Q s')
    {as : List α} {s s' : σ} (hs : Q s) (h : M.run s as = some s') : Q s' := by
  induction as generalizing s with
  | nil => cases h; exact hs
  | cons a rest ih =>
      obtain ⟨s₁, h₁, h₂⟩ := Option.bind_eq_some_iff.mp h
      exact ih (hQ s a s₁ hs h₁) h₂

/-- The rule for `Serves`: a measure that `mine` lowers and nobody raises. -/
theorem Serves.of_measure {M : TSys σ α} {mine : α → Bool} {Q R : σ → Prop} (togo : σ → Nat)
    (hQ : ∀ s a s', Q s → M.next s a = some s' → Q s')
    (hmine : ∀ s a s', R s → mine a = true → M.next s a = some s' →
      Q s' ∨ R s' ∧ togo s' < togo s)
    (hother : ∀ s a s', R s → mine a = false → M.next s a = some s' →
      R s' ∧ togo s' ≤ togo s)
    (henabled : ∀ s, R s → ∃ a, mine a = true ∧ (M.next s a).isSome = true)
    {s : σ} {n : Nat} (hs : R s) (hn : togo s < n) : M.Serves mine n Q s := by
  have hrun : ∀ as s s', R s → M.run s as = some s' →
      Q s' ∨ R s' ∧ as.countP mine + togo s' ≤ togo s := by
    intro as
    induction as with
    | nil =>
        intro s s' hs h
        cases h
        exact .inr ⟨hs, by simp⟩
    | cons a rest ih =>
        intro s s' hs h
        obtain ⟨s₁, h₁, h₂⟩ := Option.bind_eq_some_iff.mp h
        cases ha : mine a with
        | true =>
            rcases hmine s a s₁ hs ha h₁ with hq | ⟨hr, hlt⟩
            · exact .inl (run_stable hQ hq h₂)
            · rcases ih s₁ s' hr h₂ with hq | ⟨hr', hle⟩
              · exact .inl hq
              · rw [List.countP_cons_of_pos ha]
                exact .inr ⟨hr', by omega⟩
        | false =>
            obtain ⟨hr, hlt⟩ := hother s a s₁ hs ha h₁
            rcases ih s₁ s' hr h₂ with hq | ⟨hr', hle⟩
            · exact .inl hq
            · rw [List.countP_cons_of_neg (by rw [ha]; exact Bool.false_ne_true)]
              exact .inr ⟨hr', by omega⟩
  intro as s' h
  rcases hrun as s s' hs h with hq | ⟨hr, hle⟩
  · exact .inl hq
  · exact .inr ⟨by omega, henabled s' hr⟩

/-- Every step of a run meets `ok`. -/
def Along (M : TSys σ α) (ok : σ → α → Prop) : σ → List α → Prop
  | _, [] => True
  | s, a :: rest => ok s a ∧ ∀ s', M.next s a = some s' → M.Along ok s' rest

/-- A run in which a step goes wrong exactly if it does not meet its condition, and is then
the last, has gone wrong exactly if one of its steps did not. -/
theorem run_iff_along {M : TSys σ α} {ok : σ → α → Prop} {I Q : σ → Prop}
    (hstep : ∀ s a s', I s → Q s → M.next s a = some s' → I s' ∧ (Q s' ↔ ok s a))
    (hlast : ∀ s a, ¬ Q s → M.next s a = none) {as : List α} {s s' : σ} (hI : I s) (hQ : Q s)
    (h : M.run s as = some s') : Q s' ↔ M.Along ok s as := by
  induction as generalizing s with
  | nil =>
      cases h
      exact iff_of_true hQ trivial
  | cons a rest ih =>
      obtain ⟨s₁, hnext, hrest⟩ := Option.bind_eq_some_iff.mp h
      obtain ⟨hI₁, hiff⟩ := hstep s a s₁ hI hQ hnext
      by_cases hQ₁ : Q s₁
      · rw [ih hI₁ hQ₁ hrest]
        constructor
        · intro halong
          refine ⟨hiff.mp hQ₁, ?_⟩
          intro s₂ hs₂
          cases hnext.symm.trans hs₂
          exact halong
        · rintro ⟨-, halong⟩
          exact halong s₁ hnext
      · have hend : rest = [] := by
          cases rest with
          | nil => rfl
          | cons b rest =>
              obtain ⟨s₂, hs₂, -⟩ := Option.bind_eq_some_iff.mp hrest
              rw [hlast s₁ b hQ₁] at hs₂
              cases hs₂
        subst hend
        cases hrest
        exact iff_of_false hQ₁ fun halong => hQ₁ (hiff.mpr halong.1)

/-- A run whose steps all meet a condition stays good, and one with a step that does not
turns bad and stays so. -/
theorem run_along {M : TSys σ α} {ok : σ → α → Prop} {I Q B : σ → Prop}
    (hI : ∀ s a s', I s → M.next s a = some s' → I s')
    (hgood : ∀ s a s', I s → Q s → M.next s a = some s' → ok s a → Q s')
    (hturn : ∀ s a s', I s → Q s → M.next s a = some s' → ¬ ok s a → B s')
    (hbad : ∀ s a s', I s → B s → M.next s a = some s' → B s') {as : List α} {s s' : σ} (hs : I s)
    (hQ : Q s) (h : M.run s as = some s') :
    (M.Along ok s as → Q s') ∧ (¬ M.Along ok s as → B s') := by
  induction as generalizing s with
  | nil =>
      cases h
      exact ⟨fun _ => hQ, fun hno => absurd trivial hno⟩
  | cons a rest ih =>
      obtain ⟨s₁, hnext, hrest⟩ := Option.bind_eq_some_iff.mp h
      have hs₁ := hI s a s₁ hs hnext
      by_cases hok : ok s a
      · obtain ⟨hall, hsome⟩ := ih hs₁ (hgood s a s₁ hs hQ hnext hok) hrest
        refine ⟨fun halong => hall (halong.2 s₁ hnext), fun hno => hsome fun halong => hno ⟨hok, ?_⟩⟩
        intro s₂ hs₂
        cases hnext.symm.trans hs₂
        exact halong
      · refine ⟨fun halong => absurd halong.1 hok, fun _ => ?_⟩
        have hstay : ∀ s a s', I s ∧ B s → M.next s a = some s' → I s' ∧ B s' :=
          fun s a s' hb hn => ⟨hI s a s' hb.1 hn, hbad s a s' hb.1 hb.2 hn⟩
        exact (run_stable hstay ⟨hs₁, hturn s a s₁ hs hQ hnext hok⟩ hrest).2

end TSys

end RtaiDemos
