import RtaiDemos.Fusion.Bind

/-!
# Bind and create

`rt_obj_bind` creates the semaphore it waits on under the id of the name itself,
and `support_task` broadcasts what is registered under that id, so a binder that
comes before the creation breaks everything: the next binder takes the semaphore
for the object, a queue's creator finds nobody to release, a task's creator finds
the task created. In every run in which no binder creates a semaphore, binding
gives the created object and nobody is left blocked.
-/

namespace RtaiDemos.Fusion

variable {w : Nat} {id : BitVec w} {kind : Creation} {σ σ' : State w}

/-- No `rt_obj_bind` gets the semaphore it asks for: it has found the name or
`NAMED_SEM_INIT` fails. -/
def NoSemaphore (σ : State w) : Label w → Prop
  | .bind i outcome => σ.binders i = .semInit → outcome = .fail
  | _ => True

instance (σ : State w) : (l : Label w) → Decidable (NoSemaphore σ l)
  | .bind i outcome => inferInstanceAs (Decidable (σ.binders i = .semInit → outcome = .fail))
  | .unblock _ | .create _ | .start | .other _ _ => .isTrue trivial

/-- What is required of binding to the name with this id. -/
structure BindsCreated (id : BitVec w) (σ : State w) : Prop where
  /-- A binder waits on the semaphore that the release broadcasts. -/
  waits : ∀ i sem, σ.binders i = .blocked sem →
    σ.registry (~~~id) = some sem ∧ ∀ h, σ.creator = .broadcast h → h = sem
  /-- A bind that returns 0 gives the created object, which is no semaphore. -/
  returns : ∀ i adr, σ.binders i = .returned adr →
    ∃ h, adr = some h ∧ σ.created = some h ∧ ∀ count, σ.objects h ≠ some (.sem count)
  /-- Nobody is blocked after the release. -/
  released : σ.creator = .released → ∀ i sem, σ.binders i ≠ .blocked sem

/-- Where a binder stands when nobody waits. -/
def BinderPc.quiet (created : Option Nat) : BinderPc → Prop
  | .semWait _ | .blocked _ | .getAgain => False
  | .returned adr => adr = created ∧ adr.isSome
  | _ => True

/-- The creator has not yet made the object. -/
def CreatorPc.before : CreatorPc → Bool
  | .start | .getHandle | .init => true
  | _ => false

/-- The name is registered for the created object and for nothing else. -/
structure Quiet (id : BitVec w) (kind : Creation) (σ : State w) : Prop where
  name : σ.registry id = σ.created
  waiters : σ.registry (~~~id) = none
  obj : ∀ h, σ.created = some h → h < σ.fresh ∧ σ.objects h = some kind.obj
  before : σ.creator.before = true → σ.created = none
  binder : ∀ i, (σ.binders i).quiet σ.created

theorem not_ne (hw : 0 < w) (id : BitVec w) : ~~~id ≠ id := by
  intro h
  have hbit := congrArg (fun x : BitVec w => x.getLsbD 0) h
  simp [hw] at hbit

/-- A step of a binder that does not wait. -/
theorem Quiet.setBinder (h : Quiet id kind σ) (i : Nat) {pc : BinderPc}
    (hpc : pc.quiet σ.created) : Quiet id kind (σ.setBinder i pc) := by
  refine ⟨h.name, h.waiters, h.obj, h.before, ?_⟩
  intro j
  show (Function.update σ.binders i pc j).quiet σ.created
  by_cases hj : j = i
  · subst hj
    rw [Function.update_self]
    exact hpc
  · rw [Function.update_of_ne hj]
    exact h.binder j

theorem Quiet.bind (h : Quiet id kind σ) {i : Nat} {outcome : Outcome}
    (hok : NoSemaphore σ (.bind i outcome)) (hstep : rt_obj_bind id σ i outcome = some σ') :
    Quiet id kind σ' := by
  have hbinder := h.binder i
  unfold rt_obj_bind at hstep
  cases hpc : σ.binders i with
  | getHandle =>
      rw [hpc] at hstep
      simp only at hstep
      cases hreg : σ.registry id with
      | none =>
          rw [hreg] at hstep
          cases hstep
          exact h.setBinder i trivial
      | some adr =>
          rw [hreg] at hstep
          cases hstep
          refine h.setBinder i ⟨?_, rfl⟩
          rw [← h.name, hreg]
  | getSem =>
      rw [hpc] at hstep
      simp only [h.waiters] at hstep
      cases hstep
      exact h.setBinder i trivial
  | semInit =>
      have hfail := hok hpc
      rw [hpc, hfail] at hstep
      cases hstep
      exact h.setBinder i trivial
  | semWait sem =>
      rw [hpc] at hbinder
      exact hbinder.elim
  | blocked sem =>
      rw [hpc] at hbinder
      exact hbinder.elim
  | getAgain =>
      rw [hpc] at hbinder
      exact hbinder.elim
  | returned adr =>
      rw [hpc] at hstep
      cases hstep
  | failed =>
      rw [hpc] at hstep
      cases hstep

/-- A step of the creator that neither registers nor makes anything. -/
theorem Quiet.move (h : Quiet id kind σ) (pc : CreatorPc) (handle : Option Nat)
    (hpc : pc.before = true → σ.creator.before = true) :
    Quiet id kind { σ with handle := handle, creator := pc } :=
  ⟨h.name, h.waiters, h.obj, fun hb => h.before (hpc hb), h.binder⟩

/-- The object is made. -/
theorem Quiet.made (hw : 0 < w) (h : Quiet id kind σ) (hbefore : σ.creator.before = true)
    {pc : CreatorPc} (hpc : pc.before = false) :
    Quiet id kind { σ.register id kind.obj with
      handle := some σ.fresh, created := some σ.fresh, creator := pc } := by
  refine ⟨Function.update_self _ _ _, ?_, ?_, ?_, ?_⟩
  · show Function.update σ.registry id (some σ.fresh) (~~~id) = none
    rw [Function.update_of_ne (not_ne hw id)]
    exact h.waiters
  · intro handle hcreated
    cases hcreated
    exact ⟨Nat.lt_succ_self _, Function.update_self _ _ _⟩
  · intro hb
    rw [hpc] at hb
    cases hb
  · -- nobody has returned, for nothing was created
    intro i
    have hbinder := h.binder i
    rw [h.before hbefore] at hbinder
    show (σ.binders i).quiet (some σ.fresh)
    cases hi : σ.binders i with
    | returned adr =>
        rw [hi] at hbinder
        obtain ⟨rfl, hsome⟩ := hbinder
        cases hsome
    | _ =>
        rw [hi] at hbinder
        exact hbinder

theorem Creation.made_not_before (kind : Creation) (handle : Option Nat) :
    (kind.made handle).before = false := by
  cases kind with
  | queue => cases handle <;> rfl
  | task => rfl

theorem Quiet.create (hw : 0 < w) (h : Quiet id kind σ) {outcome : Outcome}
    (hstep : create id kind σ outcome = some σ') : Quiet id kind σ' := by
  unfold Fusion.create at hstep
  cases hpc : σ.creator with
  | start =>
      have hbefore : σ.creator.before = true := by rw [hpc]; rfl
      rw [hpc] at hstep
      cases hkind : kind with
      | queue =>
          subst hkind
          cases hstep
          exact h.move _ σ.handle fun _ => hbefore
      | task =>
          subst hkind
          cases hstep
          exact h.move _ σ.handle fun _ => hbefore
  | getHandle =>
      have hbefore : σ.creator.before = true := by rw [hpc]; rfl
      have hnone : σ.registry id = none := by rw [h.name, h.before hbefore]
      rw [hpc] at hstep
      simp only [hnone] at hstep
      cases hstep
      exact h.move .init σ.handle fun _ => hbefore
  | init =>
      have hbefore : σ.creator.before = true := by rw [hpc]; rfl
      have hnone : σ.registry id = none := by rw [h.name, h.before hbefore]
      rw [hpc] at hstep
      cases outcome with
      | fail =>
          cases hstep
          refine ⟨?_, h.waiters, nofun, fun _ => rfl, ?_⟩
          · exact hnone
          · intro i
            have hbinder := h.binder i
            rw [h.before hbefore] at hbinder
            exact hbinder
      | new =>
          cases hstep
          exact h.made hw hbefore (Creation.made_not_before kind _)
      | shared =>
          simp only [State.namedInit, hnone] at hstep
          cases hstep
  | resume =>
      rw [hpc] at hstep
      cases hstep
      exact h.move .suspend σ.handle nofun
  | suspend =>
      rw [hpc] at hstep
      cases hstep
      refine h.move _ σ.handle ?_
      intro hb
      split at hb <;> cases hb
  | suspended =>
      rw [hpc] at hstep
      cases hstep
  | release =>
      rw [hpc] at hstep
      simp only at hstep
      split at hstep
      · cases hstep
        exact h.move _ σ.handle nofun
      · cases hstep
        exact h.move _ σ.handle nofun
  | broadcast sem =>
      rw [hpc] at hstep
      cases hstep
      have hsame : Quiet id kind (σ.semBroadcast sem) := by
        unfold State.semBroadcast
        split
        · rename_i count hsem
          refine ⟨h.name, h.waiters, ?_, h.before, ?_⟩
          · intro handle hcreated
            obtain ⟨hlt, hobj⟩ := h.obj handle hcreated
            refine ⟨hlt, ?_⟩
            have hne : handle ≠ sem := by
              rintro rfl
              rw [hobj] at hsem
              cases kind <;> cases hsem
            show Function.update σ.objects sem (some (.sem 0)) handle = some kind.obj
            rw [Function.update_of_ne hne]
            exact hobj
          · intro i
            have hbinder := h.binder i
            show (if σ.binders i = .blocked sem then .getAgain else σ.binders i).quiet σ.created
            split
            · rename_i hblocked
              rw [hblocked] at hbinder
              exact hbinder.elim
            · exact hbinder
        · exact h
      exact hsame.move .released _ nofun
  | released =>
      rw [hpc] at hstep
      cases hstep
  | failed =>
      rw [hpc] at hstep
      cases hstep

theorem Quiet.other (h : Quiet id kind σ) {key : BitVec w} {obj : Option Obj}
    (hstep : other id σ key obj = some σ') : Quiet id kind σ' := by
  by_cases hkey : key = id ∨ key = ~~~id
  · cases obj <;> simp [Fusion.other, hkey] at hstep
  · have hid : id ≠ key := fun heq => hkey (.inl heq.symm)
    have hnot : ~~~id ≠ key := fun heq => hkey (.inr heq.symm)
    cases obj with
    | none =>
        simp only [Fusion.other, if_neg hkey, Option.some.injEq] at hstep
        subst hstep
        refine ⟨?_, ?_, h.obj, h.before, h.binder⟩
        · exact (Function.update_of_ne hid _ _).trans h.name
        · exact (Function.update_of_ne hnot _ _).trans h.waiters
    | some obj =>
        simp only [Fusion.other, if_neg hkey, Option.some.injEq] at hstep
        subst hstep
        refine ⟨?_, ?_, ?_, h.before, h.binder⟩
        · exact (Function.update_of_ne hid _ _).trans h.name
        · exact (Function.update_of_ne hnot _ _).trans h.waiters
        · intro handle hcreated
          obtain ⟨hlt, hobj⟩ := h.obj handle hcreated
          refine ⟨Nat.lt_succ_of_lt hlt, ?_⟩
          exact (Function.update_of_ne (Nat.ne_of_lt hlt) _ _).trans hobj

theorem quiet_invariant (hw : 0 < w) (name : List UInt8) (kind : Creation) :
    (machine w name kind).InvariantBy NoSemaphore (Quiet (nam2id w name) kind) := by
  intro σ hσ
  refine hσ.induct ?_ ?_
  · rintro σ ⟨registry, objects, fresh, hname, hwaiters, rfl⟩
    exact ⟨hname, hwaiters, nofun, fun _ => rfl, fun _ => trivial⟩
  · intro σ σ' l h hok hstep
    cases l with
    | bind i outcome => exact h.bind hok hstep
    | unblock i =>
        have hstep : unblock σ i = some σ' := hstep
        unfold unblock at hstep
        split at hstep
        · cases hstep
          exact h.setBinder i trivial
        · cases hstep
    | create outcome => exact h.create hw hstep
    | start =>
        have hstep : rt_task_start σ = some σ' := hstep
        unfold rt_task_start at hstep
        split at hstep
        · cases hstep
          exact h.move .release σ.handle nofun
        · cases hstep
    | other key obj => exact h.other hstep

theorem Quiet.not_blocked (h : Quiet id kind σ) (i sem : Nat) : σ.binders i ≠ .blocked sem := by
  intro hblocked
  have hbinder := h.binder i
  rw [hblocked] at hbinder
  exact hbinder

/-- In every run in which no binder creates a semaphore. -/
theorem bind_never_misses (hw : 0 < w) (name : List UInt8) (kind : Creation) (σ : State w)
    (hσ : (machine w name kind).ReachableBy NoSemaphore σ) : BindsCreated (nam2id w name) σ := by
  have h := quiet_invariant hw name kind σ hσ
  refine ⟨?_, ?_, fun _ => h.not_blocked⟩
  · intro i sem hblocked
    exact absurd hblocked (h.not_blocked i sem)
  · intro i adr hreturned
    have hbinder := h.binder i
    rw [hreturned] at hbinder
    obtain ⟨hadr, hsome⟩ := hbinder
    obtain ⟨handle, hhandle⟩ := Option.isSome_iff_exists.mp hsome
    rw [hhandle] at hadr
    refine ⟨handle, hhandle, hadr.symm, ?_⟩
    intro count hsem
    rw [(h.obj handle hadr.symm).2] at hsem
    cases kind <;> cases hsem

/-- The name `Q`. -/
def demoName : List UInt8 := [81]

/-- Nothing is registered. -/
def emptyState : State 64 := initState (fun _ => none) (fun _ => none) 0

theorem emptyState_init (name : List UInt8) (kind : Creation) :
    (machine 64 name kind).init emptyState := ⟨_, _, _, rfl, rfl, rfl⟩

/-- A queue is created and released; a binder finds it, another had come before
and got no semaphore. -/
theorem bind_never_misses_queue : ∃ σ : State 64,
    (machine 64 demoName .queue).ReachableBy NoSemaphore σ ∧
      (σ.creator = .released ∧ σ.binders 1 = .returned (some 0)) ∧
      BindsCreated (nam2id 64 demoName) σ := by
  have hrun : (machine 64 demoName .queue).leadsBy NoSemaphore
      (fun σ => σ.creator == .released && σ.binders 1 == .returned (some 0)) emptyState
      [.bind 0 .fail, .bind 0 .fail, .create .new, .create .new, .bind 0 .fail, .create .new,
        .bind 1 .fail] = true := by decide
  obtain ⟨σ, hσ, hask⟩ := TSys.ReachableBy.of_leadsBy (.init (emptyState_init _ _)) hrun
  rw [Bool.and_eq_true_iff, beq_iff_eq, beq_iff_eq] at hask
  exact ⟨σ, hσ, hask, bind_never_misses (by decide) demoName .queue σ hσ⟩

/-- Task 0 creates the semaphore and blocks, then task 1 binds. -/
def earlyRun : List (Label 64) :=
  [.bind 0 .new, .bind 0 .new, .bind 0 .new, .bind 0 .new, .bind 1 .new]

/-- With a queue task 0 stays blocked, with a task the task is not even created;
in both task 1 has bound to the semaphore. -/
theorem bind_misses :
    ¬ (machine 64 demoName .queue).Invariant (BindsCreated (nam2id 64 demoName)) ∧
      ¬ (machine 64 demoName .task).Invariant (BindsCreated (nam2id 64 demoName)) := by
  refine ⟨?_, ?_⟩
  · intro hall
    have hrun : (machine 64 demoName .queue).leadsTo emptyState
        (earlyRun ++ [.create .new, .create .new, .create .new])
        (fun σ => σ.creator == .released && σ.binders 0 == .blocked 0) = true := by decide
    obtain ⟨σ, hσ, hask⟩ := TSys.Reachable.of_leadsTo (emptyState_init _ _) hrun
    rw [Bool.and_eq_true_iff, beq_iff_eq, beq_iff_eq] at hask
    exact (hall σ hσ).released hask.1 0 0 hask.2
  · intro hall
    have hrun : (machine 64 demoName .task).leadsTo emptyState
        (earlyRun ++ [.create .new, .create .new, .create .new, .create .new, .create .new,
          .create .new, .bind 0 .new])
        (fun σ => σ.binders 0 == .returned (some 0) && σ.created == none) = true := by decide
    obtain ⟨σ, hσ, hask⟩ := TSys.Reachable.of_leadsTo (emptyState_init _ _) hrun
    rw [Bool.and_eq_true_iff, beq_iff_eq, beq_iff_eq] at hask
    obtain ⟨h, -, hcreated, -⟩ := (hall σ hσ).returns 0 (some 0) hask.1
    rw [hask.2] at hcreated
    cases hcreated

end RtaiDemos.Fusion
