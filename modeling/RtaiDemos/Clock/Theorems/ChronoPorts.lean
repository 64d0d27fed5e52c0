import RtaiDemos.Clock.ChronoPorts
import RtaiDemos.Clock.Theorems.SemStreams

/-!
# The ports of the chronometer's command buffer agree

The user port is the machine of `cmdcrn.c` already studied, the kernel port is
in the same state after every schedule, and the `mupspecific` port is as long as
no wait of the final stop times out: its test takes the code of a time-out for a
count, and the next `Get` then reads the buffer without a unit and signals
`notFull` a second time.
-/

namespace RtaiDemos.Clock.Sem

/-- The commands of the schedules in the putter's hands. -/
def PutPc.scheduled : PutPc ChronoCommand → Bool
  | .wait command | .test command | .write command => command != .F && command.key
  | _ => true

theorem Label.scheduled_call {c : ChronoCommand} (h : Label.scheduled (.call c) = true) :
    c.key = true ∧ PutPc.scheduled (.wait c) = true := by
  cases c <;> first | exact ⟨rfl, rfl⟩ | cases h

/-- The kernel ports refuse nothing of the schedules that the user port takes. -/
theorem acceptsKern_eq {s : ChronoStatus} {c : ChronoCommand} (h : c ≠ .F) :
    ChronoStatus.acceptsKern s c = ChronoStatus.accepts s c := by
  unfold ChronoStatus.acceptsKern ChronoStatus.accepts
  have hF : (c == ChronoCommand.F) = false := by simpa using h
  rw [hF, Bool.or_false]

/-- `Put` with another test that answers the same. -/
theorem Put_congr {S C : Type} {accepts accepts' : S → C → Bool} {σ : State S C}
    (h : ∀ c, σ.putter = .test c → accepts' σ.status c = accepts σ.status c) :
    Put accepts' σ = Put accepts σ := by
  unfold Put
  split
  · rfl
  · rfl
  · rename_i c hpc
    rw [h c hpc]
  · rfl
  · rfl
  · rfl

/-! ## What a wait of the final stop says -/

/-- The getter waits in its final stop. -/
def State.waitsTimed (σ : State ChronoStatus ChronoCommand) : Prop :=
  σ.getter = .wait_timed .stoppedFinal

/-- The value of the wait of a getter that shares one unit: a port that reads it
rightly does what the model of `cmdcrn.c` does. -/
theorem Port.CommandChrono_Get_eq {port : Port} {T : Int} {σ : State ChronoStatus ChronoCommand}
    {timeout : Bool} (hone : σ.notEmpty ≤ 1) (hunit : port.took T 1 = true)
    (htimeout : σ.waitsTimed → timeout = true → port.took T T = false) :
    port.CommandChrono_Get T σ timeout = Sem.CommandChrono_Get σ timeout := by
  unfold Port.CommandChrono_Get
  split
  · rename_i hpc
    unfold Sem.CommandChrono_Get State.rt_sem_wait_timed State.take
    rw [hpc]
    cases timeout with
    | true =>
        have hnot := htimeout hpc rfl
        simp [hnot]
    | false =>
        by_cases hpos : 0 < σ.notEmpty
        · have hcount : σ.notEmpty = 1 := by omega
          simp [hcount, hunit]
        · simp [hpos]
  · rfl

/-! ## One step -/

/-- What holds of each port: the invariant of `cmdcrn.c`, and no `F`. -/
structure PortOk (σ : State ChronoStatus ChronoCommand) : Prop where
  chrono : ChronoOk σ
  scheduled : σ.putter.scheduled = true

theorem PortOk.one {σ : State ChronoStatus ChronoCommand} (h : PortOk σ) :
    σ.notFull + σ.notEmpty + σ.buffered.toNat ≤ 1 := by
  have htoken := h.chrono.inv.token
  have hunread := h.chrono.inv.unread
  omega

theorem PortOk.init (b : ChronoCommand) : PortOk (initState .stoppedInitial b) := by
  have h := (system_invariant ⟨initState .stopped .R, initState .stoppedInitial b⟩
    (.init ⟨.R, b, rfl⟩)).chrono
  exact ⟨h, rfl⟩

/-- A step of the model of `cmdcrn.c` under a schedule. -/
theorem PortOk.modelStep {σ σ' : State ChronoStatus ChronoCommand} {l : Label ChronoCommand}
    (h : PortOk σ) (hl : l.scheduled = true) (hstep : chronoStep σ l = some σ') : PortOk σ' := by
  refine ⟨h.chrono.step hstep, ?_⟩
  have hput := h.scheduled
  cases l with
  | call c =>
      simp only [Sem.chronoStep] at hstep
      split at hstep
      · cases hstep
        exact (Label.scheduled_call hl).2
      · cases hstep
  | put =>
      simp only [Sem.chronoStep, CommandChrono_Put, Put] at hstep
      split at hstep
      · cases hstep
      · rename_i c hpc
        rw [hpc] at hput
        split at hstep
        · cases hstep
          exact hput
        · cases hstep
      · rename_i c hpc
        rw [hpc] at hput
        split at hstep
        · cases hstep
          exact hput
        · cases hstep
          rfl
      · cases hstep
        rfl
      · cases hstep
        rfl
      · cases hstep
        rfl
  | get timeout =>
      have hget : CommandChrono_Get σ timeout = some σ' := hstep
      rw [(CommandChrono_Get_step hget h.chrono.inv).frame.1]
      exact hput

/-- A port steps as the model of `cmdcrn.c` does, if it accepts the same
commands of the schedules and reads the value of the wait rightly. -/
theorem PortOk.step_eq {port : Port} {T : Int} {σ : State ChronoStatus ChronoCommand}
    {l : Label ChronoCommand} (h : PortOk σ) (hl : l.scheduled = true)
    (haccepts : ∀ c, c ≠ .F → port.accepts σ.status c = ChronoStatus.accepts σ.status c)
    (hunit : port.took T 1 = true)
    (htimeout : σ.waitsTimed → l = .get true → port.took T T = false) :
    port.step T σ l = chronoStep σ l := by
  cases l with
  | call c =>
      have hkey := (Label.scheduled_call hl).1
      simp only [Port.step, Sem.chronoStep, hkey, and_true]
  | put =>
      refine Put_congr ?_
      intro c hpc
      apply haccepts
      intro hF
      have hput := h.scheduled
      rw [hpc, hF] at hput
      cases hput
  | get timeout =>
      refine Port.CommandChrono_Get_eq ?_ hunit ?_
      · have hone := h.one
        omega
      · intro hpc ht
        exact htimeout hpc (by rw [ht])

theorem PortOk.drive {port : Port} {T : Int} {σ : State ChronoStatus ChronoCommand}
    {l : Label ChronoCommand} (h : PortOk σ) (hl : l.scheduled = true)
    (heq : port.step T σ l = chronoStep σ l) : PortOk (port.drive T σ l) := by
  unfold Port.drive
  rw [heq]
  cases hstep : chronoStep σ l with
  | none => exact h
  | some σ' => exact h.modelStep hl hstep

/-! ## Runs -/

/-- No wait of the `mupspecific` port times out. -/
def NoTimeout (σ : Ports) (l : Label ChronoCommand) : Prop :=
  ¬ (σ.mupspecific.waitsTimed ∧ l = .get true)

section

variable {T : Int} {σ σ' : Ports} {l : Label ChronoCommand}

/-- The user port is a run of the model of `cmdcrn.c`, and the kernel port is
where it is. -/
structure UserKern (σ : Ports) : Prop where
  user : PortOk σ.user
  kern : σ.kern = σ.user

theorem Ports.step_cases (h : (ports T).next σ l = some σ') :
    l.scheduled = true ∧ σ' = ⟨Port.user.drive T σ.user l, Port.kern.drive T σ.kern l,
      Port.mupspecific.drive T σ.mupspecific l⟩ := by
  simp only [ports, Ports.step] at h
  split at h
  · rename_i hl
    cases h
    exact ⟨hl, rfl⟩
  · cases h

/-- The user port reads the value of the wait rightly. -/
theorem PortOk.userStep {σ : State ChronoStatus ChronoCommand} (hT : 0xFFFE ≤ T) (h : PortOk σ)
    (hl : l.scheduled = true) : Port.user.step T σ l = chronoStep σ l := by
  refine h.step_eq hl (fun _ _ => rfl) (by rfl) ?_
  intro _ _
  show decide (T < 0xFFFE) = false
  exact decide_eq_false (by omega)

/-- So does the kernel port. -/
theorem PortOk.kernStep {σ : State ChronoStatus ChronoCommand} (hT : 0xFFFE ≤ T) (h : PortOk σ)
    (hl : l.scheduled = true) : Port.kern.step T σ l = chronoStep σ l := by
  refine h.step_eq hl (fun c hc => acceptsKern_eq hc) ?_ ?_
  · show (1 != T) = true
    exact bne_iff_ne.mpr (by omega)
  · intro _ _
    show (T != T) = false
    exact bne_self_eq_false T

theorem UserKern.step (hT : 0xFFFE ≤ T) (h : UserKern σ) (hstep : (ports T).next σ l = some σ') :
    UserKern σ' := by
  obtain ⟨hl, rfl⟩ := Ports.step_cases hstep
  refine ⟨h.user.drive hl (h.user.userStep hT hl), ?_⟩
  show Port.kern.drive T σ.kern l = Port.user.drive T σ.user l
  rw [h.kern]
  unfold Port.drive
  rw [h.user.userStep hT hl, h.user.kernStep hT hl]

theorem user_kern_invariant (hT : 0xFFFE ≤ T) : (ports T).Invariant UserKern := by
  refine TSys.Invariant.of_inductive ?_ fun σ σ' l h hstep => h.step hT hstep
  rintro σ ⟨b, rfl⟩
  exact ⟨.init b, rfl⟩

/-- Without a time-out the `mupspecific` port takes the step of the others. -/
theorem UserKern.mupspecific (h : UserKern σ) (hsame : σ.mupspecific = σ.user)
    (hok : NoTimeout σ l) (hl : l.scheduled = true) :
    Port.mupspecific.step T σ.user l = chronoStep σ.user l := by
  refine h.user.step_eq hl (fun c hc => acceptsKern_eq hc) (by rfl) ?_
  intro hwaits hget
  rw [← hsame] at hwaits
  exact absurd ⟨hwaits, hget⟩ hok

theorem mupspecific_invariant (hT : 0xFFFE ≤ T) :
    (ports T).InvariantBy NoTimeout fun σ => σ.mupspecific = σ.user := by
  intro σ hσ
  induction hσ with
  | init hi =>
      obtain ⟨b, rfl⟩ := hi
      rfl
  | step hr hok hstep ih =>
      rename_i σ₁ σ₂ l
      have h := user_kern_invariant hT σ₁ hr.reachable
      obtain ⟨hl, rfl⟩ := Ports.step_cases hstep
      have hmup := h.mupspecific (T := T) ih hok hl
      show Port.mupspecific.drive T σ₁.mupspecific l = Port.user.drive T σ₁.user l
      rw [ih]
      unfold Port.drive
      rw [h.user.userStep hT hl, hmup]

end

/-- The units of the two semaphores and of the flag. -/
def State.units {S C : Type} (σ : State S C) : Nat :=
  σ.notFull + σ.notEmpty + σ.buffered.toNat

/-- The user and the kernel port return the same commands after every schedule,
and the `mupspecific` port does after every schedule in which none of its waits
times out; in each of them there is one unit at most. -/
theorem ports_agree (SEM_TIMOUT : Int) (hT : 0xFFFE ≤ SEM_TIMOUT) :
    ((ports SEM_TIMOUT).Invariant fun σ =>
      σ.kern.results = σ.user.results ∧ σ.user.units ≤ 1 ∧ σ.kern.units ≤ 1) ∧
    (ports SEM_TIMOUT).InvariantBy NoTimeout fun σ =>
      σ.mupspecific.results = σ.user.results ∧ σ.mupspecific.units ≤ 1 := by
  refine ⟨?_, ?_⟩
  · intro σ hσ
    have h := user_kern_invariant hT σ hσ
    rw [h.kern]
    exact ⟨rfl, h.user.one, h.user.one⟩
  · intro σ hσ
    have h := user_kern_invariant hT σ hσ.reachable
    have hmup := mupspecific_invariant hT σ hσ
    rw [hmup]
    exact ⟨rfl, h.user.one⟩

instance (σ : Ports) (l : Label ChronoCommand) : Decidable (NoTimeout σ l) := by
  unfold NoTimeout State.waitsTimed
  infer_instance

/-- Start, stop, start again while the wait of the final stop has not timed out. -/
def restartRun : List (Label ChronoCommand) :=
  [.call .C, .put, .put, .put, .put, .get false, .get false, .get false, .get false, .get false,
    .call .E, .put, .put, .put, .put, .get false, .get false, .get false, .get false, .get false,
    .get false, .get false, .call .C, .put, .put, .put, .put, .get false, .get false, .get false,
    .get false, .get false, .get false, .get false, .get false]

set_option maxRecDepth 4000 in
/-- With the code of `SEM_TIMOUT` in RTAI, on `restartRun`. -/
theorem ports_agree_rtai : ∃ σ, (ports 0xFFFE).ReachableBy NoTimeout σ ∧
    σ.user.results = [.C, .E, .R, .C] ∧ (σ.kern.results = σ.user.results ∧ σ.kern.units ≤ 1) ∧
    σ.mupspecific.results = σ.user.results ∧ σ.mupspecific.units ≤ 1 := by
  let σ₀ : Ports := ⟨initState .stoppedInitial .C, initState .stoppedInitial .C,
    initState .stoppedInitial .C⟩
  have hinit : (ports 0xFFFE).init σ₀ := ⟨.C, rfl⟩
  have hrun : (ports 0xFFFE).leadsBy NoTimeout (fun σ => σ.user.results == [.C, .E, .R, .C]) σ₀
      restartRun = true := by decide
  obtain ⟨σ, hσ, hask⟩ := TSys.ReachableBy.of_leadsBy (.init hinit) hrun
  obtain ⟨halways, hclear⟩ := ports_agree 0xFFFE (by decide)
  obtain ⟨hkern, -, hunits⟩ := halways σ hσ.reachable
  exact ⟨σ, hσ, eq_of_beq hask, ⟨hkern, hunits⟩, hclear σ hσ⟩

/-- Start, stop, and nothing put until the wait of the final stop times out. -/
def timeoutRun : List (Label ChronoCommand) :=
  [.call .C, .put, .put, .put, .put, .get false, .get false, .get false, .get false, .get false,
    .call .E, .put, .put, .put, .put, .get false, .get false, .get false, .get false, .get false,
    .get false, .get true, .get false, .get false, .get false, .get false, .get false, .get false,
    .get false]

/-- In `timeoutRun` the `mupspecific` port returns the `E` a second time and has
two units, while the others wait for a command. -/
theorem mupspecific_timeout : ¬ ∀ SEM_TIMOUT : Int, 0xFFFE ≤ SEM_TIMOUT →
    (ports SEM_TIMOUT).Invariant fun σ =>
      (σ.kern.results = σ.user.results ∧ σ.mupspecific.results = σ.user.results) ∧
        σ.user.units ≤ 1 ∧ σ.kern.units ≤ 1 ∧ σ.mupspecific.units ≤ 1 := by
  intro h
  let σ₀ : Ports := ⟨initState .stoppedInitial .C, initState .stoppedInitial .C,
    initState .stoppedInitial .C⟩
  have hinit : (ports 0xFFFE).init σ₀ := ⟨.C, rfl⟩
  have hrun : (ports 0xFFFE).leadsTo σ₀ timeoutRun
      (fun σ => σ.mupspecific.results == [.C, .E, .R, .E] && σ.user.results == [.C, .E, .R] &&
        σ.mupspecific.units == 2) = true := by decide
  obtain ⟨σ, hσ, hask⟩ := TSys.Reachable.of_leadsTo hinit hrun
  have hunits : σ.mupspecific.units = 2 := by
    simp only [Bool.and_eq_true, beq_iff_eq] at hask
    exact hask.2
  have hle := (h 0xFFFE (by decide) σ hσ).2.2.2
  omega

end RtaiDemos.Clock.Sem
