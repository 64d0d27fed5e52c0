import RtaiDemos.Clock.SemCommand

/-!
# The three ports of the chronometer's command buffer

`cmdcrn.c` of `user/sem_clock`, `kern/sem_clock` and `kern/mupspecific/sem_clock`
is one text but for two places: the test of `Put` (only the first accepts an `F`
in every status) and how `Get` tells from the value of `rt_sem_wait_timed` that
it took a unit. All three are driven by one schedule; a task that is blocked in
its port stays where it is.
-/

namespace RtaiDemos.Clock.Sem

/-- The two places in which the ports differ. -/
structure Port where
  accepts : ChronoStatus → ChronoCommand → Bool
  took : (SEM_TIMOUT : Int) → Int → Bool

/-- `user/sem_clock/cmdcrn.c`. -/
def Port.user : Port where
  accepts := ChronoStatus.accepts
  took _ r := r < 0xFFFE

/-- The test of `Put` in the kernel ports. -/
def ChronoStatus.acceptsKern (Chronostatus : ChronoStatus) (command : ChronoCommand) : Bool :=
  (Chronostatus == .running) != (command == .C)

/-- `kern/sem_clock/cmdcrn.c`. -/
def Port.kern : Port where
  accepts := ChronoStatus.acceptsKern
  took SEM_TIMOUT r := r != SEM_TIMOUT

/-- `kern/mupspecific/sem_clock/cmdcrn.c`. -/
def Port.mupspecific : Port where
  accepts := ChronoStatus.acceptsKern
  took _ r := r ≥ 0

/-- `rt_sem_wait_timed(notEmpty, fiveSeconds)`: the code of a time-out, or the
count before the unit was taken. -/
def State.rt_sem_wait_timed {S C : Type} (SEM_TIMOUT : Int) (σ : State S C) (timeout : Bool) :
    Option (Int × State S C) :=
  if timeout then some (SEM_TIMOUT, σ)
  else if 0 < σ.notEmpty then some (σ.notEmpty, { σ with notEmpty := σ.notEmpty - 1 })
  else none

namespace Port

variable (port : Port) (SEM_TIMOUT : Int)

/-- `CommandChrono_Get` of a port, the next statement. -/
def CommandChrono_Get (σ : State ChronoStatus ChronoCommand) (timeout : Bool) :
    Option (State ChronoStatus ChronoCommand) :=
  match σ.getter with
  | .wait_timed .stoppedFinal =>
    (σ.rt_sem_wait_timed SEM_TIMOUT timeout).map fun (r, σ) =>
      { σ with
        getter := if port.took SEM_TIMOUT r then .keep .stoppedFinal else .reset .stoppedFinal }
  | _ => Sem.CommandChrono_Get σ timeout

/-- One step of a port. -/
def step (σ : State ChronoStatus ChronoCommand) :
    Label ChronoCommand → Option (State ChronoStatus ChronoCommand)
  | .call command => if σ.putter = .idle then some { σ with putter := .wait command } else none
  | .put => Put port.accepts σ
  | .get timeout => port.CommandChrono_Get SEM_TIMOUT σ timeout

/-- A step of the schedule: what is blocked stays. -/
def drive (σ : State ChronoStatus ChronoCommand) (l : Label ChronoCommand) :
    State ChronoStatus ChronoCommand :=
  (port.step SEM_TIMOUT σ l).getD σ

end Port

/-- The three ports. -/
structure Ports where
  user : State ChronoStatus ChronoCommand
  kern : State ChronoStatus ChronoCommand
  mupspecific : State ChronoStatus ChronoCommand

/-- The schedules put `C`, `I` and `E`. -/
def Label.scheduled : Label ChronoCommand → Bool
  | .call command => command == .C || command == .I || command == .E
  | _ => true

/-- One schedule drives the three ports. -/
def Ports.step (SEM_TIMOUT : Int) (σ : Ports) (l : Label ChronoCommand) : Option Ports :=
  if l.scheduled then
    some
      { user := Port.user.drive SEM_TIMOUT σ.user l
        kern := Port.kern.drive SEM_TIMOUT σ.kern l
        mupspecific := Port.mupspecific.drive SEM_TIMOUT σ.mupspecific l }
  else none

/-- The three ports under every schedule, as a transition system. -/
def ports (SEM_TIMOUT : Int) : TSys Ports (Label ChronoCommand) where
  init σ := ∃ b, σ = ⟨initState .stoppedInitial b, initState .stoppedInitial b,
    initState .stoppedInitial b⟩
  next := Ports.step SEM_TIMOUT

end RtaiDemos.Clock.Sem
