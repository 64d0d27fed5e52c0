import RtaiDemos.Core.TSys
import RtaiDemos.Clock.Command

/-!
# The command buffers over semaphores

`cmdclk.c` and `cmdcrn.c` of `sem_clock`: one task puts commands, one task for
each device gets them, and a step is one statement that touches a variable both
use. `rt_sem_wait` takes a unit or blocks, `rt_sem_wait_if` takes one if there
is one, and `rt_sem_wait_timed` takes one or times out, as the label says. The
two `Put`s are one function with the test as a parameter.
-/

namespace RtaiDemos.Clock.Sem

/-- Where the putter stands, named after the statement it executes next. -/
inductive PutPc (C : Type)
  | idle
  -- `rt_sem_wait(notFull)`, the test, `buffer = command`, `rt_sem_signal(notEmpty)`,
  -- and `rt_sem_signal(notFull)` of the other branch
  | wait (command : C)
  | test (command : C)
  | write (command : C)
  | signal
  | refuse
  deriving DecidableEq, Repr

/-- Where a getter stands: the statement it executes next, with the case of the
`switch` it is in. -/
inductive GetPc (S C : Type)
  | idle
  -- the waits on `notEmpty`
  | wait (s : S)
  | wait_if (s : S)
  | wait_timed (s : S)
  -- `buffered = FALSE`, `buffered = TRUE`, `*command = buffer`
  | clear (s : S)
  | keep (s : S)
  | load (s : S)
  -- the assignment to the status, `rt_sem_signal(notFull)` with the return
  | assign (s : S) (command : C)
  | signal (command : C)
  -- `Chronostatus = stoppedInitial` with the return
  | reset (s : S)
  -- the task has got `F` and calls `Get` no more
  | ended
  deriving DecidableEq, Repr

/-- The variables of `cmdclk.c` or `cmdcrn.c` (`buffered` is of the latter) and
the two tasks; then what has happened: the commands that passed the test of
`Put`, what `Get` returned and whether it came out of the buffer, whether the
buffer holds a command that was not read, and whether one was overwritten. -/
structure State (S C : Type) where
  status : S
  buffer : C
  notEmpty : Nat
  notFull : Nat
  buffered : Bool
  putter : PutPc C
  getter : GetPc S C
  accepted : List C
  got : List (C × Bool)
  unread : Bool
  overwritten : Bool

/-- The putter calls `Put` or executes its next statement, or the getter
executes its next one; `timeout` is what happens to a timed wait. -/
inductive Label (C : Type)
  | call (command : C)
  | put
  | get (timeout : Bool)
  deriving DecidableEq, Repr

variable {S C : Type}

/-- `rt_sem_wait(notEmpty)`, or another wait on it that takes a unit. -/
def State.take (σ : State S C) (getter : GetPc S C) : Option (State S C) :=
  if 0 < σ.notEmpty then some { σ with notEmpty := σ.notEmpty - 1, getter := getter } else none

/-- `*command = buffer`. -/
def State.load (σ : State S C) (s : S) : State S C :=
  { σ with getter := .assign s σ.buffer, unread := false }

/-- The return of `Get`. -/
def State.ret (σ : State S C) (command : C) (taken last : Bool) : State S C :=
  { σ with
    got := σ.got ++ [(command, taken)]
    getter := if last then .ended else .idle }

/-- `rt_sem_signal(notFull)` and the return. -/
def State.release (σ : State S C) (command : C) (last : Bool) : State S C :=
  { σ.ret command true last with notFull := σ.notFull + 1 }

/-- `CommandClock_Put` and `CommandChrono_Put`, the next statement. -/
def Put (accepts : S → C → Bool) (σ : State S C) : Option (State S C) :=
  match σ.putter with
  | .idle => none
  | .wait command =>
    if 0 < σ.notFull then some { σ with notFull := σ.notFull - 1, putter := .test command }
    else none
  | .test command =>
    if accepts σ.status command then
      some { σ with putter := .write command, accepted := σ.accepted ++ [command] }
    else some { σ with putter := .refuse }
  | .write command =>
    some { σ with
      buffer := command
      putter := .signal
      unread := true
      overwritten := σ.overwritten || σ.unread }
  | .signal => some { σ with notEmpty := σ.notEmpty + 1, putter := .idle }
  | .refuse => some { σ with notFull := σ.notFull + 1, putter := .idle }

/-- `CommandClock_Put`. -/
def CommandClock_Put : State ClockStatus ClockCommand → Option (State ClockStatus ClockCommand) :=
  Put ClockStatus.accepts

/-- `CommandChrono_Put`. -/
def CommandChrono_Put :
    State ChronoStatus ChronoCommand → Option (State ChronoStatus ChronoCommand) :=
  Put ChronoStatus.accepts

/-- `CommandClock_Get`, the next statement. -/
def CommandClock_Get (σ : State ClockStatus ClockCommand) :
    Option (State ClockStatus ClockCommand) :=
  match σ.getter with
  | .idle =>
    match σ.status with
    | .stopped => some { σ with getter := .wait .stopped }
    | .running => some { σ with getter := .wait_if .running }
  | .wait .stopped => σ.take (.load .stopped)
  | .wait_if .running =>
    if 0 < σ.notEmpty then σ.take (.load .running) else some (σ.ret .R false false)
  | .load s => some (σ.load s)
  | .assign .stopped command =>
    some { σ with
      status := if command = .R then .running else σ.status
      getter := .signal command }
  | .assign .running command =>
    some { σ with
      status := if command = .T then .stopped else σ.status
      getter := .signal command }
  | .signal command => some (σ.release command (command == .F))
  | _ => none

/-- `CommandChrono_Get`, the next statement. -/
def CommandChrono_Get (σ : State ChronoStatus ChronoCommand) (timeout : Bool) :
    Option (State ChronoStatus ChronoCommand) :=
  match σ.getter with
  | .idle =>
    match σ.status with
    | .stoppedInitial =>
      some { σ with
        getter := if σ.buffered then .clear .stoppedInitial else .wait .stoppedInitial }
    | .running => some { σ with getter := .wait_if .running }
    | .stoppedFinal => some { σ with getter := .wait_timed .stoppedFinal }
  | .clear .stoppedInitial =>
    some { σ with buffered := false, getter := .load .stoppedInitial }
  | .wait .stoppedInitial => σ.take (.load .stoppedInitial)
  | .wait_if .running =>
    if 0 < σ.notEmpty then σ.take (.load .running) else some (σ.ret .C false false)
  | .wait_timed .stoppedFinal =>
    if timeout then some { σ with getter := .reset .stoppedFinal }
    else σ.take (.keep .stoppedFinal)
  | .keep .stoppedFinal => some { σ with buffered := true, getter := .reset .stoppedFinal }
  | .load s => some (σ.load s)
  | .assign .stoppedInitial command =>
    some { σ with status := .running, getter := .signal command }
  | .assign .running command =>
    some { σ with
      status := if command = .E then .stoppedFinal else σ.status
      getter := .signal command }
  | .signal command => some (σ.release command (command == .F))
  | .reset .stoppedFinal => some { σ.ret .R false false with status := .stoppedInitial }
  | _ => none

/-- One step of the clock's buffer. -/
def clockStep (σ : State ClockStatus ClockCommand) :
    Label ClockCommand → Option (State ClockStatus ClockCommand)
  | .call command => if σ.putter = .idle then some { σ with putter := .wait command } else none
  | .put => CommandClock_Put σ
  | .get _ => CommandClock_Get σ

/-- One step of the chronometer's buffer. -/
def chronoStep (σ : State ChronoStatus ChronoCommand) :
    Label ChronoCommand → Option (State ChronoStatus ChronoCommand)
  | .call command =>
    if σ.putter = .idle ∧ command.key then some { σ with putter := .wait command } else none
  | .put => CommandChrono_Put σ
  | .get timeout => CommandChrono_Get σ timeout

/-- `init_cmdclk` and `init_cmdcrn`; the buffer holds anything. -/
def initState (status : S) (buffer : C) : State S C :=
  { status := status
    buffer := buffer
    notEmpty := 0
    notFull := 1
    buffered := false
    putter := .idle
    getter := .idle
    accepted := []
    got := []
    unread := false
    overwritten := false }

/-- Both devices. -/
structure System where
  clock : State ClockStatus ClockCommand
  chrono : State ChronoStatus ChronoCommand

/-- A step at one of the devices. -/
inductive SystemLabel
  | clock (l : Label ClockCommand)
  | chrono (l : Label ChronoCommand)
  deriving DecidableEq, Repr

/-- The label is a call of `Put`. -/
def Label.isCall : Label C → Bool
  | .call _ => true
  | _ => false

/-- The label is a statement of `Get`. -/
def Label.isGet : Label C → Bool
  | .get _ => true
  | _ => false

/-- One step. There is one putter: it calls a `Put` when it is in neither. -/
def step (σ : System) : SystemLabel → Option System
  | .clock l =>
    if l.isCall ∧ σ.chrono.putter ≠ .idle then none
    else (clockStep σ.clock l).map fun clock => { σ with clock := clock }
  | .chrono l =>
    if l.isCall ∧ σ.clock.putter ≠ .idle then none
    else (chronoStep σ.chrono l).map fun chrono => { σ with chrono := chrono }

/-- The two buffers with their tasks, as a transition system. -/
def machine : TSys System SystemLabel where
  init σ := ∃ b b', σ = ⟨initState .stopped b, initState .stoppedInitial b'⟩
  next := step

end RtaiDemos.Clock.Sem
