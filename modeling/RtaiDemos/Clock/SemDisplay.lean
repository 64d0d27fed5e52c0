import RtaiDemos.Core.TSys
import RtaiDemos.Core.Tasks
import RtaiDemos.Clock.Hmsh

/-!
# The display buffer over semaphores

`Display_PutHour`, `Display_PutTimes` and `Display_Get` of `sem_clock/dispclk.c`
for any finite set of tasks; a step is one statement. `Display_PutHour` and
`Display_PutTimes` are one text with the slot as a parameter. Then the program:
the clock and the chronometer put, `ClockChrono_Write` gets until it finds the
terminating chain.
-/

namespace RtaiDemos.Clock.SemDisplay

/-- The two slots, `hour` and `times`. -/
inductive Slot
  | hour | times
  deriving DecidableEq, Repr

/-- `HourBufferstatus` and `TimesBufferstatus`. -/
inductive Status
  | empty | full
  deriving DecidableEq, Repr

/-- `Display_tDest`. -/
inductive Display_tDest
  | destClock | destChrono
  deriving DecidableEq, Repr

/-- What is written to `chain[0]`. -/
def Slot.letter : Slot → Char
  | .hour => 'h'
  | .times => 't'

/-- What `*receiver` is set to. -/
def Slot.receiver : Slot → Display_tDest
  | .hour => .destClock
  | .times => .destChrono

/-- `slot.chain[0] = letter`. -/
def Slot.mark (d : Slot) (chain : MenageHmsh_tChain11) : MenageHmsh_tChain11 :=
  Function.update chain 0 d.letter

/-- What a `Get` has taken: the slot, how many chains had been put into it, and
the chain. -/
structure Taken where
  slot : Slot
  count : Nat
  chain : MenageHmsh_tChain11

/-- `*receiver`. -/
def Taken.receiver (r : Taken) : Display_tDest := r.slot.receiver

/-- Where a task stands, named after the statement it executes next. -/
inductive Pc
  | idle
  -- `rt_sem_wait(mutex)`, `hour = chain`, `hour.chain[0] = 'h'`, the test, the
  -- assignment to the status, `rt_sem_signal(notEmpty)`, `rt_sem_signal(mutex)`
  | putWait (d : Slot) (chain : MenageHmsh_tChain11)
  | putCopy (d : Slot) (chain : MenageHmsh_tChain11)
  | putMark (d : Slot)
  | putTest (d : Slot)
  | putFill (d : Slot)
  | putSignal
  | putUnlock
  -- the two waits, the tests, the copy to `*chain`, the assignment to the status,
  -- `rt_sem_signal(mutex)`; `none` if both slots were found empty
  | getWait
  | getLock
  | getTest
  | getTake (d : Slot)
  | getClear (d : Slot) (chain : MenageHmsh_tChain11)
  | getUnlock (r : Option Taken)
  -- `Display_Get` has returned
  | got (r : Option Taken)

/-- The variables of `dispclk.c` and the tasks; then what has happened: the
chains put into each slot, and what was taken and returned by `Display_Get`. -/
structure State (T : Type) where
  mutex : Nat
  notEmpty : Nat
  status : Slot → Status
  slot : Slot → MenageHmsh_tChain11
  pc : T → Pc
  puts : Slot → List MenageHmsh_tChain11
  taken : List Taken
  returned : List (Option Taken)

variable {T : Type} [DecidableEq T]

/-- Task `t` goes on to `pc`. -/
def State.goto (σ : State T) (t : T) (pc : Pc) : State T :=
  { σ with pc := Function.update σ.pc t pc }

/-- `Display_PutHour` and `Display_PutTimes`, the next statement of a task that
stands in one of them. -/
def Display_Put (σ : State T) (t : T) : Option (State T) :=
  match σ.pc t with
  | .putWait d chain =>
    if 0 < σ.mutex then some { σ.goto t (.putCopy d chain) with mutex := σ.mutex - 1 } else none
  | .putCopy d chain =>
    some { σ.goto t (.putMark d) with slot := Function.update σ.slot d chain }
  | .putMark d =>
    some { σ.goto t (.putTest d) with
      slot := Function.update σ.slot d (d.mark (σ.slot d))
      puts := Function.update σ.puts d (σ.puts d ++ [d.mark (σ.slot d)]) }
  | .putTest d => some (σ.goto t (if σ.status d = .empty then .putFill d else .putUnlock))
  | .putFill d => some { σ.goto t .putSignal with status := Function.update σ.status d .full }
  | .putSignal => some { σ.goto t .putUnlock with notEmpty := σ.notEmpty + 1 }
  | .putUnlock => some { σ.goto t .idle with mutex := σ.mutex + 1 }
  | _ => none

/-- `Display_Get`, the next statement of a task that stands in it. -/
def Display_Get (σ : State T) (t : T) : Option (State T) :=
  match σ.pc t with
  | .getWait =>
    if 0 < σ.notEmpty then some { σ.goto t .getLock with notEmpty := σ.notEmpty - 1 } else none
  | .getLock => if 0 < σ.mutex then some { σ.goto t .getTest with mutex := σ.mutex - 1 } else none
  | .getTest =>
    some (σ.goto t
      (if σ.status .times = .full then .getTake .times
      else if σ.status .hour = .full then .getTake .hour
      else .getUnlock none))
  | .getTake d => some (σ.goto t (.getClear d (σ.slot d)))
  | .getClear d chain =>
    let r : Taken := ⟨d, (σ.puts d).length, chain⟩
    some { σ.goto t (.getUnlock (some r)) with
      status := Function.update σ.status d .empty
      taken := σ.taken ++ [r] }
  | .getUnlock r =>
    some { σ.goto t (.got r) with mutex := σ.mutex + 1, returned := σ.returned ++ [r] }
  | _ => none

/-- The calls. -/
inductive Call
  | PutHour (chain : MenageHmsh_tChain11)
  | PutTimes (chain : MenageHmsh_tChain11)
  | Get

/-- The first statement of a call. -/
def Call.pc : Call → Pc
  | .PutHour chain => .putWait .hour chain
  | .PutTimes chain => .putWait .times chain
  | .Get => .getWait

/-- A task is in no call. -/
def Pc.out : Pc → Bool
  | .idle | .got _ => true
  | _ => false

/-- A task calls, or executes its next statement. -/
inductive Label (T : Type)
  | call (t : T) (c : Call)
  | run (t : T)

/-- One statement of a task that is in a call. -/
def exec (σ : State T) (t : T) : Option (State T) :=
  match Display_Put σ t with
  | some σ' => some σ'
  | none => Display_Get σ t

/-- One step. -/
def step (σ : State T) : Label T → Option (State T)
  | .call t c => if (σ.pc t).out then some (σ.goto t c.pc) else none
  | .run t => exec σ t

/-- `init_dispclk`; the slots hold anything. -/
def initState (slot : Slot → MenageHmsh_tChain11) : State T :=
  { mutex := 1
    notEmpty := 0
    status := fun _ => .empty
    slot := slot
    pc := fun _ => .idle
    puts := fun _ => []
    taken := []
    returned := [] }

/-- Any number of calls by the tasks `T`, as a transition system. -/
def machine (T : Type) [DecidableEq T] : TSys (State T) (Label T) where
  init σ := ∃ slot, σ = initState slot
  next := step

/-! ## The program -/

/-- The tasks of `clock.c` that use the display. -/
inductive Task
  | clock | chrono | write
  deriving DecidableEq, Repr

/-- The display, the variables of the clock and the chronometer, and which tasks
have left their loops: the clock and the chronometer after `F`, `Write` after
the terminating chain. -/
structure Program where
  display : State Task
  clock : ClockVars
  clockOver : Bool
  chrono : ChronoVars
  chronoOver : Bool
  writeOver : Bool

/-- A task comes back from `CommandClock_Get` or `CommandChrono_Get` with a
command, `Write` goes on after `Display_Get`, or a task executes its next
statement in the display. -/
inductive ProgramLabel
  | clock (command : ClockCommand)
  | chrono (command : ChronoCommand)
  | write
  | run (t : Task)

/-- `ClockChrono_Clock`, from a command to the call of `Display_PutHour`. -/
def ClockChrono_Clock (σ : Program) (command : ClockCommand) : Option Program :=
  if σ.clockOver ∨ (σ.display.pc .clock).out = false then none
  else
    let (v, display) := σ.clock.turn command
    some { σ with
      clock := v
      clockOver := command = .F
      display := if display then σ.display.goto .clock (Call.PutHour v.hourChain).pc
        else σ.display }

/-- `ClockChrono_Chrono`, from a command to the call of `Display_PutTimes`. -/
def ClockChrono_Chrono (σ : Program) (command : ChronoCommand) : Option Program :=
  if σ.chronoOver ∨ (σ.display.pc .chrono).out = false then none
  else
    match σ.chrono.turn command with
    | some (v, display) =>
      some { σ with
        chrono := v
        display := if display then σ.display.goto .chrono (Call.PutTimes v.timesChain).pc
          else σ.display }
    | none => some { σ with chronoOver := true }

/-- `ClockChrono_Write`, from the return of one `Display_Get` to the call of the
next, or to the end. (It would read an uninitialised `chain` after a `Get` that
found both slots empty.) -/
def ClockChrono_Write (σ : Program) : Option Program :=
  if σ.writeOver then none
  else
    match σ.display.pc .write with
    | .idle => some { σ with display := σ.display.goto .write Call.Get.pc }
    | .got (some r) =>
      if r.chain 1 = sentinel then some { σ with writeOver := true }
      else some { σ with display := σ.display.goto .write Call.Get.pc }
    | _ => none

/-- One step of the program. -/
def Program.step (σ : Program) : ProgramLabel → Option Program
  | .clock command => ClockChrono_Clock σ command
  | .chrono command => ClockChrono_Chrono σ command
  | .write => ClockChrono_Write σ
  | .run t => (exec σ.display t).map fun d => { σ with display := d }

/-- The clock has initialised its hour, and the chronometer, whose first command
is `R`, is about to call `Display_PutTimes`; the rest is as the tasks find it. -/
def program : TSys Program ProgramLabel where
  init σ := ∃ slot chain v v', ChronoVars.turn v .R = some (v', true) ∧ σ =
    { display := (initState slot).goto .chrono (Call.PutTimes v'.timesChain).pc
      clock := ⟨MenageHmsh_Initialise, chain⟩
      clockOver := false
      chrono := v'
      chronoOver := false
      writeOver := false }
  next := Program.step

end RtaiDemos.Clock.SemDisplay
