import RtaiDemos.Core.TSys
import RtaiDemos.Clock.Hmsh

/-!
# The display over messages

`Display_PutHour`, `Display_PutTimes`, `Display_Get` and `Display_task` of
`msg_clock/dispclk.c` with the tasks of `clock.c` that use them. What is sent is
a pointer to a static buffer that the next `Put` overwrites; `rt_send_if` drops
it unless `Display_task` is waiting to receive; `rt_send` to `Write` blocks until
`Write` receives. Before the first message each task greets `Display_task` by
`rt_rpc`. Once `Display_task` has been deleted, a message to it goes nowhere.
-/

namespace RtaiDemos.Clock.MsgDisplay

/-- The static buffers of `Display_PutHour` and `Display_PutTimes`. -/
inductive Ptr
  | hours | times
  deriving DecidableEq, Repr

/-- What is written to `chain[0]`. -/
def Ptr.letter : Ptr → Char
  | .hours => 'h'
  | .times => 't'

/-- Where a putter stands in `Display_PutHour` or `Display_PutTimes`: `rt_rpc`
not yet received, not yet answered; the copy, the letter, `rt_send_if`. -/
inductive PutPc
  | idle
  | rpc (chain : MenageHmsh_tChain11)
  | greeted (chain : MenageHmsh_tChain11)
  | copy (chain : MenageHmsh_tChain11)
  | mark
  | send

/-- Where `ClockChrono_Write` stands: before `Display_Get`, in its statements,
at the test of the chain it got, or at its end. -/
inductive WritePc
  | idle
  | rpc
  | greeted
  | receive
  | copy (p : Ptr)
  | test (chain : MenageHmsh_tChain11)
  | ended

/-- Where `Display_task` stands: the greetings it has received, the three
`rt_return`s, `rt_receive`, `rt_send(get, command)`, the test, the end. -/
inductive DisplayPc
  | greet (get hput tput : Bool)
  | returnGet
  | returnHours
  | returnTimes
  | receive
  | send (p : Ptr)
  | test (p : Ptr)
  | ended
  deriving DecidableEq, Repr

/-- The buffers and the tasks; `clockOver` and `chronoOver` after `F`. -/
structure State where
  buf : Ptr → MenageHmsh_tChain11
  put : Ptr → PutPc
  ackn : Ptr → Bool
  write : WritePc
  writeAckn : Bool
  display : DisplayPc
  clock : ClockVars
  clockOver : Bool
  chrono : ChronoVars
  chronoOver : Bool

/-- A task comes back from `CommandClock_Get` or `CommandChrono_Get` with a
command, or executes its next statement in the display; `Display_task` receives
one of the greetings. -/
inductive Label
  | clock (command : ClockCommand)
  | chrono (command : ChronoCommand)
  | put (p : Ptr)
  | write
  | greetWrite
  | greetPut (p : Ptr)
  | display

/-- A call of `Display_PutHour` or `Display_PutTimes`, to its first statement
after the test of `ackn`. -/
def State.call (σ : State) (p : Ptr) (chain : MenageHmsh_tChain11) : State :=
  let pc := if σ.ackn p ∨ σ.display = .ended then PutPc.copy chain else .rpc chain
  { σ with put := Function.update σ.put p pc }

/-- `Display_PutHour` and `Display_PutTimes`, the next statement. -/
def Display_Put (σ : State) (p : Ptr) : Option State :=
  match σ.put p with
  | .copy chain =>
    some { σ with buf := Function.update σ.buf p chain, put := Function.update σ.put p .mark }
  | .mark =>
    some { σ with
      buf := Function.update σ.buf p (Function.update (σ.buf p) 0 p.letter)
      put := Function.update σ.put p .send }
  | .send =>
    some { σ with
      display := if σ.display = .receive then .send p else σ.display
      put := Function.update σ.put p .idle }
  | _ => none

/-- `Display_Get` and the test of `ClockChrono_Write`, the next statement. -/
def ClockChrono_Write (σ : State) : Option State :=
  match σ.write with
  | .idle =>
    some { σ with write := if σ.writeAckn ∨ σ.display = .ended then .receive else .rpc }
  | .receive =>
    match σ.display with
    | .send p => some { σ with write := .copy p, display := .test p }
    | _ => none
  | .copy p => some { σ with write := .test (σ.buf p) }
  | .test chain => some { σ with write := if chain 1 = sentinel then .ended else .idle }
  | _ => none

/-- The statement of `Display_task` after the greetings `get`, `hput`, `tput`. -/
def DisplayPc.greeted (get hput tput : Bool) : DisplayPc :=
  if get ∧ hput ∧ tput then .returnGet else .greet get hput tput

/-- `Display_task` receives the greeting of `Write`. -/
def greetWrite (σ : State) : Option State :=
  match σ.display, σ.write with
  | .greet _ hput tput, .rpc =>
    some { σ with write := .greeted, display := .greeted true hput tput }
  | _, _ => none

/-- `Display_task` receives the greeting of a putter. -/
def greetPut (σ : State) (p : Ptr) : Option State :=
  match σ.display, σ.put p with
  | .greet get hput tput, .rpc chain =>
    some { σ with
      put := Function.update σ.put p (.greeted chain)
      display := .greeted get (hput || p = .hours) (tput || p = .times) }
  | _, _ => none

/-- `rt_return` to a putter. -/
def State.answer (σ : State) (p : Ptr) (next : DisplayPc) : Option State :=
  match σ.put p with
  | .greeted chain =>
    some { σ with
      put := Function.update σ.put p (.copy chain)
      ackn := Function.update σ.ackn p true
      display := next }
  | _ => none

/-- `Display_task`, the next statement that is not a receive. -/
def Display_task (σ : State) : Option State :=
  match σ.display with
  | .returnGet =>
    match σ.write with
    | .greeted => some { σ with write := .receive, writeAckn := true, display := .returnHours }
    | _ => none
  | .returnHours => σ.answer .hours .returnTimes
  | .returnTimes => σ.answer .times .receive
  -- `((char *)command)[1]` is read from the buffer
  | .test p => some { σ with display := if σ.buf p 1 = sentinel then .ended else .receive }
  | _ => none

/-- `ClockChrono_Clock`, from a command to the call of `Display_PutHour`. -/
def ClockChrono_Clock (σ : State) (command : ClockCommand) : Option State :=
  match σ.clockOver, σ.put .hours with
  | false, .idle =>
    let (v, display) := σ.clock.turn command
    let σ := { σ with clock := v, clockOver := command = .F }
    some (if display then σ.call .hours v.hourChain else σ)
  | _, _ => none

/-- `ClockChrono_Chrono`, from a command to the call of `Display_PutTimes`. -/
def ClockChrono_Chrono (σ : State) (command : ChronoCommand) : Option State :=
  match σ.chronoOver, σ.put .times with
  | false, .idle =>
    match σ.chrono.turn command with
    | some (v, display) =>
      let σ := { σ with chrono := v }
      some (if display then σ.call .times v.timesChain else σ)
    | none => some { σ with chronoOver := true }
  | _, _ => none

/-- One step. -/
def step (σ : State) : Label → Option State
  | .clock command => ClockChrono_Clock σ command
  | .chrono command => ClockChrono_Chrono σ command
  | .put p => Display_Put σ p
  | .write => ClockChrono_Write σ
  | .greetWrite => greetWrite σ
  | .greetPut p => greetPut σ p
  | .display => Display_task σ

/-- The clock is in its `Display_PutHour` before the loop, with the chain of the
initial hour; the chronometer, whose first command is `R`, is in
`Display_PutTimes`. -/
def initState (buf : Ptr → MenageHmsh_tChain11) (hourChain : MenageHmsh_tChain11)
    (chrono : ChronoVars) : State :=
  let hourChain := MenageHmsh_Convert MenageHmsh_Initialise false hourChain
  { buf := buf
    put := fun
      | .hours => .rpc hourChain
      | .times => .rpc chrono.timesChain
    ackn := fun _ => false
    write := .idle
    writeAckn := false
    display := .greet false false false
    clock := ⟨MenageHmsh_Initialise, hourChain⟩
    clockOver := false
    chrono := chrono
    chronoOver := false }

/-- The four tasks, as a transition system. -/
def machine : TSys State Label where
  init σ := ∃ buf hourChain v v', ChronoVars.turn v .R = some (v', true) ∧
    σ = initState buf hourChain v'
  next := step

/-- The clock and the chronometer have finished, `Write` is waiting to receive,
nothing is in flight, and `Display_task` has finished or is waiting too. -/
def Stuck (σ : State) : Prop :=
  (σ.clockOver = true ∧ σ.put .hours = .idle) ∧ (σ.chronoOver = true ∧ σ.put .times = .idle) ∧
    σ.write = .receive ∧ (σ.display = .ended ∨ σ.display = .receive)

end RtaiDemos.Clock.MsgDisplay
