import RtaiDemos.Core.TSys
import RtaiDemos.Clock.Command

/-!
# The command servers over messages

`cmdclk.c` and `cmdcrn.c` of `msg_clock`: between the putter and the getter of a
device stands a server task. `rt_send` blocks until the receiver has taken the
message and no longer; `rt_receive_if` takes a message if a sender is waiting,
and `rt_receive_timed` takes one or times out. A step is one statement that
touches the status or passes a message; the server's `command` and `buffered`
are its own and change with the next such statement. Before the first command
both clients greet the server by `rt_rpc` and wait for its `rt_return`.
-/

namespace RtaiDemos.Clock.Msg

/-- Where the putter stands: `rt_rpc` not yet answered, the test, `rt_send`. -/
inductive PutPc (C : Type)
  | idle
  | rpc (command : C)
  | greeted (command : C)
  | test (command : C)
  | send (command : C)
  deriving DecidableEq, Repr

/-- Where the getter stands. -/
inductive GetPc
  | idle
  | rpc
  | greeted
  | receive
  -- the task has got `F` and calls `Get` no more
  | ended
  deriving DecidableEq, Repr

/-- Where the server stands. -/
inductive ServerPc (S C : Type)
  -- `rt_receive(0, ..)`, with the greetings that have come; the two `rt_return`s
  | greet (put get : Bool)
  | returnPut
  | returnGet
  -- the `switch`, and the receives of its cases
  | loop
  | receive (s : S)
  | receive_if (s : S)
  | receive_timed
  -- `Chronostatus = stoppedInitial`, the assignment at the end of another case
  | reset
  | assign (s : S) (command : C)
  -- `rt_send(get, command)`
  | send (command : C)
  | ended
  deriving DecidableEq, Repr

/-- The status, the server with its `buffered`, the two clients with their
`ackn`; then what has happened: what `Get` returned, and whether the server took
a command in a status that does not accept it. -/
structure State (S C : Type) where
  status : S
  server : ServerPc S C
  buffered : Option C
  putter : PutPc C
  putAckn : Bool
  getter : GetPc
  getAckn : Bool
  got : List C
  misfit : Bool

/-- The putter calls `Put`, or a task executes its next statement; the server
finds the greeting of the putter first, or its timed wait times out, as
`choice` says. -/
inductive Label (C : Type)
  | call (command : C)
  | put
  | serve (choice : Bool)
  | get
  deriving DecidableEq, Repr

variable {S C : Type}

/-- A receive from the putter. -/
def State.take (accepts : S → C → Bool) (σ : State S C) (f : C → State S C → State S C) :
    Option (State S C) :=
  match σ.putter with
  | .send command =>
    some (f command { σ with
      putter := .idle
      misfit := σ.misfit || !accepts σ.status command })
  | _ => none

/-- `CommandClock_Put` and `CommandChrono_Put`, the next statement. -/
def Put (accepts : S → C → Bool) (σ : State S C) : Option (State S C) :=
  match σ.putter with
  | .test command =>
    if accepts σ.status command then some { σ with putter := .send command }
    else some { σ with putter := .idle }
  | _ => none

/-- `CommandClock_Get` and `CommandChrono_Get`, the next statement. -/
def Get [DecidableEq C] (last : C) (σ : State S C) : Option (State S C) :=
  match σ.getter with
  | .idle => some { σ with getter := if σ.getAckn then .receive else .rpc }
  | .receive =>
    match σ.server with
    | .send command =>
      some { σ with
        got := σ.got ++ [command]
        getter := if command = last then .ended else .idle
        server := if command = last then .ended else .loop }
    | _ => none
  | _ => none

/-- The server until it has answered both greetings. -/
def greet (σ : State S C) (choice : Bool) : Option (State S C) :=
  match σ.server with
  | .greet put get =>
    if choice then
      match σ.putter with
      | .rpc command =>
        some { σ with
          putter := .greeted command
          server := if get then .returnPut else .greet true get }
      | _ => none
    else
      match σ.getter with
      | .rpc =>
        some { σ with getter := .greeted, server := if put then .returnPut else .greet put true }
      | _ => none
  | .returnPut =>
    match σ.putter with
    | .greeted command =>
      some { σ with putter := .test command, putAckn := true, server := .returnGet }
    | _ => none
  | .returnGet => some { σ with getter := .receive, getAckn := true, server := .loop }
  | _ => none

/-- `CommandClock_task`, the next statement. -/
def CommandClock_task (σ : State ClockStatus ClockCommand) (choice : Bool) :
    Option (State ClockStatus ClockCommand) :=
  match σ.server with
  | .loop =>
    match σ.status with
    | .stopped => some { σ with server := .receive .stopped }
    | .running => some { σ with server := .receive_if .running }
  | .receive .stopped =>
    σ.take ClockStatus.accepts fun command σ => { σ with server := .assign .stopped command }
  | .assign .stopped command =>
    some { σ with
      status := if command = .R then .running else σ.status
      server := .send command }
  | .receive_if .running =>
    match σ.take ClockStatus.accepts fun command σ => { σ with server := .assign .running command }
      with
    | some σ' => some σ'
    | none => some { σ with server := .send .R }
  | .assign .running command =>
    some { σ with
      status := if command = .T then .stopped else σ.status
      server := .send command }
  | _ => greet σ choice

/-- `CommandChrono_task`, the next statement. -/
def CommandChrono_task (σ : State ChronoStatus ChronoCommand) (choice : Bool) :
    Option (State ChronoStatus ChronoCommand) :=
  match σ.server with
  | .loop =>
    match σ.status with
    | .stoppedInitial =>
      match σ.buffered with
      | some command =>
        some { σ with buffered := none, server := .assign .stoppedInitial command }
      | none => some { σ with server := .receive .stoppedInitial }
    | .running => some { σ with server := .receive_if .running }
    | .stoppedFinal => some { σ with server := .reset }
  | .receive .stoppedInitial =>
    σ.take ChronoStatus.accepts fun command σ =>
      { σ with server := .assign .stoppedInitial command }
  | .assign .stoppedInitial command =>
    some { σ with status := .running, server := .send command }
  | .receive_if .running =>
    match σ.take ChronoStatus.accepts fun command σ => { σ with server := .assign .running command }
      with
    | some σ' => some σ'
    | none => some { σ with server := .send .C }
  | .assign .running command =>
    some { σ with
      status := if command = .E then .stoppedFinal else σ.status
      server := .send command }
  | .reset => some { σ with status := .stoppedInitial, server := .receive_timed }
  | .receive_timed =>
    if choice then some { σ with server := .send .R }
    else
      σ.take ChronoStatus.accepts fun command σ =>
        { σ with buffered := some command, server := .send .R }
  | _ => greet σ choice

/-- A call of `Put`: the first one greets the server. -/
def call (σ : State S C) (command : C) : Option (State S C) :=
  match σ.putter with
  | .idle => some { σ with putter := if σ.putAckn then .test command else .rpc command }
  | _ => none

/-- One step of the clock's command server and its clients. -/
def clockStep (σ : State ClockStatus ClockCommand) :
    Label ClockCommand → Option (State ClockStatus ClockCommand)
  | .call command => call σ command
  | .put => Put ClockStatus.accepts σ
  | .serve choice => CommandClock_task σ choice
  | .get => Get .F σ

/-- One step of the chronometer's command server and its clients. -/
def chronoStep (σ : State ChronoStatus ChronoCommand) :
    Label ChronoCommand → Option (State ChronoStatus ChronoCommand)
  | .call command => if command.key then call σ command else none
  | .put => Put ChronoStatus.accepts σ
  | .serve choice => CommandChrono_task σ choice
  | .get => Get .F σ

/-- The server has set the status and waits for the greetings. -/
def initState (status : S) : State S C :=
  { status := status
    server := .greet false false
    buffered := none
    putter := .idle
    putAckn := false
    getter := .idle
    getAckn := false
    got := []
    misfit := false }

/-- Both devices. -/
structure System where
  clock : State ClockStatus ClockCommand
  chrono : State ChronoStatus ChronoCommand

/-- A step at one of the devices. -/
inductive SystemLabel
  | clock (l : Label ClockCommand)
  | chrono (l : Label ChronoCommand)
  deriving DecidableEq, Repr

/-- The label is a call of `Put`. -/
def Label.isCall : Label C → Bool
  | .call _ => true
  | _ => false

/-- One step. There is one putter: it calls a `Put` when it is in neither. -/
def step (σ : System) : SystemLabel → Option System
  | .clock l =>
    if l.isCall ∧ σ.chrono.putter ≠ .idle then none
    else (clockStep σ.clock l).map fun clock => { σ with clock := clock }
  | .chrono l =>
    if l.isCall ∧ σ.clock.putter ≠ .idle then none
    else (chronoStep σ.chrono l).map fun chrono => { σ with chrono := chrono }

/-- The reader, the two servers and the two getters, as a transition system. -/
def machine : TSys System SystemLabel where
  init σ := σ = ⟨initState .stopped, initState .stoppedInitial⟩
  next := step

end RtaiDemos.Clock.Msg
