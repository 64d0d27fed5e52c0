import Mathlib.Logic.Function.Basic
import RtaiDemos.Core.TSys

/-!
# The shared-memory agent

`sender.c`, `rt_agent.c` and `receiver.c`: the sender fills `shm`, a periodic
agent task polls, checks the sum and relays the buffer to the receiver. A step
is one access to `shm`, to a semaphore or to a message. `w` is the width of
`unsigned long`. The random size of a round, a `float` expression cut to `int`,
is any natural number, and the random words are any.
-/

namespace RtaiDemos.Agent

/-- `SHMSIZE` of `rt_agent.c`. -/
def SHMSIZE : Int := 4000

/-- `COUNT` of `sender.c`. -/
def COUNT : Nat := 3000

/-- What the receiver puts into its messages. -/
def request : Nat := 0xaaaaaaaa

/-- What the agent returns after its loop. -/
def farewell : Nat := 0xeeeeeeee

variable {w : Nat}

/-- The conversion of an `int` to `unsigned long`. -/
def widen (x : Int) : BitVec w := BitVec.ofInt w x

/-- The conversion of an `unsigned long` to `int`. -/
def narrow (x : BitVec w) : Int := (x.setWidth 32).toInt

/-- Where the sender stands, named after the statement it executes next. -/
inductive SenderPc (w : Nat)
  -- `shm_size = shm[0]`, `while(count--)`, `rt_sem_wait(shmsem)`
  | start
  | loop
  | wait
  -- `shm[0] = ..`, the test of that value, `shm[0] = shm_size`
  | draw
  | check (v : Int)
  | clamp
  -- the loop: its test, `shm[i] = rand()`, `chksum += shm[i]`
  | fill (i : Nat) (chksum : BitVec w)
  | store (i : Nat) (chksum : BitVec w)
  | add (i : Nat) (chksum : BitVec w)
  -- `shm[shm[0] + 1] = chksum`, `rt_sem_signal(agentsem)`
  | storeSum (chksum : BitVec w)
  | signal (chksum : BitVec w)
  -- the end
  | lastWait
  | lastStore
  | lastSignal
  | ended

/-- `op` of the agent. -/
inductive Op
  | one | two | three | four
  deriving DecidableEq, Repr

/-- Where the agent stands. -/
inductive AgentPc (w : Nat)
  -- waiting for the tasks, `while(shm[0])`, `switch (op)`
  | start
  | test
  | switch
  -- case 1: `rt_sem_wait_if`, the loop, the comparison
  | wait_if
  | sum (i : Nat) (chksum : BitVec w)
  | add (i : Nat) (chksum : BitVec w)
  | compare (chksum : BitVec w)
  -- case 2: `rt_receive_if`, `rt_return`
  | receive_rpc
  | return
  -- case 3 and case 4
  | receive_send
  | signal
  -- `rt_task_wait_period`
  | period
  -- after the loop
  | lastReceive
  | lastReturn
  | ended

/-- Where the receiver stands. -/
inductive ReceiverPc (w : Nat)
  -- `rt_rpc`: before the call, not yet received, not yet answered
  | callRpc
  | rpc
  | taken
  -- the test of `msg`, the loop, the comparison
  | returned (msg : Nat)
  | sum (i : Nat) (chksum : BitVec w)
  | add (i : Nat) (chksum : BitVec w)
  | compare (chksum : BitVec w)
  -- `rt_send`: before the call, not yet received
  | callSend
  | send
  | ended

/-- The shared memory, the semaphores and the three tasks; then what has
happened: for each buffer the sender completed, and for each check of the agent
and of the receiver, the sum and the word it goes with. -/
structure State (w : Nat) where
  shm : Nat → Int
  shmsem : Nat
  agentsem : Nat
  sender : SenderPc w
  shm_size : Int
  count : Nat
  agent : AgentPc w
  op : Op
  receiver : ReceiverPc w
  completed : List (BitVec w × Int)
  agentChecked : List (BitVec w × Int)
  receiverChecked : List (BitVec w × Int)

/-- The index of the word after the data. -/
def State.sumWord (σ : State w) : Nat := (σ.shm 0 + 1).toNat

/-- The sender, the next statement; `size` and `rand` are what it draws. -/
def sender (σ : State w) (size : Nat) (rand : Int) : Option (State w) :=
  match σ.sender with
  | .start => some { σ with shm_size := σ.shm 0, count := COUNT, sender := .loop }
  | .loop =>
    if σ.count = 0 then some { σ with sender := .lastWait }
    else some { σ with count := σ.count - 1, sender := .wait }
  | .wait =>
    if 0 < σ.shmsem then some { σ with shmsem := σ.shmsem - 1, sender := .draw } else none
  | .draw => some { σ with shm := Function.update σ.shm 0 size, sender := .check size }
  | .check v =>
    some { σ with sender := if v = 0 ∨ σ.shm 0 > σ.shm_size then .clamp else .fill 1 0 }
  | .clamp => some { σ with shm := Function.update σ.shm 0 σ.shm_size, sender := .fill 1 0 }
  | .fill i chksum =>
    some { σ with sender := if (i : Int) ≤ σ.shm 0 then .store i chksum else .storeSum chksum }
  | .store i chksum =>
    some { σ with shm := Function.update σ.shm i rand, sender := .add i chksum }
  | .add i chksum => some { σ with sender := .fill (i + 1) (chksum + widen (σ.shm i)) }
  | .storeSum chksum =>
    some { σ with
      shm := Function.update σ.shm σ.sumWord (narrow chksum)
      sender := .signal chksum }
  | .signal chksum =>
    some { σ with
      agentsem := σ.agentsem + 1
      completed := σ.completed ++ [(chksum, σ.shm σ.sumWord)]
      sender := .loop }
  | .lastWait =>
    if 0 < σ.shmsem then some { σ with shmsem := σ.shmsem - 1, sender := .lastStore } else none
  | .lastStore => some { σ with shm := Function.update σ.shm 0 0, sender := .lastSignal }
  | .lastSignal =>
    some { σ with
      agentsem := σ.agentsem + 1
      completed := σ.completed ++ [(0, σ.shm σ.sumWord)]
      sender := .ended }
  | .ended => none

/-- `rt_receive_if(0, &msg)` of the agent: what becomes of the receiver. -/
def ReceiverPc.received : ReceiverPc w → Option (ReceiverPc w)
  | .rpc => some .taken
  | .send => some .callRpc
  | _ => none

/-- `rt_return` to the receiver, of no effect unless it waits for it. -/
def ReceiverPc.answered (msg : Nat) : ReceiverPc w → ReceiverPc w
  | .taken => .returned msg
  | pc => pc

/-- The statement a `switch (op)` goes to. -/
def Op.case : Op → AgentPc w
  | .one => .wait_if
  | .two => .receive_rpc
  | .three => .receive_send
  | .four => .signal

/-- `fun`, the next statement. -/
def fun_ (σ : State w) : Option (State w) :=
  match σ.agent with
  | .start => some { σ with op := .four, agent := .test }
  | .test => some { σ with agent := if σ.shm 0 = 0 then .lastReceive else .switch }
  | .switch => some { σ with agent := σ.op.case }
  | .wait_if =>
    if 0 < σ.agentsem then
      some { σ with agentsem := σ.agentsem - 1, op := .two, agent := .sum 1 0 }
    else some { σ with agent := .period }
  | .sum i chksum =>
    some { σ with agent := if (i : Int) ≤ σ.shm 0 then .add i chksum else .compare chksum }
  | .add i chksum => some { σ with agent := .sum (i + 1) (chksum + widen (σ.shm i)) }
  | .compare chksum =>
    some { σ with
      agentChecked := σ.agentChecked ++ [(chksum, σ.shm σ.sumWord)]
      agent := .receive_rpc }
  | .receive_rpc =>
    match σ.receiver.received with
    | some receiver => some { σ with receiver := receiver, op := .three, agent := .return }
    | none => some { σ with agent := .period }
  | .return => some { σ with receiver := σ.receiver.answered request, agent := .receive_send }
  | .receive_send =>
    match σ.receiver.received with
    | some receiver => some { σ with receiver := receiver, agent := .signal }
    | none => some { σ with agent := .period }
  | .signal => some { σ with op := .one, shmsem := σ.shmsem + 1, agent := .period }
  | .period => some { σ with agent := .test }
  | .lastReceive =>
    match σ.receiver.received with
    | some receiver => some { σ with receiver := receiver, agent := .lastReturn }
    | none => some σ
  | .lastReturn => some { σ with receiver := σ.receiver.answered farewell, agent := .ended }
  | .ended => none

/-- The receiver, the next statement. -/
def receiver (σ : State w) : Option (State w) :=
  match σ.receiver with
  | .callRpc => some { σ with receiver := .rpc }
  | .rpc => none
  | .taken => none
  | .returned msg =>
    some { σ with receiver := if msg ≠ farewell then .sum 1 0 else .ended }
  | .sum i chksum =>
    some { σ with receiver := if (i : Int) ≤ σ.shm 0 then .add i chksum else .compare chksum }
  | .add i chksum => some { σ with receiver := .sum (i + 1) (chksum + widen (σ.shm i)) }
  | .compare chksum =>
    some { σ with
      receiverChecked := σ.receiverChecked ++ [(chksum, σ.shm σ.sumWord)]
      receiver := .callSend }
  | .callSend => some { σ with receiver := .send }
  | .send => none
  | .ended => none

/-- The task that executes its next statement, with what the sender draws. -/
inductive Label
  | sender (size : Nat) (rand : Int)
  | agent
  | receiver
  deriving DecidableEq, Repr

/-- One step. -/
def step (σ : State w) : Label → Option (State w)
  | .sender size rand => sender σ size rand
  | .agent => fun_ σ
  | .receiver => receiver σ

/-- After `init_module`, with the three tasks at their starts. -/
def initState (w : Nat) (shm : Nat → Int) : State w :=
  { shm := Function.update shm 0 SHMSIZE
    shmsem := 0
    agentsem := 0
    sender := .start
    shm_size := 0
    count := 0
    agent := .start
    op := .four
    receiver := .callRpc
    completed := []
    agentChecked := []
    receiverChecked := [] }

/-- The three tasks, as a transition system. -/
def machine (w : Nat) : TSys (State w) Label where
  init σ := ∃ shm, σ = initState w shm
  next := step

end RtaiDemos.Agent
