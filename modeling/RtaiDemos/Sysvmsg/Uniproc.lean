import RtaiDemos.Core.TSys
import RtaiDemos.Sysvmsg.Util
import RtaiDemos.Sysvmsg.Select

/-!
# Sends and receives without CONFIG_SMP

Without CONFIG_SMP `spin_lock` and `spin_unlock` are empty, and a task switch
can come between any two statements that are not between `rt_sched_lock` and
`rt_sched_unlock`. Here any number of tasks call `_rt_msgsnd` and `_rt_msgrcv`
on one queue, and a step is one statement of `msg.c` that touches the queue or
a waiter record; a stretch between `rt_sched_lock` and `rt_sched_unlock` is one
step. Statements that touch local variables only go with the next step, and so
do those that write data neither function reads (`q_lspid`, `q_rtime` and the
like, `msg_bytes`, `msg_hdrs`). The permissions of the queue do not change, as
nobody calls `_rt_msgctl`.
-/

namespace RtaiDemos.Sysvmsg.Uniproc

/-- `struct msg_receiver`, without its list node. -/
structure Msr extends MsgReceiver where
  r_tsk : Tid
  deriving DecidableEq, Repr

/-- Where a task stands, named after the statement it executes next. -/
inductive Pc
  | idle (ret : Option Ret)
  -- `_rt_msgsnd`: the tests from `retry` on, `ss_add`, `schedule`, `ss_del`,
  -- and the stretch from `rt_sched_lock` to `rt_sched_unlock`
  | sndRetry (a : SndArgs) (msg : Msg)
  | sndAdd (a : SndArgs) (msg : Msg)
  | sndSleep (a : SndArgs) (msg : Msg)
  | sndDel (a : SndArgs) (msg : Msg)
  | sndDeliver (a : SndArgs) (msg : Msg)
  -- `_rt_msgrcv`: the tests from `retry` on and `tmp = msq->q_messages.next`;
  -- the body of the loop with `tmp` at a message
  | rcvRetry (a : RcvArgs)
  | rcvScan (a : RcvArgs) (msgtyp : Int) (found_msg : Option Msg) (tmp : Msg)
  -- `list_del(&msg->m_list)`, `q_qnum--`, `q_cbytes -= msg->m_ts`, the stretch
  -- around `ss_wakeup`, `out_success`
  | rcvDel (a : RcvArgs) (msg : Msg)
  | rcvQnum (a : RcvArgs) (msg : Msg)
  | rcvCbytes (a : RcvArgs) (msg : Msg)
  | rcvWake (a : RcvArgs) (msg : Msg)
  | rcvCopy (a : RcvArgs) (msg : Msg)
  -- `list_add_tail(&msr_d.r_list, ..)`, the assignments to `msr_d`, `schedule`
  | rcvLink (a : RcvArgs)
  | rcvSetTsk (a : RcvArgs)
  | rcvSetType (a : RcvArgs)
  | rcvSetMode (a : RcvArgs)
  | rcvSetMax (a : RcvArgs)
  | rcvSetMsg (a : RcvArgs)
  | rcvSleep (a : RcvArgs)
  -- `msg = msr_d.r_msg`, `list_del(&msr_d.r_list)`
  | rcvRead (a : RcvArgs)
  | rcvUnlink (a : RcvArgs)
  deriving DecidableEq, Repr

/-- A task with its `msr_d`; `woken` is set by `wake_up_process`. -/
structure Task where
  pc : Pc
  msr_d : Msr
  woken : Bool
  deriving DecidableEq, Repr

/-- The queue, the tasks, and what has happened: the messages `list_del` was
called on, the messages receivers returned with, and for every receiver that
linked itself the messages on the queue that matched it. `oops` is set when a
scan follows the `next` of a message that is on no list. -/
structure State (w : Nat) where
  q_messages : List Msg
  q_receivers : List Tid
  q_senders : List Tid
  q_cbytes : BitVec w
  q_qnum : BitVec w
  tasks : Tid → Task
  nextMsg : Nat
  oops : Bool
  unlinked : List Msg
  returned : List (Tid × Msg)
  missed : List (Tid × Msg)

/-- The width of `long`, `q_perm` and `q_qbytes` of the queue, and the
credentials of the tasks. -/
structure Params where
  longBits : Nat
  q_perm : KernIpcPerm
  q_qbytes : BitVec longBits
  cred : Tid → Cred

/-- What the environment supplies to one step: whether `load_msg` gets its
memory, whether user-space copies succeed, whether a signal is pending, and
what the stack frame of `msr_d` holds before it is filled in. -/
structure Env where
  alloc : Bool
  copy : Bool
  signal : Bool
  junk : Msr
  deriving DecidableEq, Repr

/-- The two calls, with their arguments. -/
inductive Call
  | msgsnd (mtype : Int) (mtext : List UInt8) (msgflg : BitVec 32) (space : Bool)
  | msgrcv (msgsz : Nat) (msgtyp : Int) (msgflg : BitVec 32) (space : Bool)
  deriving DecidableEq, Repr

/-- A task enters a call, executes a statement, or returns from `schedule`. -/
inductive Label
  | call (t : Tid) (c : Call) (e : Env)
  | exec (t : Tid) (e : Env)
  | resume (t : Tid)
  deriving DecidableEq, Repr

variable {w : Nat}

namespace State

/-- Update a task. -/
def modT (σ : State w) (t : Tid) (f : Task → Task) : State w :=
  { σ with tasks := Function.update σ.tasks t (f (σ.tasks t)) }

/-- Move a task to another statement. -/
def setPc (σ : State w) (t : Tid) (pc : Pc) : State w :=
  σ.modT t fun k => { k with pc := pc }

/-- Return from a call. -/
def ret (σ : State w) (t : Tid) (r : Ret) : State w := σ.setPc t (.idle (some r))

end State

/-- `wake_up_process`. -/
def wake_up_process (σ : State w) (t : Tid) : State w :=
  σ.modT t fun k => { k with woken := true }

/-- `ss_wakeup(h, 0)`. -/
def ss_wakeup : List Tid → State w → State w
  | [], σ => σ
  | t :: rest, σ => ss_wakeup rest (wake_up_process σ t)

/-- `msr->r_msg = r; wake_up_process(msr->r_tsk)`. -/
def notify (σ : State w) (u : Tid) (r : RMsg) : State w :=
  let σ := σ.modT u fun k => { k with msr_d := { k.msr_d with r_msg := r } }
  wake_up_process σ (σ.tasks u).msr_d.r_tsk

/-- `pipelined_send` over the receivers on a list. A record that is on the
list is read as it is, filled in or not. -/
def pipelined_send (msg : Msg) : List Tid → State w → State w × Bool
  | [], σ => (σ, false)
  | u :: rest, σ =>
    let msr := (σ.tasks u).msr_d
    if testmsg msg msr.r_msgtype msr.r_mode then
      let σ := { σ with q_receivers := σ.q_receivers.erase u }
      if msr.r_maxsize < msg.m_ts then pipelined_send msg rest (notify σ u (.err .E2BIG))
      else (notify σ u (.msg msg), true)
    else pipelined_send msg rest σ

/-- From `rt_sched_lock` to `rt_sched_unlock` in `_rt_msgsnd`. -/
def deliver (σ : State w) (msg : Msg) : State w :=
  let (σ, sent) := pipelined_send msg σ.q_receivers σ
  if sent then σ
  else
    { σ with
      q_messages := σ.q_messages ++ [msg]
      q_cbytes := σ.q_cbytes + BitVec.ofNat w msg.m_ts
      q_qnum := σ.q_qnum + 1 }

/-- The test for a full queue. -/
def full (P : Params) (σ : State P.longBits) (msgsz : Nat) : Bool :=
  P.q_qbytes.ult (BitVec.ofNat P.longBits msgsz + σ.q_cbytes) || P.q_qbytes.ult (1 + σ.q_qnum)

/-- `msg->m_list.next` on a list: the next message, or the head of the queue
(`some none`); `none` when the message is on no list. -/
def nextOf (msg : Msg) : List Msg → Option (Option Msg)
  | [] => none
  | m :: rest => if m = msg then some rest.head? else nextOf msg rest

/-- What follows the scan of `_rt_msgrcv`. -/
def scanDone (a : RcvArgs) (msgtyp : Int) : Option Msg → Pc
  | some msg =>
    if a.msgsz < msg.m_ts ∧ !hasFlag a.msgflg MSG_NOERROR then .idle (some (.err .E2BIG))
    else .rcvDel a msg
  | none =>
    if hasFlag a.msgflg IPC_NOWAIT then .idle (some (.err .ENOMSG))
    else .rcvLink { a with msgtyp := msgtyp }

/-- The loop test with `tmp` at `next`. -/
def scanAt (a : RcvArgs) (msgtyp : Int) (found_msg : Option Msg) : Option Msg → Pc
  | some msg => .rcvScan a msgtyp found_msg msg
  | none => scanDone a msgtyp found_msg

/-- The body of the loop, with `tmp` at `msg`. -/
def scanBody (σ : State w) (t : Tid) (a : RcvArgs) (msgtyp : Int) (found_msg : Option Msg)
    (msg : Msg) : State w :=
  let next := fun msgtyp found_msg =>
    match nextOf msg σ.q_messages with
    | none => { σ with oops := true }
    | some tmp => σ.setPc t (scanAt a msgtyp found_msg tmp)
  if testmsg msg msgtyp a.mode then
    if a.mode = .lessequal ∧ msg.m_type ≠ 1 then next (msg.m_type - 1) (some msg)
    else σ.setPc t (scanDone a msgtyp (some msg))
  else next msgtyp found_msg

/-- `out_success`. -/
def copyOut (σ : State w) (t : Tid) (e : Env) (a : RcvArgs) (msg : Msg) : State w :=
  let msgsz := if a.msgsz > msg.m_ts then msg.m_ts else a.msgsz
  let r := if a.space && !e.copy then .err .EFAULT
    else .rcv msgsz msg.m_type (msg.m_text.take msgsz)
  { σ with returned := σ.returned ++ [(t, msg)] }.ret t r

/-- `list_add_tail(&msr_d.r_list, &msq->q_receivers)`. -/
def rcvLink (σ : State w) (t : Tid) (e : Env) (a : RcvArgs) : State w :=
  { σ with
    q_receivers := σ.q_receivers ++ [t]
    missed := σ.missed ++
      (σ.q_messages.filter fun m => testmsg m a.msgtyp a.mode).map fun m => (t, m) }.modT t
    fun k => { k with pc := .rcvSetTsk a, msr_d := e.junk }

/-- An assignment to a field of `msr_d`. -/
def setMsr (σ : State w) (t : Tid) (pc : Pc) (f : Msr → Msr) : State w :=
  σ.modT t fun k => { k with pc := pc, msr_d := f k.msr_d }

/-- The code of a call before its first lock. -/
def enter (P : Params) (σ : State P.longBits) (t : Tid) (e : Env) : Call → State P.longBits
  | .msgsnd mtype mtext msgflg space =>
    if mtext.length > MSGMAX then σ.ret t (.err .EINVAL)
    else if mtype < 1 then σ.ret t (.err .EINVAL)
    else if !e.alloc then σ.ret t (.err .ENOMEM)
    else if space && !e.copy then σ.ret t (.err .EFAULT)
    else
      { σ with nextMsg := σ.nextMsg + 1 }.setPc t (.sndRetry ⟨0, msgflg⟩
        { mid := σ.nextMsg, m_type := mtype, m_ts := mtext.length, m_text := mtext })
  | .msgrcv msgsz msgtyp msgflg space =>
    if 2 ^ (P.longBits - 1) ≤ msgsz then σ.ret t (.err .EINVAL)
    else
      let (mode, msgtyp) := convert_mode P.longBits msgtyp msgflg
      σ.setPc t (.rcvRetry ⟨0, msgsz, msgtyp, mode, msgflg, space⟩)

/-- The next statement of a task. -/
def exec (P : Params) (σ : State P.longBits) (t : Tid) (e : Env) : Option (State P.longBits) :=
  match (σ.tasks t).pc with
  | .idle _ | .sndSleep _ _ | .rcvSleep _ => none
  | .sndRetry a msg =>
    if ipcperms (P.cred t) P.q_perm S_IWUGO then some (σ.ret t (.err .EACCES))
    else if full P σ msg.m_ts then
      if hasFlag a.msgflg IPC_NOWAIT then some (σ.ret t (.err .EAGAIN))
      else some (σ.setPc t (.sndAdd a msg))
    else some (σ.setPc t (.sndDeliver a msg))
  | .sndAdd a msg =>
    some ({ σ with q_senders := σ.q_senders ++ [t] }.modT t
      fun k => { k with pc := .sndSleep a msg, woken := false })
  | .sndDel a msg =>
    some ({ σ with q_senders := σ.q_senders.erase t }.setPc t
      (if e.signal then .idle (some (.err .EINTR)) else .sndRetry a msg))
  | .sndDeliver _ msg => some ((deliver σ msg).ret t (.ok 0))
  | .rcvRetry a =>
    if ipcperms (P.cred t) P.q_perm S_IRUGO then some (σ.ret t (.err .EACCES))
    else some (σ.setPc t (scanAt a a.msgtyp none σ.q_messages.head?))
  | .rcvScan a msgtyp found_msg tmp => some (scanBody σ t a msgtyp found_msg tmp)
  | .rcvDel a msg =>
    some ({ σ with
      q_messages := σ.q_messages.erase msg
      unlinked := σ.unlinked ++ [msg] }.setPc t (.rcvQnum a msg))
  | .rcvQnum a msg => some ({ σ with q_qnum := σ.q_qnum - 1 }.setPc t (.rcvCbytes a msg))
  | .rcvCbytes a msg =>
    some ({ σ with q_cbytes := σ.q_cbytes - BitVec.ofNat P.longBits msg.m_ts }.setPc t
      (.rcvWake a msg))
  | .rcvWake a msg => some ((ss_wakeup σ.q_senders σ).setPc t (.rcvCopy a msg))
  | .rcvCopy a msg => some (copyOut σ t e a msg)
  | .rcvLink a => some (rcvLink σ t e a)
  | .rcvSetTsk a => some (setMsr σ t (.rcvSetType a) fun r => { r with r_tsk := t })
  | .rcvSetType a => some (setMsr σ t (.rcvSetMode a) fun r => { r with r_msgtype := a.msgtyp })
  | .rcvSetMode a => some (setMsr σ t (.rcvSetMax a) fun r => { r with r_mode := a.mode })
  | .rcvSetMax a =>
    some (setMsr σ t (.rcvSetMsg a) fun r =>
      { r with r_maxsize := if hasFlag a.msgflg MSG_NOERROR then INT_MAX else a.msgsz })
  | .rcvSetMsg a => some (setMsr σ t (.rcvSleep a) fun r => { r with r_msg := .err .EAGAIN })
  | .rcvRead a =>
    match (σ.tasks t).msr_d.r_msg with
    | .msg msg => some (σ.setPc t (.rcvCopy a msg))
    | .err .EAGAIN => some (σ.setPc t (.rcvUnlink a))
    | .err err => some (σ.ret t (.err err))
  | .rcvUnlink a =>
    some ({ σ with q_receivers := σ.q_receivers.erase t }.setPc t
      (if e.signal then .idle (some (.err .EINTR)) else .rcvRetry a))

/-- Return from `schedule`. -/
def resume (σ : State w) (t : Tid) : Option (State w) :=
  match (σ.tasks t).pc with
  | .sndSleep a msg => some (σ.setPc t (.sndDel a msg))
  | .rcvSleep a => some (σ.setPc t (.rcvRead a))
  | _ => none

/-- One step. -/
def step (P : Params) (σ : State P.longBits) (l : Label) : Option (State P.longBits) :=
  if σ.oops then none
  else match l with
    | .call t c e =>
      match (σ.tasks t).pc with
      | .idle _ => some (enter P σ t e c)
      | _ => none
    | .exec t e => exec P σ t e
    | .resume t => resume σ t

/-- An empty queue and tasks outside the calls, whatever their stacks hold. -/
def initState (w : Nat) (msr_d : Tid → Msr) : State w :=
  { q_messages := []
    q_receivers := []
    q_senders := []
    q_cbytes := 0
    q_qnum := 0
    tasks := fun t => { pc := .idle none, msr_d := msr_d t, woken := false }
    nextMsg := 0
    oops := false
    unlinked := []
    returned := []
    missed := [] }

/-- Sends and receives on one queue, as a transition system. -/
def machine (P : Params) : TSys (State P.longBits) Label where
  init σ := ∃ msr_d, σ = initState P.longBits msr_d
  next := step P

end RtaiDemos.Sysvmsg.Uniproc
