import RtaiDemos.Sysvmsg.Machine

/-!
# The scheduler lock (`rt_sched_lock`, `rt_sched_unlock`)

The calls of the two functions in each stretch of the machine, in their order. They
concern the caller alone, so they are kept beside the machine: a branch here stands
for the branch of the same condition there.
-/

namespace RtaiDemos.Sysvmsg

/-- A call of `rt_sched_lock` or of `rt_sched_unlock`. -/
inductive SchedOp
  | lock | unlock
  deriving DecidableEq, Repr

/-- The lock depth of the caller: `rt_sched_unlock` does nothing at 0. -/
def SchedOp.apply (depth : Nat) : SchedOp → Nat
  | .lock => depth + 1
  | .unlock => depth - 1

/-- `_rt_msgsnd` from the label `retry`. What goes to `out_unlock_free` unlocks there. -/
def sndRetryOps (σ : State) (t : Tid) (a : SndArgs) (msg : Msg) (q : QId) : List SchedOp :=
  match σ.queues q with
  | none => []
  | some msq =>
    if ipc_checkid msq.q_perm a.msqid then [.unlock]
    else if ipcperms (σ.tasks t).cred msq.q_perm S_IWUGO then [.unlock]
    else if msq.full msg.m_ts then
      if hasFlag a.msgflg IPC_NOWAIT then [.unlock]
      else []
    else [.lock, .unlock]

/-- `_rt_msgsnd` after its second `msg_lock`; NULL goes to `out_free`. -/
def sndRelockOps (σ : State) (t : Tid) (a : SndArgs) (msg : Msg) : List SchedOp :=
  match ipc_lock σ.ids a.msqid with
  | none => []
  | some q =>
    let σ := ss_del σ t
    if (σ.tasks t).signal_pending then [.unlock]
    else sndRetryOps σ t a msg q

/-- `_rt_msgrcv` from the label `retry`: the lock is held around `ss_wakeup`. -/
def rcvRetryOps (σ : State) (t : Tid) (a : RcvArgs) (q : QId) : List SchedOp :=
  match σ.queues q with
  | none => []
  | some msq =>
    if ipc_checkid msq.q_perm a.msqid then []
    else if ipcperms (σ.tasks t).cred msq.q_perm S_IRUGO then []
    else match scan a.mode a.msgtyp none msq.q_messages with
      | some msg =>
        if a.msgsz < msg.m_ts ∧ !hasFlag a.msgflg MSG_NOERROR then []
        else [.lock, .unlock]
      | none => []

/-- `_rt_msgrcv` after its second `msg_lock`. -/
def rcvRelockOps (σ : State) (t : Tid) (a : RcvArgs) (msq : QId) : List SchedOp :=
  match ipc_lock σ.ids a.msqid with
  | none => []
  | some _ =>
    match (σ.tasks t).msr_d.r_msg with
    | .msg _ => []
    | .err .EAGAIN =>
      match σ.queues msq with
      | none => []
      | some queue =>
        if t ∈ queue.q_receivers then
          let σ := r_list_del σ msq t
          if (σ.tasks t).signal_pending then []
          else rcvRetryOps σ t a msq
        else []
    | .err _ => []

/-- `freeque`: the lock is held around `expunge_all` and `ss_wakeup`. -/
def freequeOps (σ : State) (msqid : Nat) : List SchedOp :=
  match ipc_rmid σ.ids msqid with
  | none => []
  | some (_, q) =>
    match σ.queues q with
    | none => []
    | some _ => [.lock, .unlock]

/-- `_rt_msgctl` under `ids->sem`. -/
def ctlOps (σ : State) (t : Tid) (a : CtlArgs) : List SchedOp :=
  match ipc_lock σ.ids a.msqid with
  | none => []
  | some q =>
    match σ.queues q with
    | none => []
    | some msq =>
      let cur := (σ.tasks t).cred
      if ipc_checkid msq.q_perm a.msqid then []
      else if cur.euid ≠ msq.q_perm.cuid ∧ cur.euid ≠ msq.q_perm.uid ∧ !cur.cap_sys_admin then []
      else if a.cmd = .ipcSet then
        if a.setbuf.qbytes > MSGMNB ∧ !cur.cap_sys_resource then []
        else [.lock, .unlock]
      else freequeOps σ a.msqid

/-- The calls in the next stretch of a task. -/
def schedOps (σ : State) (t : Tid) : List SchedOp :=
  match (σ.tasks t).pc with
  | .sndLock a msg =>
    match ipc_lock σ.ids a.msqid with
    | none => []
    | some q => sndRetryOps σ t a msg q
  | .sndRelock a msg => sndRelockOps σ t a msg
  | .rcvLock a =>
    match ipc_lock σ.ids a.msqid with
    | none => []
    | some q => rcvRetryOps σ t a q
  | .rcvRelock a msq => rcvRelockOps σ t a msq
  | .ctlLock a => ctlOps σ t a
  | _ => []

/-- The lock depth of a task after steps of its own that it began at `depth`. -/
def schedDepth (own : List (State × State)) (t : Tid) (depth : Nat) : Nat :=
  (own.flatMap fun s => schedOps s.1 t).foldl SchedOp.apply depth

/-- `_rt_msgsnd` cannot send to this queue, and will not wait for it. -/
def SndArgs.refused (a : SndArgs) (cur : Cred) (msg : Msg) (msq : MsgQueue) : Bool :=
  ipc_checkid msq.q_perm a.msqid || ipcperms cur msq.q_perm S_IWUGO ||
    msq.full msg.m_ts && hasFlag a.msgflg IPC_NOWAIT

/-- The task is about to leave `_rt_msgsnd` by `goto out_unlock_free`: it finds its queue
locked and cannot send, or it has slept and there is a signal. -/
def State.bailsOut (σ : State) (t : Tid) : Bool :=
  match (σ.tasks t).pc with
  | .sndLock a msg =>
    match ipc_lock σ.ids a.msqid with
    | none => false
    | some q => (σ.queues q).any (a.refused (σ.tasks t).cred msg)
  | .sndRelock a msg =>
    match ipc_lock σ.ids a.msqid with
    | none => false
    | some q => (σ.tasks t).signal_pending || (σ.queues q).any (a.refused (σ.tasks t).cred msg)
  | _ => false

end RtaiDemos.Sysvmsg
