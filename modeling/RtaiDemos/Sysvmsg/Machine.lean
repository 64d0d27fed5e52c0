import RtaiDemos.Core.TSys
import RtaiDemos.Sysvmsg.Util
import RtaiDemos.Sysvmsg.Select

/-!
# The calls as a machine (`msg.c`, CONFIG_SMP build)

Every stretch of code between taking and releasing `ids->ary` is one step, as
is every stretch that touches only the caller's own data. Code that runs under
`ids->sem` but outside `ids->ary` (the search of `ipc_findkey`, the bookkeeping
of `ipc_addid`) reads and writes fields that only the holder of the semaphore
touches, so it is joined to the stretch it leads to. The loop of `freeque`
after `msg_unlock` takes one step for each message.

A label names the task that moves and the choices of the environment: the
clock, the outcome of allocations and of copies to and from user space.
-/

namespace RtaiDemos.Sysvmsg

/-- What the environment supplies to one step: `get_seconds()`, whether
allocations succeed, whether user-space copies succeed. -/
structure Env where
  now : Nat
  alloc : Bool
  copy : Bool
  deriving DecidableEq, Repr

/-- One step of the system: a task enters a call, executes its next stretch,
returns from `schedule` (after a wake-up, for a signal or for no reason), or
has a signal posted or taken. -/
inductive Label
  | call (t : Tid) (c : Call) (e : Env)
  | exec (t : Tid) (e : Env)
  | resume (t : Tid)
  | signal (t : Tid) (pending : Bool)
  deriving DecidableEq, Repr

/-- The width of `long`, and whether `ipc_init_ids` got its table. -/
structure Params where
  longBits : Nat
  tableAlloc : Bool
  deriving DecidableEq, Repr

/-! ## Elementary updates -/

namespace State

/-- Update the queue at a pointer. -/
def modQ (σ : State) (q : QId) (f : MsgQueue → MsgQueue) : State :=
  { σ with queues := Function.update σ.queues q ((σ.queues q).map f) }

/-- Update a task. -/
def modT (σ : State) (t : Tid) (f : Task → Task) : State :=
  { σ with tasks := Function.update σ.tasks t (f (σ.tasks t)) }

/-- Move a task to another control point. -/
def setPc (σ : State) (t : Tid) (pc : Pc) : State :=
  σ.modT t fun k => { k with pc := pc }

/-- Return from a call. -/
def ret (σ : State) (t : Tid) (r : Ret) : State := σ.setPc t (.idle (some r))

/-- The kernel fails. -/
def bug (σ : State) (o : Oops) : State := { σ with oops := some o }

/-- Add to the history. -/
def log (σ : State) (f : History → History) : State := { σ with hist := f σ.hist }

/-- The permission record at a pointer. -/
def perm (σ : State) (q : QId) : Option KernIpcPerm := (σ.queues q).map (·.q_perm)

end State

/-- `wake_up_process`. -/
def wake_up_process (σ : State) (t : Tid) : State :=
  σ.modT t fun k => { k with woken := true }

/-- `msr->r_msg = r; wake_up_process(msr->r_tsk)`. -/
def notify (σ : State) (t : Tid) (r : RMsg) : State :=
  wake_up_process (σ.modT t fun k => { k with msr_d := { k.msr_d with r_msg := r } }) t

/-- `ss_add`. -/
def ss_add (σ : State) (q : QId) (t : Tid) : State :=
  (σ.modT t fun k => { k with mss_list := some q, woken := false }).modQ q
    fun msq => { msq with q_senders := msq.q_senders ++ [t] }

/-- `ss_del`: a record whose `next` was cleared is left alone. -/
def ss_del (σ : State) (t : Tid) : State :=
  match (σ.tasks t).mss_list with
  | none => σ
  | some q =>
    match σ.queues q with
    | none => σ.bug .danglingQueue
    | some msq =>
      if t ∈ msq.q_senders then
        (σ.modT t fun k => { k with mss_list := none }).modQ q
          fun msq => { msq with q_senders := msq.q_senders.erase t }
      else σ.bug .badListDel

/-- `ss_wakeup` over the senders on a list. -/
def ss_wakeup (kill : Bool) : List Tid → State → State
  | [], σ => σ
  | t :: rest, σ =>
    let σ := if kill then σ.modT t fun k => { k with mss_list := none } else σ
    ss_wakeup kill rest (wake_up_process σ t)

/-- `expunge_all` over the receivers on a list. -/
def expunge_all (res : Errno) : List Tid → State → State
  | [], σ => σ
  | t :: rest, σ => expunge_all res rest (notify σ t (.err res))

/-- `list_del(&msr->r_list)` on the receivers of `q`. -/
def r_list_del (σ : State) (q : QId) (t : Tid) : State :=
  σ.modQ q fun msq => { msq with q_receivers := msq.q_receivers.erase t }

/-- `pipelined_send` over the receivers on a list: those that accept the
message but are too small get `-E2BIG`, the first that can take it gets it. -/
def pipelined_send (q : QId) (msg : Msg) (e : Env) : List Tid → State → State × Bool
  | [], σ => (σ, false)
  | t :: rest, σ =>
    let msr := (σ.tasks t).msr_d
    if testmsg msg msr.r_msgtype msr.r_mode then
      let σ := r_list_del σ q t
      if msr.r_maxsize < msg.m_ts then
        pipelined_send q msg e rest (notify σ t (.err .E2BIG))
      else
        let σ := notify σ t (.msg msg)
        let σ := σ.modQ q fun msq =>
          { msq with q_lrpid := (σ.tasks t).cred.pid, q_rtime := e.now }
        (σ.log fun h => { h with taken := h.taken ++ [(q, msg)] }, true)
    else pipelined_send q msg e rest σ

/-! ## `_rt_msgsnd` -/

/-- The test for a full queue. -/
def MsgQueue.full (msq : MsgQueue) (msgsz : Nat) : Bool :=
  decide ((msgsz : Int) + msq.q_cbytes > msq.q_qbytes ∨ 1 + msq.q_qnum > msq.q_qbytes)

/-- The branch of `_rt_msgsnd` for a message nobody waits for. -/
def enqueue (σ : State) (q : QId) (msg : Msg) : State :=
  let σ := σ.modQ q fun msq =>
    { msq with
      q_messages := msq.q_messages ++ [msg]
      q_cbytes := msq.q_cbytes + msg.m_ts
      q_qnum := msq.q_qnum + 1 }
  { σ with msg_bytes := σ.msg_bytes + msg.m_ts, msg_hdrs := σ.msg_hdrs + 1 }

/-- The final part of `_rt_msgsnd`, from `q_lspid` to `msg = NULL`. -/
def deliver (σ : State) (t : Tid) (e : Env) (msg : Msg) (q : QId) (receivers : List Tid) :
    State :=
  let σ := σ.modQ q fun msq =>
    { msq with q_lspid := (σ.tasks t).cred.pid, q_stime := e.now }
  let (σ, sent) := pipelined_send q msg e receivers σ
  let σ := if sent then σ else enqueue σ q msg
  σ.log fun h => { h with sent := h.sent ++ [(q, msg)] }

/-- `_rt_msgsnd` from the label `retry`, with `msq = q` locked. -/
def sndRetry (σ : State) (t : Tid) (e : Env) (a : SndArgs) (msg : Msg) (q : QId) : State :=
  match σ.queues q with
  | none => σ.bug .danglingQueue
  | some msq =>
    if ipc_checkid msq.q_perm a.msqid then σ.setPc t (.sndFree .EIDRM msg)
    else if ipcperms (σ.tasks t).cred msq.q_perm S_IWUGO then
      σ.setPc t (.sndFree .EACCES msg)
    else if msq.full msg.m_ts then
      if hasFlag a.msgflg IPC_NOWAIT then σ.setPc t (.sndFree .EAGAIN msg)
      else (ss_add σ q t).setPc t (.sndSleep a msg)
    else (deliver σ t e msg q msq.q_receivers).ret t (.ok 0)

/-! ## `_rt_msgrcv` -/

/-- `_rt_msgrcv` unlinks the message it found and wakes the senders. -/
def unlink (σ : State) (t : Tid) (e : Env) (q : QId) (msg : Msg) (senders : List Tid) : State :=
  let σ := σ.modQ q fun msq =>
    { msq with
      q_messages := msq.q_messages.erase msg
      q_qnum := msq.q_qnum - 1
      q_rtime := e.now
      q_lrpid := (σ.tasks t).cred.pid
      q_cbytes := msq.q_cbytes - msg.m_ts }
  let σ := { σ with msg_bytes := σ.msg_bytes - msg.m_ts, msg_hdrs := σ.msg_hdrs - 1 }
  let σ := ss_wakeup false senders σ
  σ.log fun h => { h with taken := h.taken ++ [(q, msg)] }

/-- `_rt_msgrcv` links itself and waits for a sender. -/
def rcvLink (σ : State) (t : Tid) (a : RcvArgs) (q : QId) : State :=
  (σ.modT t fun k =>
    { k with
      msr_d :=
        { r_mode := a.mode
          r_msgtype := a.msgtyp
          r_maxsize := if hasFlag a.msgflg MSG_NOERROR then INT_MAX else a.msgsz
          r_msg := .err .EAGAIN }
      woken := false }).modQ q
    fun msq => { msq with q_receivers := msq.q_receivers ++ [t] }

/-- `_rt_msgrcv` from the label `retry`, with `msq = q` locked. -/
def rcvRetry (σ : State) (t : Tid) (e : Env) (a : RcvArgs) (q : QId) : State :=
  match σ.queues q with
  | none => σ.bug .danglingQueue
  | some msq =>
    if ipc_checkid msq.q_perm a.msqid then σ.ret t (.err .EIDRM)
    else if ipcperms (σ.tasks t).cred msq.q_perm S_IRUGO then σ.ret t (.err .EACCES)
    else match scan a.mode a.msgtyp none msq.q_messages with
      | some msg =>
        if a.msgsz < msg.m_ts ∧ !hasFlag a.msgflg MSG_NOERROR then σ.ret t (.err .E2BIG)
        else (unlink σ t e q msg msq.q_senders).setPc t (.rcvCopy a msg)
      | none =>
        if hasFlag a.msgflg IPC_NOWAIT then σ.ret t (.err .ENOMSG)
        else (rcvLink σ t a q).setPc t (.rcvSleep a q)

/-- `out_success`: copy out, free the message, return. -/
def copyOut (σ : State) (t : Tid) (e : Env) (a : RcvArgs) (msg : Msg) : State :=
  let msgsz := if a.msgsz > msg.m_ts then msg.m_ts else a.msgsz
  let r := if a.space && !e.copy then .err .EFAULT
    else .rcv msgsz msg.m_type (msg.m_text.take msgsz)
  (σ.log fun h => { h with handed := h.handed ++ [(t, msg)], freed := h.freed ++ [msg] }).ret t r

/-! ## `_rt_msgctl` -/

/-- IPC_SET, with the queue locked and the caller allowed to change it. -/
def ipcSet (σ : State) (e : Env) (q : QId) (msq : MsgQueue) (setbuf : MsqSetbuf) : State :=
  let σ := σ.modQ q fun msq =>
    { msq with
      q_qbytes := setbuf.qbytes
      q_perm :=
        { msq.q_perm with
          uid := setbuf.uid
          gid := setbuf.gid
          mode := (msq.q_perm.mode &&& ~~~S_IRWXUGO) ||| (S_IRWXUGO &&& setbuf.mode) }
      q_ctime := e.now }
  ss_wakeup false msq.q_senders (expunge_all .EAGAIN msq.q_receivers σ)

/-- `freeque` up to `msg_unlock`. -/
def freeque (σ : State) (t : Tid) (msqid : Nat) : State :=
  match ipc_rmid σ.ids msqid with
  | none => σ.bug .bugRmid
  | some (ids, q) =>
    match σ.queues q with
    | none => σ.bug .danglingQueue
    | some msq =>
      let σ := { σ with ids := ids }
      let σ := ss_wakeup true msq.q_senders (expunge_all .EIDRM msq.q_receivers σ)
      σ.setPc t (.ctlFree q msq.q_messages)

/-- `_rt_msgctl` under `ids->sem`: IPC_SET and IPC_RMID. -/
def ctlBody (σ : State) (t : Tid) (e : Env) (a : CtlArgs) : State :=
  match ipc_lock σ.ids a.msqid with
  | none => σ.setPc t (.semUp (.err .EINVAL))
  | some q =>
    match σ.queues q with
    | none => σ.bug .danglingQueue
    | some msq =>
      let cur := (σ.tasks t).cred
      if ipc_checkid msq.q_perm a.msqid then σ.setPc t (.semUp (.err .EIDRM))
      else if cur.euid ≠ msq.q_perm.cuid ∧ cur.euid ≠ msq.q_perm.uid ∧ !cur.cap_sys_admin then
        σ.setPc t (.semUp (.err .EPERM))
      else if a.cmd = .ipcSet then
        if a.setbuf.qbytes > MSGMNB ∧ !cur.cap_sys_resource then
          σ.setPc t (.semUp (.err .EPERM))
        else (ipcSet σ e q msq a.setbuf).setPc t (.semUp (.ok 0))
      else freeque σ t a.msqid

/-- One round of the loop of `freeque`, or what follows it. -/
def freeStep (σ : State) (t : Tid) (q : QId) : List Msg → State
  | msg :: rest =>
    let σ := { σ with msg_hdrs := σ.msg_hdrs - 1 }
    (σ.log fun h => { h with purged := h.purged ++ [msg], freed := h.freed ++ [msg] }).setPc t
      (.ctlFree q rest)
  | [] =>
    match σ.queues q with
    | none => σ.bug .danglingQueue
    | some msq =>
      { σ with
        msg_bytes := σ.msg_bytes - msq.q_cbytes
        queues := Function.update σ.queues q none }.setPc t (.semUp (.ok 0))

/-- IPC_STAT and MSG_STAT. -/
def statBody (σ : State) (t : Tid) (e : Env) (msqid : Nat) (cmd : Cmd) (space : Bool) : State :=
  match ipc_lock σ.ids msqid with
  | none => σ.ret t (.err .EINVAL)
  | some q =>
    match σ.queues q with
    | none => σ.bug .danglingQueue
    | some msq =>
      if cmd ≠ .msgStat ∧ ipc_checkid msq.q_perm msqid then σ.ret t (.err .EIDRM)
      else if ipcperms (σ.tasks t).cred msq.q_perm S_IRUGO then σ.ret t (.err .EACCES)
      else if space && !e.copy then σ.ret t (.err .EFAULT)
      else
        σ.ret t (.stat (if cmd = .msgStat then ipc_buildid msqid msq.q_perm.seq else 0)
          { msg_perm := msq.q_perm
            msg_stime := msq.q_stime
            msg_rtime := msq.q_rtime
            msg_ctime := msq.q_ctime
            msg_cbytes := msq.q_cbytes
            msg_qnum := msq.q_qnum
            msg_qbytes := msq.q_qbytes
            msg_lspid := msq.q_lspid
            msg_lrpid := msq.q_lrpid })

/-- IPC_INFO and MSG_INFO, under `ids->sem`: the `msginfo` they fill in. -/
def infoOf (σ : State) (cmd : Cmd) : Msginfo :=
  { msgpool := if cmd = .msgInfo then σ.ids.in_use else MSGPOOL
    msgmap := if cmd = .msgInfo then σ.msg_hdrs else MSGMAP
    msgmax := MSGMAX
    msgmnb := MSGMNB
    msgmni := MSGMNI
    msgssz := MSGSSZ
    msgtql := if cmd = .msgInfo then σ.msg_bytes else MSGTQL
    msgseg := MSGSEG }

/-- IPC_INFO and MSG_INFO: the value returned and the copy to the caller. -/
def infoBody (σ : State) (t : Tid) (e : Env) (cmd : Cmd) (space : Bool) : State :=
  σ.setPc t (.semUp (if space && !e.copy then .err .EFAULT
    else .info σ.ids.max_id.toNat (infoOf σ cmd)))

/-! ## `rt_msgget` -/

/-- `rt_msgget` after `down`: what becomes of the key. -/
def getFind (σ : State) (t : Tid) (key : Int) (msgflg : BitVec 32) : State :=
  if key = IPC_PRIVATE then σ.setPc t (.getNew key msgflg)
  else match ipc_findkey σ.ids σ.perm key with
    | none =>
      if !hasFlag msgflg IPC_CREAT then σ.setPc t (.semUp (.err .ENOENT))
      else σ.setPc t (.getNew key msgflg)
    | some id =>
      if hasFlag msgflg IPC_CREAT && hasFlag msgflg IPC_EXCL then
        σ.setPc t (.semUp (.err .EEXIST))
      else σ.setPc t (.getLock id msgflg)

/-- The `msg_queue` that `newque` fills in. -/
def newMsq (cur : Cred) (e : Env) (key : Int) (msgflg : BitVec 32) (seq : Nat) : MsgQueue :=
  { q_perm :=
      { key := key
        uid := cur.euid
        gid := cur.egid
        cuid := cur.euid
        cgid := cur.egid
        mode := msgflg &&& S_IRWXUGO
        seq := seq }
    q_stime := 0
    q_rtime := 0
    q_ctime := e.now
    q_cbytes := 0
    q_qnum := 0
    q_qbytes := MSGMNB
    q_lspid := 0
    q_lrpid := 0
    q_messages := []
    q_receivers := []
    q_senders := [] }

/-- `newque` after `grow_ary`. The new queue gets the next `QId`. -/
def newque (σ : State) (t : Tid) (e : Env) (key : Int) (msgflg : BitVec 32) (size : Nat) : State :=
  let q := σ.hist.slots.length
  match ipc_addid σ.ids q size with
  | none => σ.setPc t (.semUp (.err .ENOSPC))
  | some (ids, id, seq) =>
    let msq := newMsq (σ.tasks t).cred e key msgflg seq
    ({ σ with ids := ids, queues := Function.update σ.queues q (some msq) }.log
      fun h => { h with slots := h.slots ++ [id] }).setPc t (.semUp (.ok (ipc_buildid id seq)))

/-- `rt_msgget` on a queue that exists. -/
def getLock (σ : State) (t : Tid) (id : Nat) (msgflg : BitVec 32) : State :=
  match ipc_lock σ.ids id with
  | none => σ.bug .bugMsgget
  | some q =>
    match σ.queues q with
    | none => σ.bug .danglingQueue
    | some msq =>
      if ipcperms (σ.tasks t).cred msq.q_perm msgflg then σ.setPc t (.semUp (.err .EACCES))
      else σ.setPc t (.semUp (.ok (ipc_buildid id msq.q_perm.seq)))

/-! ## The step function -/

/-- `down(&msg_ids.sem)`: blocks while another task holds it. -/
def down (σ : State) (t : Tid) (pc : Pc) : Option State :=
  if σ.sem.isNone then some ({ σ with sem := some t }.setPc t pc) else none

/-- The code of a call before its first lock: argument checks and `load_msg`. -/
def enter (P : Params) (σ : State) (t : Tid) (e : Env) : Call → State
  | .msgsnd msqid mtype mtext msgflg space =>
    if mtext.length > MSGMAX ∨ msqid < 0 then σ.ret t (.err .EINVAL)
    else if mtype < 1 then σ.ret t (.err .EINVAL)
    else if !e.alloc then σ.ret t (.err .ENOMEM)
    else if space && !e.copy then σ.ret t (.err .EFAULT)
    else
      { σ with nextMsg := σ.nextMsg + 1 }.setPc t (.sndLock ⟨msqid.toNat, msgflg⟩
        { mid := σ.nextMsg, m_type := mtype, m_ts := mtext.length, m_text := mtext })
  | .msgrcv msqid msgsz msgtyp msgflg space =>
    if msqid < 0 ∨ 2 ^ (P.longBits - 1) ≤ msgsz then σ.ret t (.err .EINVAL)
    else
      let (mode, msgtyp) := convert_mode P.longBits msgtyp msgflg
      σ.setPc t (.rcvLock ⟨msqid.toNat, msgsz, msgtyp, mode, msgflg, space⟩)
  | .msgctl msqid cmd buf space =>
    if msqid < 0 then σ.ret t (.err .EINVAL)
    else match cmd, buf with
      | .ipcInfo, none | .msgInfo, none | .msgStat, none | .ipcStat, none | .ipcSet, none =>
        σ.ret t (.err .EFAULT)
      | .ipcInfo, some _ | .msgInfo, some _ => σ.setPc t (.infoDown cmd space)
      | .msgStat, some _ =>
        if σ.ids.size ≤ msqid.toNat then σ.ret t (.err .EINVAL)
        else σ.setPc t (.statLock msqid.toNat cmd space)
      | .ipcStat, some _ => σ.setPc t (.statLock msqid.toNat cmd space)
      | .ipcSet, some setbuf =>
        if space && !e.copy then σ.ret t (.err .EFAULT)
        else σ.setPc t (.ctlDown ⟨msqid.toNat, cmd, setbuf⟩)
      | .ipcRmid, _ => σ.setPc t (.ctlDown ⟨msqid.toNat, cmd, ⟨0, 0, 0, 0#32⟩⟩)
      | .other, _ => σ.ret t (.err .EINVAL)
  | .msgget key msgflg => σ.setPc t (.getDown key msgflg)

/-- The second `msg_lock` of `_rt_msgsnd`. -/
def sndRelock (σ : State) (t : Tid) (e : Env) (a : SndArgs) (msg : Msg) : State :=
  match ipc_lock σ.ids a.msqid with
  | none => σ.setPc t (.sndFree .EIDRM msg)
  | some q =>
    let σ := ss_del σ t
    if (σ.tasks t).signal_pending then σ.setPc t (.sndFree .EINTR msg)
    else sndRetry σ t e a msg q

/-- The second `msg_lock` of `_rt_msgrcv`. The pointer `msq` is the one from
before `schedule`. -/
def rcvRelock (σ : State) (t : Tid) (e : Env) (a : RcvArgs) (msq : QId) : State :=
  match ipc_lock σ.ids a.msqid with
  | none => σ.setPc t (.rcvNull a)
  | some _ =>
    match (σ.tasks t).msr_d.r_msg with
    | .msg msg => σ.setPc t (.rcvCopy a msg)
    | .err .EAGAIN =>
      match σ.queues msq with
      | none => σ.bug .danglingQueue
      | some queue =>
        if t ∈ queue.q_receivers then
          let σ := r_list_del σ msq t
          if (σ.tasks t).signal_pending then σ.ret t (.err .EINTR)
          else rcvRetry σ t e a msq
        else σ.bug .badListDel
    | .err err => σ.ret t (.err err)

/-- `_rt_msgrcv` after a second `msg_lock` that returned NULL. -/
def rcvNull (σ : State) (t : Tid) (a : RcvArgs) : State :=
  match (σ.tasks t).msr_d.r_msg with
  | .msg msg => σ.setPc t (.rcvCopy a msg)
  | .err .EAGAIN => σ.bug .bugMsgrcv
  | .err err => σ.ret t (.err err)

/-- The next stretch of a task. -/
def exec (σ : State) (t : Tid) (e : Env) : Option State :=
  match (σ.tasks t).pc with
  | .idle _ | .sndSleep _ _ | .rcvSleep _ _ => none
  | .sndLock a msg =>
    match ipc_lock σ.ids a.msqid with
    | none => some (σ.setPc t (.sndFree .EINVAL msg))
    | some q => some (sndRetry σ t e a msg q)
  | .sndRelock a msg => some (sndRelock σ t e a msg)
  | .sndFree err msg =>
    some ((σ.log fun h => { h with freed := h.freed ++ [msg] }).ret t (.err err))
  | .rcvLock a =>
    match ipc_lock σ.ids a.msqid with
    | none => some (σ.ret t (.err .EINVAL))
    | some q => some (rcvRetry σ t e a q)
  | .rcvRelock a msq => some (rcvRelock σ t e a msq)
  | .rcvNull a => some (rcvNull σ t a)
  | .rcvCopy a msg => some (copyOut σ t e a msg)
  | .ctlDown a => down σ t (.ctlLock a)
  | .ctlLock a => some (ctlBody σ t e a)
  | .ctlFree q rest => some (freeStep σ t q rest)
  | .statLock msqid cmd space => some (statBody σ t e msqid cmd space)
  | .infoDown cmd space => down σ t (.infoRead cmd space)
  | .infoRead cmd space => some (infoBody σ t e cmd space)
  | .getDown key msgflg => down σ t (.getFind key msgflg)
  | .getFind key msgflg => some (getFind σ t key msgflg)
  | .getNew key msgflg =>
    if !e.alloc then some (σ.setPc t (.semUp (.err .ENOMEM)))
    else some (σ.setPc t (.getGrow key msgflg))
  | .getGrow key msgflg =>
    let (ids, size) := grow_ary σ.ids MSGMNI e.alloc
    some ({ σ with ids := ids }.setPc t (.getAdd key msgflg size))
  | .getAdd key msgflg size => some (newque σ t e key msgflg size)
  | .getLock id msgflg => some (getLock σ t id msgflg)
  | .semUp r => some ({ σ with sem := none }.ret t r)

/-- Return from `schedule`. -/
def resume (σ : State) (t : Tid) : Option State :=
  match (σ.tasks t).pc with
  | .sndSleep a msg => some (σ.setPc t (.sndRelock a msg))
  | .rcvSleep a msq => some (σ.setPc t (.rcvRelock a msq))
  | _ => none

/-- One step; after a kernel failure there is none. -/
def step (P : Params) (σ : State) (l : Label) : Option State :=
  if σ.oops.isSome then none
  else match l with
    | .call t c e =>
      match (σ.tasks t).pc with
      | .idle _ => some (enter P (σ.modT t fun k => { k with calls := k.calls + 1 }) t e c)
      | _ => none
    | .exec t e => exec σ t e
    | .resume t => resume σ t
    | .signal t pending => some (σ.modT t fun k => { k with signal_pending := pending })

/-- The state after `msg_init`, for given credentials of the tasks. -/
def initState (P : Params) (cred : Tid → Cred) : State :=
  { ids := ipc_init_ids MSGMNI P.tableAlloc
    sem := none
    queues := fun _ => none
    msg_bytes := 0
    msg_hdrs := 0
    tasks := fun t =>
      { pc := .idle none
        cred := cred t
        signal_pending := false
        msr_d := ⟨.any, 0, 0, .err .EAGAIN⟩
        mss_list := none
        woken := false
        calls := 0 }
    nextMsg := 0
    oops := none
    hist := ⟨[], [], [], [], [], []⟩ }

/-- The module as a transition system. -/
def machine (P : Params) : TSys State Label where
  init σ := ∃ cred, σ = initState P cred
  next := step P

end RtaiDemos.Sysvmsg
