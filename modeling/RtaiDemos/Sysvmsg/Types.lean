import Mathlib.Algebra.Order.Ring.Int
import Mathlib.Data.List.Basic
import Mathlib.Logic.Function.Basic

/-!
# RTAI System V messages: data model

The structures of `msg.c`, `util.h` and `rtai_sysvmsg.h`. Pointers to queues
are `QId`s into a heap, tasks are `Tid`s, and a waiter record (`msg_receiver`,
`msg_sender`) lives in the task that owns it: being linked on a queue is being
a member of the queue's `q_receivers` or `q_senders`.

Counters (`q_cbytes`, `q_qnum`, `q_qbytes`, `msg_bytes`, `msg_hdrs`) are exact
integers: each counted byte and header is backed by allocated memory, so the
C counters cannot wrap.
-/

namespace RtaiDemos.Sysvmsg

/-- A task. -/
abbrev Tid := Nat

/-- A pointer to a `msg_queue`; queues are numbered in the order of their
creation, so no two queues ever share one. -/
abbrev QId := Nat

/-- The error codes the four calls return (negated). -/
inductive Errno
  | EPERM | ENOENT | EINTR | E2BIG | EAGAIN | ENOMEM | EACCES | EFAULT
  | EEXIST | EINVAL | ENOSPC | ENOMSG | EIDRM
  deriving DecidableEq, Repr

/-! ## Constants -/

/-- `IPCMNI` of `linux/ipc.h`; `SEQ_MULTIPLIER` is defined as it. -/
def IPCMNI : Nat := 32768
def SEQ_MULTIPLIER : Nat := IPCMNI
def USHRT_MAX : Nat := 0xffff
def INT_MAX : Nat := 2147483647

def MSGMNI : Nat := 16
def MSGMAX : Nat := 8192
def MSGMNB : Nat := 16384
def MSGPOOL : Nat := MSGMNI * MSGMNB / 1024
def MSGTQL : Nat := MSGMNB
def MSGMAP : Nat := MSGMNB
def MSGSSZ : Nat := 16
def MSGSEG : Nat := min (MSGPOOL * 1024 / MSGSSZ) 0xffff

def IPC_PRIVATE : Int := 0
def IPC_CREAT : BitVec 32 := 0o1000#32
def IPC_EXCL : BitVec 32 := 0o2000#32
def IPC_NOWAIT : BitVec 32 := 0o4000#32
def MSG_NOERROR : BitVec 32 := 0o10000#32
def MSG_EXCEPT : BitVec 32 := 0o20000#32
def S_IRUGO : BitVec 32 := 0o444#32
def S_IWUGO : BitVec 32 := 0o222#32
def S_IRWXUGO : BitVec 32 := 0o777#32

/-- `msgflg & bit`, as a condition. -/
def hasFlag (msgflg bit : BitVec 32) : Bool := msgflg &&& bit != 0#32

/-! ## Structures -/

/-- What the module reads of `current`; `in_group_p` and `capable` are the kernel's. -/
structure Cred where
  pid : Nat
  euid : Nat
  egid : Nat
  in_group_p : Nat → Bool
  cap_ipc_owner : Bool
  cap_sys_admin : Bool
  cap_sys_resource : Bool

/-- `struct kern_ipc_perm`. -/
structure KernIpcPerm where
  key : Int
  uid : Nat
  gid : Nat
  cuid : Nat
  cgid : Nat
  mode : BitVec 32
  seq : Nat
  deriving DecidableEq, Repr

/-- `struct msg_msg`. `mid` is the identity of the block `load_msg` allocated;
the text is kept whole here, its split into segments is not visible to any
other function. -/
structure Msg where
  mid : Nat
  m_type : Int
  m_ts : Nat
  m_text : List UInt8
  deriving DecidableEq, Repr

/-- `SEARCH_ANY`, `SEARCH_EQUAL`, `SEARCH_NOTEQUAL`, `SEARCH_LESSEQUAL`. -/
inductive SearchMode
  | any | equal | notequal | lessequal
  deriving DecidableEq, Repr

/-- The `r_msg` field: a message, or an error made by `ERR_PTR`. -/
inductive RMsg
  | msg (m : Msg)
  | err (e : Errno)
  deriving DecidableEq, Repr

/-- The message in `r_msg`, if it is one. -/
def RMsg.toMsg : RMsg → Option Msg
  | .msg m => some m
  | .err _ => none

/-- `struct msg_receiver`, without its list node. -/
structure MsgReceiver where
  r_mode : SearchMode
  r_msgtype : Int
  r_maxsize : Nat
  r_msg : RMsg
  deriving DecidableEq, Repr

/-- `struct msg_queue`. -/
structure MsgQueue where
  q_perm : KernIpcPerm
  q_stime : Nat
  q_rtime : Nat
  q_ctime : Nat
  q_cbytes : Int
  q_qnum : Int
  q_qbytes : Int
  q_lspid : Nat
  q_lrpid : Nat
  q_messages : List Msg
  q_receivers : List Tid
  q_senders : List Tid
  deriving DecidableEq, Repr

/-- `struct ipc_ids`, without its locks. The size of the table is the length
of `entries`; `seq` and `seq_max` are `unsigned short`. -/
structure IpcIds where
  in_use : Int
  max_id : Int
  seq : Nat
  seq_max : Nat
  entries : List (Option QId)
  deriving DecidableEq, Repr

/-- `ids->size`. -/
def IpcIds.size (ids : IpcIds) : Nat := ids.entries.length

/-- `struct msq_setbuf`. -/
structure MsqSetbuf where
  qbytes : Nat
  uid : Nat
  gid : Nat
  mode : BitVec 32
  deriving DecidableEq, Repr

/-- `struct msginfo`. -/
structure Msginfo where
  msgpool : Int
  msgmap : Int
  msgmax : Nat
  msgmnb : Nat
  msgmni : Nat
  msgssz : Nat
  msgtql : Int
  msgseg : Nat
  deriving DecidableEq, Repr

/-- `struct msqid64_ds`. -/
structure Msqid64Ds where
  msg_perm : KernIpcPerm
  msg_stime : Nat
  msg_rtime : Nat
  msg_ctime : Nat
  msg_cbytes : Int
  msg_qnum : Int
  msg_qbytes : Int
  msg_lspid : Nat
  msg_lrpid : Nat
  deriving DecidableEq, Repr

/-- The commands of `_rt_msgctl` after `ipc_parse_version`; `other` is any
value the switch does not know. -/
inductive Cmd
  | ipcInfo | msgInfo | msgStat | ipcStat | ipcSet | ipcRmid | other
  deriving DecidableEq, Repr

/-- What a call leaves with its caller: the value returned, and what it
copied out. -/
inductive Ret
  | ok (value : Nat)
  | err (e : Errno)
  | rcv (msgsz : Nat) (mtype : Int) (mtext : List UInt8)
  | info (value : Nat) (buf : Msginfo)
  | stat (value : Nat) (buf : Msqid64Ds)
  deriving DecidableEq, Repr

/-- A call with its arguments. `mtext` stands for the `msgsz` bytes at the
pointer; `buf` is `none` for a null pointer, and else what
`copy_msqid_from_user` finds there; `space` is set for callers from user
space. -/
inductive Call
  | msgsnd (msqid mtype : Int) (mtext : List UInt8) (msgflg : BitVec 32) (space : Bool)
  | msgrcv (msqid : Int) (msgsz : Nat) (msgtyp : Int) (msgflg : BitVec 32) (space : Bool)
  | msgctl (msqid : Int) (cmd : Cmd) (buf : Option MsqSetbuf) (space : Bool)
  | msgget (key : Int) (msgflg : BitVec 32)
  deriving DecidableEq, Repr

/-! ## Tasks -/

/-- The arguments of `_rt_msgsnd` that survive the argument check; type, size
and text are in the message by then. -/
structure SndArgs where
  msqid : Nat
  msgflg : BitVec 32
  deriving DecidableEq, Repr

/-- The arguments of `_rt_msgrcv` after `convert_mode`. -/
structure RcvArgs where
  msqid : Nat
  msgsz : Nat
  msgtyp : Int
  mode : SearchMode
  msgflg : BitVec 32
  space : Bool
  deriving DecidableEq, Repr

/-- The arguments of `_rt_msgctl` for the commands that take `ids->sem`. -/
structure CtlArgs where
  msqid : Nat
  cmd : Cmd
  setbuf : MsqSetbuf
  deriving DecidableEq, Repr

/-- Where a task stands. Each constructor is a point at which the task holds
no `ids->ary` lock, named after what it does next, with the locals it keeps. -/
inductive Pc
  /-- Outside the four calls; what the last one returned. -/
  | idle (ret : Option Ret)
  -- `_rt_msgsnd`: before `msg_lock`, in `schedule`, before the second
  -- `msg_lock`, at `out_free` with the message still owned
  | sndLock (a : SndArgs) (msg : Msg)
  | sndSleep (a : SndArgs) (msg : Msg)
  | sndRelock (a : SndArgs) (msg : Msg)
  | sndFree (err : Errno) (msg : Msg)
  -- `_rt_msgrcv`: likewise, with the pointer `msq` kept across `schedule`;
  -- `rcvNull` is after a second `msg_lock` that returned NULL (`msqid = -1`),
  -- `rcvCopy` is `out_success`
  | rcvLock (a : RcvArgs)
  | rcvSleep (a : RcvArgs) (msq : QId)
  | rcvRelock (a : RcvArgs) (msq : QId)
  | rcvNull (a : RcvArgs)
  | rcvCopy (a : RcvArgs) (msg : Msg)
  -- `_rt_msgctl`: IPC_SET and IPC_RMID; `ctlFree` is `freeque` after
  -- `msg_unlock`, with the messages its loop has yet to free
  | ctlDown (a : CtlArgs)
  | ctlLock (a : CtlArgs)
  | ctlFree (msq : QId) (rest : List Msg)
  -- `_rt_msgctl`: IPC_STAT, MSG_STAT and IPC_INFO, MSG_INFO
  | statLock (msqid : Nat) (cmd : Cmd) (space : Bool)
  | infoDown (cmd : Cmd) (space : Bool)
  | infoRead (cmd : Cmd) (space : Bool)
  -- `rt_msgget`
  | getDown (key : Int) (msgflg : BitVec 32)
  | getFind (key : Int) (msgflg : BitVec 32)
  | getNew (key : Int) (msgflg : BitVec 32)
  | getGrow (key : Int) (msgflg : BitVec 32)
  | getAdd (key : Int) (msgflg : BitVec 32) (size : Nat)
  | getLock (id : Nat) (msgflg : BitVec 32)
  /-- Before `up(&msg_ids.sem)`. -/
  | semUp (ret : Ret)
  deriving DecidableEq, Repr

/-- A task: its control point, its credentials, a pending signal, and its
waiter records. `mss_list` is `s.list`: the queue it is linked on, or NULL.
`woken` is set by `wake_up_process` and cleared when the task links itself. -/
structure Task where
  pc : Pc
  cred : Cred
  signal_pending : Bool
  msr_d : MsgReceiver
  mss_list : Option QId
  woken : Bool
  calls : Nat

/-- The kernel failures the code could run into: its own `BUG()`s, a
dereference of a freed queue, and a `list_del` of a node not on the list. -/
inductive Oops
  | bugMsgget | bugMsgrcv | bugRmid | danglingQueue | badListDel
  deriving DecidableEq, Repr

/-- What has happened so far: the slot given to each queue in the order of
creation, the final send steps and the takings in their order, the messages
handed to receivers that returned, the messages `freeque` freed, and every
`free_msg`. The length of `slots` is the pointer that the next queue gets; no step
reads more of it. -/
structure History where
  slots : List Nat
  sent : List (QId × Msg)
  taken : List (QId × Msg)
  handed : List (Tid × Msg)
  purged : List Msg
  freed : List Msg

/-- The state of the module. `queues` is the heap of `msg_queue`s, `sem` the
holder of `ids->sem`, `nextMsg` the next block `load_msg` will allocate. -/
structure State where
  ids : IpcIds
  sem : Option Tid
  queues : QId → Option MsgQueue
  msg_bytes : Int
  msg_hdrs : Int
  tasks : Tid → Task
  nextMsg : Nat
  oops : Option Oops
  hist : History

end RtaiDemos.Sysvmsg
