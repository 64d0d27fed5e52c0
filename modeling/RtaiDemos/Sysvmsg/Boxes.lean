import RtaiDemos.Core.Atomic
import RtaiDemos.Sysvmsg.Machine

/-!
# What the message module is for

Boxes under identifiers. A box has a key and a list of messages; it is created
empty and removed whole, a message is put at its end, and the message taken is
the one the selector picks. No slots, sequence numbers, waiter lists or tasks:
`State.boxes` is what is left of a state without them, and `service` says which
operation each of the four calls comes to and what it returns.
-/

namespace RtaiDemos.Sysvmsg

/-- A queue as its users know it. -/
structure MsgBox where
  key : Int
  messages : List Msg
  deriving DecidableEq, Repr

/-- The boxes, by the identifier that `rt_msgget` returned. -/
abbrev Boxes := Nat → Option MsgBox

/-- What may stand in the way of a call: no box has the identifier, none is in the slot,
the box has no message that the selector picks, no box has the key, one has it. -/
inductive Obstacle
  | gone (id : Nat)
  | vacant (slot : Nat)
  | nothing (id : Nat) (mode : SearchMode) (msgtyp : Int)
  | unknown (key : Int)
  | inUse (key : Int)

/-- The errors by which a call tells what it has met. -/
def Obstacle.errnos : Obstacle → List Errno
  | .gone _ => [.EINVAL, .EIDRM]
  | .vacant _ => [.EINVAL]
  | .nothing _ _ _ => [.ENOMSG]
  | .unknown _ => [.ENOENT]
  | .inUse _ => [.EEXIST]

/-- The operations. `find`, `stat` and `meet` only look. -/
inductive BoxOp
  | create (id : Nat) (key : Int)
  | find (id : Nat) (key : Int)
  | remove (id : Nat)
  | send (id : Nat) (msg : Msg)
  | recv (id : Nat) (mode : SearchMode) (msgtyp : Int) (msg : Msg)
  | stat (id : Nat) (key qnum cbytes : Int)
  | meet (what : Obstacle)

/-- The bytes of the messages in a box. -/
def MsgBox.bytes (b : MsgBox) : Int := (b.messages.map fun m => (m.m_ts : Int)).sum

/-- Whether the obstacle is there. -/
def Boxes.Has (B : Boxes) : Obstacle → Prop
  | .gone id => B id = none
  | .vacant slot => ∀ id, id % SEQ_MULTIPLIER = slot → B id = none
  | .nothing id mode msgtyp => ∃ b, B id = some b ∧ scan mode msgtyp none b.messages = none
  | .unknown key => ∀ id b, B id = some b → b.key ≠ key
  | .inUse key => ∃ id b, B id = some b ∧ b.key = key

open Classical in
/-- The boxes after an operation. A key other than `IPC_PRIVATE` is in use once. -/
noncomputable def Boxes.next (B : Boxes) : BoxOp → Option Boxes
  | .create id key =>
      if B id = none ∧ (key = IPC_PRIVATE ∨ ∀ i b, B i = some b → b.key ≠ key) then
        some (Function.update B id (some ⟨key, []⟩))
      else none
  | .find id key =>
      (B id).bind fun b => if b.key = key then some B else none
  | .remove id =>
      (B id).map fun _ => Function.update B id none
  | .send id msg =>
      (B id).map fun b => Function.update B id (some { b with messages := b.messages ++ [msg] })
  | .recv id mode msgtyp msg =>
      (B id).bind fun b =>
        if scan mode msgtyp none b.messages = some msg then
          some (Function.update B id (some { b with messages := b.messages.erase msg }))
        else none
  | .stat id key qnum cbytes =>
      (B id).bind fun b =>
        if b.key = key ∧ (b.messages.length : Int) = qnum ∧ b.bytes = cbytes then some B else none
  | .meet what => if B.Has what then some B else none

/-- The object. -/
noncomputable def boxes : TSys Boxes BoxOp where
  init B := ∀ id, B id = none
  next := Boxes.next

/-- The obstacles that a call may meet. -/
def Call.meets (P : Params) : Call → Obstacle → Prop
  | .msgsnd msqid _ _ _ _, .gone id | .msgrcv msqid _ _ _ _, .gone id => (id : Int) = msqid
  | .msgctl msqid cmd _ _, .gone id =>
      (id : Int) = msqid ∧ (cmd = .ipcStat ∨ cmd = .ipcSet ∨ cmd = .ipcRmid)
  | .msgctl msqid .msgStat _ _, .vacant slot => (slot : Int) = msqid
  | .msgrcv msqid _ msgtyp msgflg _, .nothing id mode type =>
      (id : Int) = msqid ∧ convert_mode P.longBits msgtyp msgflg = (mode, type) ∧
        hasFlag msgflg IPC_NOWAIT = true
  | .msgget key msgflg, .unknown key' =>
      key' = key ∧ key ≠ IPC_PRIVATE ∧ hasFlag msgflg IPC_CREAT = false
  | .msgget key msgflg, .inUse key' =>
      key' = key ∧ key ≠ IPC_PRIVATE ∧ (hasFlag msgflg IPC_CREAT && hasFlag msgflg IPC_EXCL) = true
  | _, _ => False

/-- The operation that a call may come to. -/
def Call.does (P : Params) : Call → BoxOp → Prop
  | .msgsnd msqid mtype mtext _ _, .send id msg =>
      (id : Int) = msqid ∧ 1 ≤ mtype ∧ msg.m_type = mtype ∧ msg.m_ts = mtext.length ∧
        msg.m_text = mtext
  | .msgrcv msqid msgsz msgtyp msgflg _, .recv id mode type msg =>
      (id : Int) = msqid ∧ convert_mode P.longBits msgtyp msgflg = (mode, type) ∧
        (msg.m_ts ≤ msgsz ∨ hasFlag msgflg MSG_NOERROR = true)
  | .msgctl msqid .ipcRmid _ _, .remove id => (id : Int) = msqid
  | .msgctl msqid .ipcStat _ _, .stat id _ _ _ => (id : Int) = msqid
  | .msgctl msqid .msgStat _ _, .stat id _ _ _ => ((id % SEQ_MULTIPLIER : Nat) : Int) = msqid
  | .msgget key msgflg, .create _ key' =>
      key' = key ∧ (key = IPC_PRIVATE ∨ hasFlag msgflg IPC_CREAT = true)
  | .msgget key msgflg, .find _ key' =>
      key' = key ∧ key ≠ IPC_PRIVATE ∧ (hasFlag msgflg IPC_CREAT && hasFlag msgflg IPC_EXCL) = false
  | c, .meet what => c.meets P what
  | _, _ => False

/-- The errors that have nothing to do with what is in the boxes. -/
def Call.fails (P : Params) : Call → Errno → Prop
  | .msgsnd msqid mtype mtext _ _, e =>
      e = .EINVAL ∧ (mtext.length > MSGMAX ∨ msqid < 0 ∨ mtype < 1) ∨
        e ∈ [Errno.ENOMEM, .EFAULT, .EACCES, .EAGAIN, .EINTR]
  | .msgrcv msqid msgsz _ _ _, e =>
      e = .EINVAL ∧ (msqid < 0 ∨ 2 ^ (P.longBits - 1) ≤ msgsz) ∨
        e ∈ [Errno.EACCES, .E2BIG, .EINTR]
  | .msgctl msqid cmd _ _, e =>
      e = .EINVAL ∧ (msqid < 0 ∨ cmd = .other) ∨ e ∈ [Errno.EFAULT, .EACCES, .EPERM]
  | .msgget _ _, e => e ∈ [Errno.ENOMEM, .ENOSPC, .EACCES]

/-- What a call may return, after its operation or without one. Without one it
fails, but for IPC_SET, IPC_INFO and MSG_INFO, which leave the boxes alone. -/
def Call.fits (P : Params) : Call → Option BoxOp → Ret → Prop
  | c, none, .err e => c.fails P e
  | _, some (.meet what), .err e => e ∈ what.errnos
  | .msgctl _ .ipcSet _ _, none, .ok value => value = 0
  | .msgctl _ .ipcInfo _ _, none, .info _ _ | .msgctl _ .msgInfo _ _, none, .info _ _ => True
  | .msgsnd _ _ _ _ _, some (.send _ _), .ok value => value = 0
  | .msgrcv _ msgsz _ _ _, some (.recv _ _ _ msg), .rcv n mtype mtext =>
      n = min msgsz msg.m_ts ∧ mtype = msg.m_type ∧ mtext = msg.m_text.take n
  | .msgrcv _ _ _ _ space, some (.recv _ _ _ _), .err e => space = true ∧ e = .EFAULT
  | .msgctl _ .ipcRmid _ _, some (.remove _), .ok value => value = 0
  | .msgctl _ .ipcStat _ _, some (.stat _ key qnum cbytes), .stat value buf =>
      value = 0 ∧ buf.msg_perm.key = key ∧ buf.msg_qnum = qnum ∧ buf.msg_cbytes = cbytes
  | .msgctl _ .msgStat _ _, some (.stat id key qnum cbytes), .stat value buf =>
      value = id ∧ buf.msg_perm.key = key ∧ buf.msg_qnum = qnum ∧ buf.msg_cbytes = cbytes
  | .msgget _ _, some (.create id _), .ok value | .msgget _ _, some (.find id _), .ok value =>
      value = id
  | _, _, _ => False

/-- The calls on the boxes. -/
noncomputable def service (P : Params) : Service Boxes Call BoxOp Ret where
  object := boxes
  does := Call.does P
  fits := Call.fits P

/-! ## The boxes of a state -/

/-- What the users know of a `msg_queue`. -/
def MsgQueue.box (msq : MsgQueue) : MsgBox := ⟨msq.q_perm.key, msq.q_messages⟩

/-- The queue that an identifier names, if its sequence number is right. -/
def State.boxes (σ : State) : Boxes := fun id =>
  (σ.ids.entry (id % SEQ_MULTIPLIER)).bind fun q =>
    (σ.queues q).bind fun msq =>
      if id / SEQ_MULTIPLIER = msq.q_perm.seq then some msq.box else none

/-- What a task returns, if it stands outside the calls after this step. -/
def returned (σ : State) (t : Tid) : List (Event Tid Call BoxOp Ret) :=
  match (σ.tasks t).pc with
  | .idle (some r) => [.res t r]
  | _ => []

/-- The invocations and returns in a step. -/
def observed (_ : State) (l : Label) (σ' : State) : List (Event Tid Call BoxOp Ret) :=
  match l with
  | .call t c _ => .inv t c :: returned σ' t
  | .exec t _ => returned σ' t
  | .resume _ | .signal _ _ => []

end RtaiDemos.Sysvmsg
