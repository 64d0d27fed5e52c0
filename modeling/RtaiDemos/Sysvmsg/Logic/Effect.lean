import RtaiDemos.Sysvmsg.Logic.Wf

/-!
# Effects

The abstract machine under the calls: the few things that can happen to
queues, waiters and messages, each with the facts under which the code lets
it happen. Permissions, flags, clocks and error codes are gone. Every step of
the code is a sequence of effects (`step_effects`), so an invariant is checked
on effects only.
-/

namespace RtaiDemos.Sysvmsg

/-- The message a sender has loaded and neither sent nor freed. -/
def Pc.owned : Pc → Option Msg
  | .sndLock _ m | .sndSleep _ m | .sndRelock _ m | .sndFree _ m => some m
  | _ => none

/-- The message a receiver holds and has not yet returned: in `r_msg`, or in
its local variable. -/
def Task.held (k : Task) : Option Msg :=
  match k.pc with
  | .rcvCopy _ m => some m
  | .rcvSleep _ _ | .rcvRelock _ _ | .rcvNull _ => k.msr_d.r_msg.toMsg
  | _ => none

/-- Control points that own no message, hold none and wait on no queue. -/
def Pc.plain : Pc → Bool
  | .idle _ | .rcvLock _ | .ctlDown _ | .ctlLock _ | .statLock _ _ _ | .infoDown _ _
  | .infoRead _ _ | .getDown _ _ | .getFind _ _ | .getNew _ _ | .getGrow _ _ | .getAdd _ _ _
  | .getLock _ _ | .semUp _ => true
  | _ => false

/-- A task in `schedule`. -/
def Pc.asleep : Pc → Bool
  | .sndSleep _ _ | .rcvSleep _ _ => true
  | _ => false

/-- Every sender linked on the queue has been woken. -/
def State.AllWoken (σ : State) (msq : MsgQueue) : Prop :=
  ∀ s ∈ msq.q_senders, (σ.tasks s).woken = true

/-- One thing that happens; see the constructors. -/
inductive Effect (σ : State) : State → Prop
  /-- A task moves on, awake; what it is linked on, owns, holds and frees is the
  same, except that a message that was never sent may be dropped. -/
  | quiet (t : Tid) (pc : Pc)
      (linked : ({ σ.tasks t with pc := pc } : Task).rcvLinked = (σ.tasks t).rcvLinked)
      (null : ∀ a, pc = .rcvNull a → (σ.tasks t).msr_d.r_msg ≠ .err .EAGAIN)
      (snd : (σ.tasks t).mss_list = none ∨ pc.sndWaiting = (σ.tasks t).pc.sndWaiting)
      (owned : pc.owned = none ∨ pc.owned = (σ.tasks t).pc.owned)
      (held : ({ σ.tasks t with pc := pc } : Task).held = (σ.tasks t).held)
      (sem : pc.holdsSem = (σ.tasks t).pc.holdsSem)
      (free : pc.freeing = (σ.tasks t).pc.freeing)
      (table : σ.TableOk pc) (awake : pc.asleep = false)
      (waits : pc.rcvWaiting = none ∨ pc.rcvWaiting = (σ.tasks t).pc.rcvWaiting) :
      Effect σ (σ.setPc t pc)
  /-- A signal, a wake-up, the start of a call. -/
  | touch (t : Tid) (f : Task → Task)
      (pc : (f (σ.tasks t)).pc = (σ.tasks t).pc)
      (msr : (f (σ.tasks t)).msr_d = (σ.tasks t).msr_d)
      (mss : (f (σ.tasks t)).mss_list = (σ.tasks t).mss_list)
      (woken : (σ.tasks t).woken = true → (f (σ.tasks t)).woken = true) : Effect σ (σ.modT t f)
  /-- `load_msg`. -/
  | newMsg (t : Tid) (a : SndArgs) (m : Msg)
      (pc : (σ.tasks t).pc.plain = true) (sem : (σ.tasks t).pc.holdsSem = false)
      (mid : m.mid = σ.nextMsg) :
      Effect σ ({ σ with nextMsg := σ.nextMsg + 1 }.setPc t (.sndLock a m))
  /-- `free_msg` on a message that is nowhere else. -/
  | freeMsg (l : List Msg) : Effect σ (σ.log fun h => { h with freed := l })
  /-- `down` on the semaphore. -/
  | down (t : Tid) (pc : Pc) (free : σ.sem = none)
      (old : (σ.tasks t).pc.plain = true) (new : pc.plain = true) (sem : pc.holdsSem = true)
      (table : σ.TableOk pc) : Effect σ ({ σ with sem := some t }.setPc t pc)
  /-- `up` on the semaphore. -/
  | up (t : Tid) (pc : Pc) (holds : (σ.tasks t).pc.holdsSem = true)
      (old : (σ.tasks t).pc.plain = true) (new : pc.plain = true) (sem : pc.holdsSem = false)
      (table : σ.TableOk pc) : Effect σ ({ σ with sem := none }.setPc t pc)
  /-- A sender that finds the queue full links itself. -/
  | linkSnd (q : QId) (t : Tid) (a : SndArgs) (m : Msg) (msq : MsgQueue)
      (pc : (σ.tasks t).pc = .sndLock a m) (queue : σ.queues q = some msq)
      (names : σ.Names a.msqid q) (full : msq.full m.m_ts = true) :
      Effect σ ((ss_add σ q t).setPc t (.sndSleep a m))
  /-- A sender unlinks itself. -/
  | unlinkSnd (q : QId) (t : Tid) (a : SndArgs) (m : Msg)
      (pc : (σ.tasks t).pc = .sndRelock a m) (list : (σ.tasks t).mss_list = some q) :
      Effect σ (((σ.modT t fun k => { k with mss_list := none }).modQ q
        fun msq => { msq with q_senders := msq.q_senders.erase t }).setPc t (.sndLock a m))
  /-- A receiver that finds no message links itself. -/
  | linkRcv (q : QId) (t : Tid) (a : RcvArgs) (msq : MsgQueue)
      (pc : (σ.tasks t).pc = .rcvLock a) (queue : σ.queues q = some msq)
      (names : σ.Names a.msqid q)
      (nothing : ∀ m ∈ msq.q_messages, testmsg m a.msgtyp a.mode = false) :
      Effect σ ((rcvLink σ t a q).setPc t (.rcvSleep a q))
  /-- A receiver unlinks itself. -/
  | unlinkRcv (q : QId) (t : Tid) (a : RcvArgs)
      (pc : (σ.tasks t).pc = .rcvRelock a q)
      (again : (σ.tasks t).msr_d.r_msg = .err .EAGAIN) :
      Effect σ ((r_list_del σ q t).setPc t (.rcvLock a))
  /-- A sender unlinks a receiver that is too small. -/
  | tooBig (q : QId) (u : Tid) (msq : MsgQueue) (live : σ.Live q)
      (queue : σ.queues q = some msq) (linked : u ∈ msq.q_receivers) :
      Effect σ ((σ.modT u (·.notified (.err .E2BIG))).modQ q
        fun msq => { msq with q_receivers := msq.q_receivers.erase u })
  /-- A sender hands its message to a receiver. -/
  | handoff (q : QId) (u t : Tid) (a : SndArgs) (m : Msg) (msq : MsgQueue) (pid now : Nat)
      (r : Option Ret) (pc : (σ.tasks t).pc = .sndLock a m) (live : σ.Live q)
      (queue : σ.queues q = some msq) (linked : u ∈ msq.q_receivers)
      (accepts : (σ.tasks u).msr_d.accepts m = true) :
      Effect σ ((((σ.modT u (·.notified (.msg m))).modQ q
        fun msq =>
          { msq with
            q_receivers := msq.q_receivers.erase u
            q_lrpid := pid
            q_rtime := now }).log
        fun h => { h with taken := h.taken ++ [(q, m)], sent := h.sent ++ [(q, m)] }).setPc t
          (.idle r))
  /-- A sender enqueues its message. -/
  | enqueue (q : QId) (t : Tid) (a : SndArgs) (m : Msg) (msq : MsgQueue) (r : Option Ret)
      (pc : (σ.tasks t).pc = .sndLock a m) (live : σ.Live q) (queue : σ.queues q = some msq)
      (nobody : ∀ u ∈ msq.q_receivers, (σ.tasks u).msr_d.accepts m = false) :
      Effect σ (((enqueue σ q m).log
        fun h => { h with sent := h.sent ++ [(q, m)] }).setPc t (.idle r))
  /-- Times and pids of a queue change. -/
  | stamp (q : QId) (stime rtime lspid lrpid : MsgQueue → Nat) :
      Effect σ (σ.modQ q fun msq =>
        { msq with
          q_stime := stime msq, q_rtime := rtime msq
          q_lspid := lspid msq, q_lrpid := lrpid msq })
  /-- A receiver takes a message off the queue; the senders are awake. -/
  | dequeue (q : QId) (t : Tid) (a : RcvArgs) (m : Msg) (msq : MsgQueue) (pid now : Nat)
      (pc : (σ.tasks t).pc = .rcvLock a) (live : σ.Live q) (queue : σ.queues q = some msq)
      (found : scan a.mode a.msgtyp none msq.q_messages = some m) (woken : σ.AllWoken msq) :
      Effect σ (({ σ.modQ q fun msq =>
        { msq with
          q_messages := msq.q_messages.erase m
          q_qnum := msq.q_qnum - 1
          q_rtime := now
          q_lrpid := pid
          q_cbytes := msq.q_cbytes - m.m_ts } with
        msg_bytes := σ.msg_bytes - m.m_ts, msg_hdrs := σ.msg_hdrs - 1 }.log
        fun h => { h with taken := h.taken ++ [(q, m)] }).setPc t (.rcvCopy a m))
  /-- IPC_SET changes the limit and the permissions; the senders are awake. -/
  | setq (q : QId) (msq : MsgQueue) (b : MsqSetbuf) (mode : MsgQueue → BitVec 32) (now : Nat)
      (live : σ.Live q) (queue : σ.queues q = some msq) (woken : σ.AllWoken msq) :
      Effect σ (σ.modQ q fun msq =>
        { msq with
          q_qbytes := b.qbytes
          q_perm := { msq.q_perm with uid := b.uid, gid := b.gid, mode := mode msq }
          q_ctime := now })
  /-- IPC_RMID takes the queue out of the table. -/
  | remove (q : QId) (t : Tid) (msqid : Nat) (ids : IpcIds) (msq : MsgQueue)
      (pc : (σ.tasks t).pc.plain = true) (sem : (σ.tasks t).pc.holdsSem = true)
      (rmid : ipc_rmid σ.ids msqid = some (ids, q)) (queue : σ.queues q = some msq) :
      Effect σ ((ss_wakeup true msq.q_senders (expunge_all .EIDRM msq.q_receivers
        { σ with ids := ids })).setPc t (.ctlFree q msq.q_messages))
  /-- `freeque` frees a message. -/
  | purge (q : QId) (t : Tid) (m : Msg) (rest : List Msg)
      (pc : (σ.tasks t).pc = .ctlFree q (m :: rest)) : Effect σ (freeStep σ t q (m :: rest))
  /-- `freeque` frees the queue. -/
  | release (q : QId) (t : Tid) (msq : MsgQueue) (pc : (σ.tasks t).pc = .ctlFree q [])
      (queue : σ.queues q = some msq) : Effect σ (freeStep σ t q [])
  /-- `newque` puts a queue into the table. -/
  | create (t : Tid) (e : Env) (key : Int) (msgflg : BitVec 32) (size : Nat) (ids : IpcIds)
      (id seq : Nat) (pc : (σ.tasks t).pc = .getAdd key msgflg size)
      (add : ipc_addid σ.ids σ.hist.slots.length size = some (ids, id, seq)) :
      Effect σ (({ σ with
          ids := ids
          queues := Function.update σ.queues σ.hist.slots.length
            (some (newMsq (σ.tasks t).cred e key msgflg seq)) }.log
        fun h => { h with slots := h.slots ++ [id] }).setPc t (.semUp (.ok (ipc_buildid id seq))))
  /-- `grow_ary`. -/
  | grow (t : Tid) (key : Int) (msgflg : BitVec 32) (alloc : Bool)
      (pc : (σ.tasks t).pc = .getGrow key msgflg) :
      Effect σ ({ σ with ids := (grow_ary σ.ids MSGMNI alloc).1 }.setPc t
        (.getAdd key msgflg (grow_ary σ.ids MSGMNI alloc).2))
  /-- A receiver returns with its message. -/
  | handed (t : Tid) (e : Env) (a : RcvArgs) (m : Msg) (pc : (σ.tasks t).pc = .rcvCopy a m) :
      Effect σ (copyOut σ t e a m)

/-- Any number of effects. -/
abbrev Effects : State → State → Prop := Relation.ReflTransGen Effect

end RtaiDemos.Sysvmsg
