import Mathlib.Data.List.Nodup
import RtaiDemos.Sysvmsg.Logic.Places

/-!
# Effects move one message at a time

Every effect leaves each message where it was, or moves one message to its
next place; the removal of a queue moves all of its messages at once.
-/

namespace RtaiDemos.Sysvmsg

theorem Task.held_waiting {k : Task} {x : RcvArgs × QId} (h : k.pc.rcvWaiting = some x) :
    k.held = k.msr_d.r_msg.toMsg := by
  unfold Task.held RMsg.toMsg
  cases hpc : k.pc <;> rw [hpc] at h <;> first | rfl | cases h

theorem Task.rcvLinked_some {k : Task} {x : RcvArgs × QId} (h : k.rcvLinked = some x) :
    k.pc.rcvWaiting = some x ∧ k.msr_d.r_msg = .err .EAGAIN := by
  unfold Task.rcvLinked at h
  split at h
  · rename_i hr
    exact ⟨h, hr⟩
  · cases h

/-- A linked receiver holds nothing. -/
theorem Task.held_linked {k : Task} {x : RcvArgs × QId} (h : k.rcvLinked = some x) :
    k.held = none := by
  obtain ⟨hw, hr⟩ := Task.rcvLinked_some h
  rw [Task.held_waiting hw, hr]
  rfl

/-- A linked receiver that is told something holds it. -/
theorem Task.held_notified {k : Task} {x : RcvArgs × QId} (h : k.rcvLinked = some x)
    (r : RMsg) : (k.notified r).held = r.toMsg :=
  Task.held_waiting (k := k.notified r) (Task.rcvLinked_some h).1

/-- A sender holds no message as a receiver, and frees no queue. -/
theorem Task.sender_held {k : Task} {m : Msg} (h : k.pc.owned = some m) :
    k.held = none ∧ k.pc.freeing = none := by
  unfold Task.held
  cases hpc : k.pc <;> rw [hpc] at h <;> first | exact ⟨rfl, rfl⟩ | cases h

theorem Task.plain_held {k : Task} (h : k.pc.plain = true) :
    k.held = none ∧ k.pc.freeing = none :=
  ⟨Task.held_plain h, Pc.plain_freeing h⟩

/-! ## The moves -/

/-- `load_msg`. -/
theorem Placed.newMsg {σ : State} (h : Placed σ) {t : Tid} (a : SndArgs) {m : Msg}
    (pc : (σ.tasks t).pc.plain = true) (mid : m.mid = σ.nextMsg) :
    Placed ({ σ with nextMsg := σ.nextMsg + 1 }.setPc t (.sndLock a m)) := by
  have hd : ∀ m' q, ({ σ with nextMsg := σ.nextMsg + 1 }.setPc t (.sndLock a m)).At m' (.dying q) ↔
      σ.At m' (.dying q) := by
    refine at_dying_congr ?_
    intro u
    by_cases hu : u = t
    · subst hu
      rw [Pc.plain_freeing pc]
      simp [Pc.freeing]
    · simp [hu]
  refine h.load (t := t) mid ?_ ?_ rfl rfl
  · intro m' p hp
    cases p with
    | owner u =>
        by_cases hu : u = t
        · subst hu
          simp only [State.At, State.setPc_tasks, if_true, Pc.owned, Option.some.injEq] at hp
          exact .inl ⟨hp.symm, rfl⟩
        · simp only [State.At, State.setPc_tasks, if_neg hu] at hp
          exact .inr hp
    | receiver u =>
        by_cases hu : u = t
        · subst hu
          simp [State.At, Task.held] at hp
        · simp only [State.At, State.setPc_tasks, if_neg hu] at hp
          exact .inr hp
    | dying q => exact .inr ((hd m' q).mp hp)
    | queue q => exact .inr hp
    | returned u => exact .inr hp
    | purged => exact .inr hp
  · intro m' p hpast hp
    cases p with
    | owner u => cases hpast
    | receiver u =>
        have hu : u ≠ t := by
          rintro rfl
          rw [State.At, Task.held_plain pc] at hp
          cases hp
        simpa only [State.At, State.setPc_tasks, if_neg hu] using hp
    | dying q => exact (hd m' q).mpr hp
    | queue q => exact hp
    | returned u => exact hp
    | purged => exact hp

/-- Only the holder of the semaphore frees a queue. -/
theorem at_dying_iff {σ : State} (h : TableWf σ) {t : Tid} {q : QId} {l : List Msg}
    (pc : (σ.tasks t).pc = .ctlFree q l) (m : Msg) (p : QId) :
    σ.At m (.dying p) ↔ p = q ∧ m ∈ l := by
  constructor
  · rintro ⟨v, l', hv, hm⟩
    have hvt : v = t := h.sem_unique (by rw [hv]; rfl) (by rw [pc]; rfl)
    rw [hvt, pc] at hv
    cases hv
    exact ⟨rfl, hm⟩
  · rintro ⟨rfl, hm⟩
    exact ⟨t, l, pc, hm⟩

theorem not_at_dying {σ : State} (h : TableWf σ) {t : Tid} (hs : (σ.tasks t).pc.holdsSem = true)
    (hf : (σ.tasks t).pc.freeing = none) (m : Msg) (p : QId) : ¬ σ.At m (.dying p) := by
  rintro ⟨v, l, hv, _⟩
  have hvt : v = t := h.sem_unique (by rw [hv]; rfl) hs
  rw [← hvt, hv] at hf
  cases hf

/-- IPC_RMID: the messages of the queue are now for `freeque` to free. -/
theorem Placed.remove {σ : State} (h : Placed σ) (hw : Wf σ) {q : QId} {t : Tid} {msqid : Nat}
    {ids : IpcIds} {msq : MsgQueue} (pc : (σ.tasks t).pc.plain = true)
    (sem : (σ.tasks t).pc.holdsSem = true) (rmid : ipc_rmid σ.ids msqid = some (ids, q))
    (queue : σ.queues q = some msq) :
    Placed ((ss_wakeup true msq.q_senders (expunge_all .EIDRM msq.q_receivers
      { σ with ids := ids })).setPc t (.ctlFree q msq.q_messages)) := by
  obtain ⟨hentry, _⟩ := ipc_rmid_spec rmid
  have hlq : σ.Live q := ⟨_, hentry⟩
  have hgone := hw.tab.live_after_rmid rmid
  have htab := (Effect.remove q t msqid ids msq pc sem rmid queue).table hw.tab
  rw [expel_eq] at htab ⊢
  -- no task but `t` changes what it owns or holds
  have hown : ∀ v, v ≠ t → ((σ.tasks v).expelled (v ∈ msq.q_receivers) (v ∈ msq.q_senders)).held =
      (σ.tasks v).held := by
    intro v _
    by_cases hv : v ∈ msq.q_receivers
    · obtain ⟨a, ha⟩ := (hw.wait.rcv_linked q msq hlq queue v).mp hv
      rw [Task.held_linked ha]
      have hpc : ((σ.tasks v).expelled (v ∈ msq.q_receivers) (v ∈ msq.q_senders)).pc.rcvWaiting =
          some (a, q) := (Task.rcvLinked_some ha).1
      rw [Task.held_waiting hpc]
      simp [Task.expelled, hv, RMsg.toMsg]
    · simp [Task.held, Task.expelled, hv]
  generalize hσ' : State.setPc _ t (.ctlFree q msq.q_messages) = σ' at htab
  have hpc : (σ'.tasks t).pc = .ctlFree q msq.q_messages := by simp [← hσ']
  have hother : ∀ v, v ≠ t → σ'.tasks v =
      (σ.tasks v).expelled (v ∈ msq.q_receivers) (v ∈ msq.q_senders) := by
    intro v hv
    simp [← hσ', hv]
  have hlive : ∀ p, σ'.Live p ↔ σ.Live p ∧ p ≠ q := by
    intro p
    rw [← hσ']
    exact hgone p
  have hqueues : σ'.queues = σ.queues := by rw [← hσ']; rfl
  have hhist : σ'.hist = σ.hist := by rw [← hσ']; rfl
  have hnext : σ'.nextMsg = σ.nextMsg := by rw [← hσ']; rfl
  refine h.bury ?_ (fun m => not_at_dying hw.tab sem (Pc.plain_freeing pc) m q) ?_ ?_
    (by rw [hhist]) hnext
  · rintro m ⟨hl, _⟩
    exact ((hlive q).mp hl).2 rfl
  · intro m
    rw [at_dying_iff htab hpc]
    simp [State.At, hlq, queue]
  · intro m p hpq hpd
    cases p with
    | owner v =>
        by_cases hv : v = t
        · rw [hv, State.At, State.At, hpc, Pc.plain_owned pc]
          rfl
        · rw [State.At, State.At, hother v hv]
          rfl
    | receiver v =>
        by_cases hv : v = t
        · rw [hv, State.At, State.At, Task.held_plain pc, Task.held, hpc]
        · rw [State.At, State.At, hother v hv, hown v hv]
    | queue p =>
        have hp : p ≠ q := fun he => hpq (by rw [he])
        simp only [State.At, hlive, hqueues, ne_eq, hp, not_false_eq_true, and_true]
    | dying p =>
        have hp : p ≠ q := fun he => hpd (by rw [he])
        rw [at_dying_iff htab hpc]
        simp only [hp, false_and, false_iff]
        exact not_at_dying hw.tab sem (Pc.plain_freeing pc) m p
    | returned v => rw [State.At, State.At, hhist]
    | purged => rw [State.At, State.At, hhist]

/-- `newque`: no message is on the new queue. -/
theorem at_queue_create {σ σ' : State} (hw : Wf σ) {ids : IpcIds} {size id seq : Nat}
    {msq : MsgQueue} (hsize : size ≤ σ.ids.size)
    (hadd : ipc_addid σ.ids σ.hist.slots.length size = some (ids, id, seq))
    (hempty : msq.q_messages = []) (hids : σ'.ids = ids)
    (hq : σ'.queues = Function.update σ.queues σ.hist.slots.length (some msq)) (m : Msg)
    (p : QId) : σ'.At m (.queue p) ↔ σ.At m (.queue p) := by
  obtain ⟨_, hfree, _, _, _, _, hent⟩ := ipc_addid_spec hadd hsize
  constructor
  · rintro ⟨hl, msq', hp, hm⟩
    unfold State.Live at hl
    rw [hids] at hl
    rw [hq] at hp
    rcases hw.tab.create_live hsize hadd hl hp with ⟨_, rfl⟩ | ⟨hl, hp⟩
    · rw [hempty] at hm
      cases hm
    · exact ⟨hl, msq', hp, hm⟩
  · rintro ⟨hl, msq', hp, hm⟩
    have hne := hw.tab.live_ne_new hl
    obtain ⟨i, hi⟩ := hl
    refine ⟨⟨i, ?_⟩, msq', ?_, hm⟩
    · rw [hids, hent, if_neg]
      · exact hi
      · rintro rfl
        rw [hfree] at hi
        cases hi
    · rw [hq, Function.update_of_ne hne]
      exact hp

theorem messages_modQ {σ : State} {q : QId} {f : MsgQueue → MsgQueue} {msq : MsgQueue}
    (hq : σ.queues q = some msq) (p : QId) :
    ((σ.modQ q f).queues p).map (·.q_messages) =
      if p = q then some (f msq).q_messages else (σ.queues p).map (·.q_messages) := by
  rw [State.modQ_queues, hq]
  split <;> rfl

/-- The messages on live queues, when neither the table nor a list changes. -/
theorem at_queue_same {σ τ : State} (hids : τ.ids = σ.ids)
    (hq : ∀ q, (τ.queues q).map (·.q_messages) = (σ.queues q).map (·.q_messages)) (m : Msg)
    (q : QId) : τ.At m (.queue q) ↔ σ.At m (.queue q) := by
  refine at_queue_congr ?_ hq m q
  intro q
  unfold State.Live
  rw [hids]

/-- A sender hands its message to a receiver. -/
theorem Placed.handoff {σ : State} (h : Placed σ) (hw : Wf σ) {q : QId} {u t : Tid} {a : SndArgs}
    {m : Msg} {msq : MsgQueue} (pid now : Nat) (r : Option Ret)
    (pc : (σ.tasks t).pc = .sndLock a m) (live : σ.Live q) (queue : σ.queues q = some msq)
    (linked : u ∈ msq.q_receivers) :
    Placed ((((σ.modT u (·.notified (.msg m))).modQ q
      fun msq =>
        { msq with
          q_receivers := msq.q_receivers.erase u
          q_lrpid := pid
          q_rtime := now }).log
      fun h => { h with taken := h.taken ++ [(q, m)], sent := h.sent ++ [(q, m)] }).setPc t
        (.idle r)) := by
  obtain ⟨b, hb⟩ := (hw.wait.rcv_linked q msq live queue u).mp linked
  have hown : (σ.tasks t).pc.owned = some m := by rw [pc]; rfl
  have hut : u ≠ t := by
    rintro rfl
    simp [Task.rcvLinked, pc, Pc.rcvWaiting] at hb
  refine h.moveOne (.owner t) (.receiver u) hown rfl ?_ (sent_append rfl) rfl
  intro p
  cases p with
  | owner v =>
      by_cases hv : v = t
      · rw [hv]
        exact .owner_left rfl hown (by simp [Pc.owned])
      · refine .same (fun m' => ?_) (by simp [hv]) (by simp)
        by_cases hvu : v = u
        · simp [State.At, hvu, hut, Task.notified]
        · simp [State.At, hv, hvu]
  | receiver v =>
      by_cases hv : v = u
      · rw [hv]
        refine .receiver_arrived (by simp) (Task.held_linked hb) ?_
        simpa [hut, RMsg.toMsg] using Task.held_notified hb (.msg m)
      · refine .same (fun m' => ?_) (by simp) (by simp [hv])
        by_cases hvt : v = t
        · simp [State.At, hvt, Ne.symm hut, Task.held, pc]
        · simp [State.At, hv, hvt]
  | queue p =>
      refine .same (fun m' => at_queue_same ?_ ?_ m' p) (by simp) (by simp)
      · rfl
      · exact State.modQ_view _ _ q _ fun _ => rfl
  | dying p =>
      refine .same (fun m' => at_dying_congr (fun v => ?_) m' p) (by simp) (by simp)
      by_cases hvt : v = t
      · simp [hvt, pc, Pc.freeing]
      · by_cases hvu : v = u
        · simp [hvu, hut, Task.notified]
        · simp [hvt, hvu]
  | returned v => exact .same (fun m' => Iff.rfl) (by simp) (by simp)
  | purged => exact .same (fun m' => Iff.rfl) (by simp) (by simp)

/-- A sender enqueues its message. -/
theorem Placed.enqueue {σ : State} (h : Placed σ) {q : QId} {t : Tid} {a : SndArgs} {m : Msg}
    {msq : MsgQueue} (r : Option Ret) (pc : (σ.tasks t).pc = .sndLock a m) (live : σ.Live q)
    (queue : σ.queues q = some msq) :
    Placed (((Sysvmsg.enqueue σ q m).log
      fun h => { h with sent := h.sent ++ [(q, m)] }).setPc t (.idle r)) := by
  have hown : (σ.tasks t).pc.owned = some m := by rw [pc]; rfl
  refine h.moveOne (.owner t) (.queue q) hown rfl ?_ (sent_append rfl) rfl
  generalize hσ' : State.setPc _ t (.idle r) = σ'
  have hq : ∀ m' p, σ'.At m' (.queue p) ↔
      if p = q then m' ∈ msq.q_messages ++ [m] else σ.At m' (.queue p) := by
    subst hσ'
    exact at_queue_set q _ rfl live (messages_modQ queue)
  subst hσ'
  intro p
  cases p with
  | owner v =>
      by_cases hv : v = t
      · rw [hv]
        exact .owner_left rfl hown (by simp [Pc.owned])
      · refine .same (fun m' => ?_) (by simp [hv]) (by simp)
        simp [State.At, hv, Sysvmsg.enqueue]
  | receiver v =>
      refine .same (fun m' => ?_) (by simp) (by simp)
      by_cases hvt : v = t
      · simp [State.At, hvt, Task.held, pc]
      · simp [State.At, hvt, Sysvmsg.enqueue]
  | queue p =>
      by_cases hp : p = q
      · subst hp
        refine .arrived (by simp) fun m' => ?_
        rw [hq, if_pos rfl]
        simp [State.At, live, queue]
      · refine .same (fun m' => ?_) (by simp) (by simp [hp])
        rw [hq, if_neg hp]
  | dying p =>
      refine .same (fun m' => at_dying_congr (fun v => ?_) m' p) (by simp) (by simp)
      by_cases hvt : v = t
      · simp [hvt, pc, Pc.freeing]
      · simp [hvt, Sysvmsg.enqueue]
  | returned v => exact .same (fun m' => Iff.rfl) (by simp) (by simp)
  | purged => exact .same (fun m' => Iff.rfl) (by simp) (by simp)

/-- A receiver takes a message off the queue. -/
theorem Placed.dequeue {σ : State} (h : Placed σ) (hn : Tidy σ) {q : QId} {t : Tid} {a : RcvArgs}
    {m : Msg} {msq : MsgQueue} (pid now : Nat) (pc : (σ.tasks t).pc = .rcvLock a)
    (live : σ.Live q) (queue : σ.queues q = some msq)
    (found : scan a.mode a.msgtyp none msq.q_messages = some m) :
    Placed (({ σ.modQ q fun msq =>
      { msq with
        q_messages := msq.q_messages.erase m
        q_qnum := msq.q_qnum - 1
        q_rtime := now
        q_lrpid := pid
        q_cbytes := msq.q_cbytes - m.m_ts } with
      msg_bytes := σ.msg_bytes - m.m_ts, msg_hdrs := σ.msg_hdrs - 1 }.log
      fun h => { h with taken := h.taken ++ [(q, m)] }).setPc t (.rcvCopy a m)) := by
  have hat : σ.At m (.queue q) := ⟨live, msq, queue, scan_mem found⟩
  have hheld : (σ.tasks t).held = none := Task.held_plain (by rw [pc]; rfl)
  refine h.moveOne (.queue q) (.receiver t) hat rfl ?_ (h.sent_old hat rfl rfl) rfl
  generalize hσ' : State.setPc _ t (.rcvCopy a m) = σ'
  have hq : ∀ m' p, σ'.At m' (.queue p) ↔
      if p = q then m' ∈ msq.q_messages.erase m else σ.At m' (.queue p) := by
    subst hσ'
    exact at_queue_set q _ rfl live (messages_modQ queue)
  subst hσ'
  intro p
  cases p with
  | owner v =>
      refine .same (fun m' => ?_) (by simp) (by simp)
      by_cases hvt : v = t
      · simp [State.At, hvt, Pc.owned, pc]
      · simp [State.At, hvt]
  | receiver v =>
      by_cases hv : v = t
      · rw [hv]
        exact .receiver_arrived (by simp) hheld (by simp [Task.held])
      · refine .same (fun m' => ?_) (by simp) (by simp [hv])
        simp [State.At, hv]
  | queue p =>
      by_cases hp : p = q
      · subst hp
        refine .left (by simp) fun m' => ?_
        rw [hq, if_pos rfl, (hn.queue p msq live queue).mem_erase_iff]
        simp [State.At, live, queue, and_comm]
      · refine .same (fun m' => ?_) (by simp [hp]) (by simp)
        rw [hq, if_neg hp]
  | dying p =>
      refine .same (fun m' => at_dying_congr (fun v => ?_) m' p) (by simp) (by simp)
      by_cases hvt : v = t
      · simp [hvt, pc, Pc.freeing]
      · simp [hvt]
  | returned v => exact .same (fun m' => Iff.rfl) (by simp) (by simp)
  | purged => exact .same (fun m' => Iff.rfl) (by simp) (by simp)

/-- `freeque` frees a message. -/
theorem Placed.purge {σ : State} (h : Placed σ) (hw : Wf σ) (hn : Tidy σ) {q : QId} {t : Tid}
    {m : Msg} {rest : List Msg} (pc : (σ.tasks t).pc = .ctlFree q (m :: rest)) :
    Placed (freeStep σ t q (m :: rest)) := by
  have hnd := hn.dying t q (m :: rest) pc
  have hat : σ.At m (.dying q) := ⟨t, m :: rest, pc, List.mem_cons_self⟩
  have htab := (Effect.purge q t m rest pc).table hw.tab
  refine h.moveOne (.dying q) .purged hat rfl ?_ (h.sent_old hat rfl rfl) rfl
  intro p
  cases p with
  | owner v =>
      refine .same (fun m' => ?_) (by simp) (by simp)
      by_cases hvt : v = t
      · simp [State.At, hvt, Pc.owned, pc, freeStep]
      · simp [State.At, hvt, freeStep]
  | receiver v =>
      refine .same (fun m' => ?_) (by simp) (by simp)
      by_cases hvt : v = t
      · simp [State.At, hvt, Task.held, pc, freeStep]
      · simp [State.At, hvt, freeStep]
  | queue p => exact .same (fun m' => Iff.rfl) (by simp) (by simp)
  | dying p =>
      have hpc' : ((freeStep σ t q (m :: rest)).tasks t).pc = .ctlFree q rest := by
        simp [freeStep]
      have hold := fun m' => at_dying_iff hw.tab pc m' p
      have hnew := fun m' => at_dying_iff htab hpc' m' p
      by_cases hp : p = q
      · subst hp
        refine .left (by simp) fun m' => ?_
        rw [hold, hnew]
        have hm : m ∉ rest := (List.nodup_cons.mp hnd).1
        simp only [true_and, List.mem_cons]
        constructor
        · intro hr
          exact ⟨.inr hr, fun he => hm (he ▸ hr)⟩
        · rintro ⟨rfl | hr, hne⟩
          · exact absurd rfl hne
          · exact hr
      · refine .same (fun m' => ?_) (by simp [hp]) (by simp)
        rw [hold, hnew]
        simp [hp]
  | returned v => exact .same (fun m' => Iff.rfl) (by simp) (by simp)
  | purged =>
      refine .arrived (by simp) fun m' => ?_
      simp [State.At, freeStep]

/-- A receiver returns with its message. -/
theorem Placed.handed {σ : State} (h : Placed σ) {t : Tid} (e : Env) {a : RcvArgs} {m : Msg}
    (pc : (σ.tasks t).pc = .rcvCopy a m) : Placed (copyOut σ t e a m) := by
  have hheld : (σ.tasks t).held = some m := by simp [Task.held, pc]
  have hat : σ.At m (.receiver t) := hheld
  refine h.moveOne (.receiver t) (.returned t) hat rfl ?_ (h.sent_old hat rfl rfl) rfl
  intro p
  cases p with
  | owner v =>
      refine .same (fun m' => ?_) (by simp) (by simp)
      by_cases hvt : v = t
      · simp [State.At, hvt, Pc.owned, pc, copyOut]
      · simp [State.At, hvt, copyOut]
  | receiver v =>
      by_cases hvt : v = t
      · rw [hvt]
        exact .receiver_left (by simp) hheld (by simp [Task.held, copyOut])
      · refine .same (fun m' => ?_) (by simp [hvt]) (by simp)
        simp [State.At, hvt, copyOut]
  | queue p => exact .same (fun m' => Iff.rfl) (by simp) (by simp)
  | dying p =>
      refine .same (fun m' => at_dying_congr (fun v => ?_) m' p) (by simp) (by simp)
      by_cases hvt : v = t
      · simp [hvt, pc, Pc.freeing, copyOut]
      · simp [hvt, copyOut]
  | returned v =>
      by_cases hvt : v = t
      · rw [hvt]
        refine .arrived (by simp) fun m' => ?_
        simp [State.At, copyOut]
      · refine .same (fun m' => ?_) (by simp) (by simp [hvt])
        simp [State.At, hvt, copyOut]
  | purged => exact .same (fun m' => Iff.rfl) (by simp) (by simp)

theorem Effect.placed {σ σ' : State} (hw : Wf σ) (hn : Tidy σ) (h : Placed σ)
    (e : Effect σ σ') : Placed σ' := by
  cases e with
  | quiet t pc _ _ _ owned held _ free _ =>
      refine h.frameOne t ?_ ?_ ?_ (at_queue_same rfl fun _ => rfl) rfl rfl rfl rfl
      · intro u hu
        simp [hu]
      · rw [State.setPc_tasks, if_pos rfl]
        exact ⟨held, owned⟩
      · rw [State.setPc_tasks, if_pos rfl]
        exact free
  | touch t f pc msr _ _ =>
      refine h.frameOne t ?_ ?_ ?_ (at_queue_same rfl fun _ => rfl) rfl rfl rfl rfl
      · intro u hu
        simp [hu]
      · rw [State.modT_tasks, if_pos rfl]
        refine ⟨?_, .inr (by rw [pc])⟩
        unfold Task.held
        rw [pc, msr]
      · rw [State.modT_tasks, if_pos rfl, pc]
  | newMsg t a m pc _ mid => exact h.newMsg a pc mid
  | freeMsg l =>
      exact h.frame (fun _ => .refl _) (at_queue_same rfl fun _ => rfl) (fun _ _ => Iff.rfl) rfl rfl
        rfl rfl
  | down t pc _ old new =>
      refine h.frameEmpty t ?_ (Task.plain_held old) (Task.plain_held ?_) (.inl ?_)
        (at_queue_same rfl fun _ => rfl) rfl rfl rfl rfl
      · intro u hu
        simp [hu]
      · simpa using new
      · simpa using Pc.plain_owned new
  | up t pc _ old new =>
      refine h.frameEmpty t ?_ (Task.plain_held old) (Task.plain_held ?_) (.inl ?_)
        (at_queue_same rfl fun _ => rfl) rfl rfl rfl rfl
      · intro u hu
        simp [hu]
      · simpa using new
      · simpa using Pc.plain_owned new
  | linkSnd q t a m msq pc =>
      have hown : (σ.tasks t).pc.owned = some m := by rw [pc]; rfl
      refine h.frameEmpty t ?_ (Task.sender_held hown) (Task.sender_held (m := m) ?_) (.inr ?_)
        (at_queue_same rfl (State.modQ_view _ _ q _ fun _ => rfl)) rfl rfl rfl rfl
      · intro u hu
        simp [ss_add, hu]
      · simp [Pc.owned]
      · rw [hown]
        simp [Pc.owned]
  | unlinkSnd q t a m pc =>
      have hown : (σ.tasks t).pc.owned = some m := by rw [pc]; rfl
      refine h.frameEmpty t ?_ (Task.sender_held hown) (Task.sender_held (m := m) ?_) (.inr ?_)
        (at_queue_same rfl (State.modQ_view _ _ q _ fun _ => rfl)) rfl rfl rfl rfl
      · intro u hu
        simp [hu]
      · simp [Pc.owned]
      · rw [hown]
        simp [Pc.owned]
  | linkRcv q t a msq pc =>
      refine h.frameEmpty t ?_ (Task.plain_held (by rw [pc]; rfl)) ?_ (.inl ?_)
        (at_queue_same rfl (State.modQ_view _ _ q _ fun _ => rfl)) rfl rfl rfl rfl
      · intro u hu
        simp [rcvLink, hu]
      · simp [rcvLink, Task.held, RMsg.toMsg, Pc.freeing]
      · simp [Pc.owned]
  | unlinkRcv q t a pc again =>
      have hlink : (σ.tasks t).rcvLinked = some (a, q) := by
        simp [Task.rcvLinked, again, pc, Pc.rcvWaiting]
      refine h.frameEmpty t ?_ ⟨Task.held_linked hlink, by rw [pc]; rfl⟩ (Task.plain_held ?_) (.inl ?_)
        (at_queue_same rfl (State.modQ_view _ _ q _ fun _ => rfl)) rfl rfl rfl rfl
      · intro u hu
        simp [r_list_del, hu]
      · simp [Pc.plain]
      · simp [Pc.owned]
  | tooBig q u msq live queue linked =>
      obtain ⟨a, ha⟩ := (hw.wait.rcv_linked q msq live queue u).mp linked
      refine h.frameOne u ?_ ⟨?_, .inr ?_⟩ ?_
        (at_queue_same rfl (State.modQ_view _ _ q _ fun _ => rfl)) rfl rfl rfl rfl
      · intro v hv
        simp [hv]
      · rw [Task.held_linked ha]
        simpa [RMsg.toMsg] using Task.held_notified ha (.err .E2BIG)
      · simp [Task.notified]
      · simp [Task.notified]
  | handoff q u t a m msq pid now r pc live queue linked _ =>
      exact h.handoff hw pid now r pc live queue linked
  | enqueue q t a m msq r pc live queue _ => exact h.enqueue r pc live queue
  | stamp q _ _ _ _ =>
      exact h.frame (fun _ => .refl _) (at_queue_same rfl (State.modQ_view _ σ q _ fun _ => rfl))
        (fun _ _ => Iff.rfl) rfl rfl rfl rfl
  | dequeue q t a m msq pid now pc live queue found _ =>
      exact h.dequeue hn pid now pc live queue found
  | setq q msq b mode now =>
      exact h.frame (fun _ => .refl _) (at_queue_same rfl (State.modQ_view _ σ q _ fun _ => rfl))
        (fun _ _ => Iff.rfl) rfl rfl rfl rfl
  | remove q t msqid ids msq pc sem rmid queue =>
      exact h.remove hw pc sem rmid queue
  | purge q t m rest pc => exact h.purge hw hn pc
  | release q t msq pc queue =>
      have htab := (Effect.release q t msq pc queue).table hw.tab
      have hdead := (hw.tab.freeing t q [] pc).1
      simp only [freeStep, queue] at htab ⊢
      refine h.frame ?_ ?_ ?_ rfl rfl rfl rfl
      · intro v
        by_cases hvt : v = t
        · rw [hvt]
          exact ⟨by simp [Task.held, pc], .inl (by simp [Pc.owned])⟩
        · simpa [hvt] using Task.Keeps.refl (σ.tasks v)
      · intro m p
        by_cases hp : p = q
        · subst hp
          exact ⟨fun hl => absurd hl.1 hdead, fun hl => absurd hl.1 hdead⟩
        · simp [State.At, State.Live, hp]
      · intro m p
        rw [at_dying_iff hw.tab pc]
        simp only [List.not_mem_nil, and_false, iff_false]
        exact not_at_dying htab (t := t) (by simp [Pc.holdsSem]) (by simp [Pc.freeing]) m p
  | create t e key msgflg size ids id seq pc add =>
      refine h.frameEmpty t ?_ (Task.plain_held (by rw [pc]; rfl)) (Task.plain_held ?_) (.inl ?_)
        (at_queue_create hw (hw.tab.add_size pc) add rfl rfl rfl) rfl rfl rfl rfl
      · intro u hu
        simp [hu]
      · simp [Pc.plain]
      · simp [Pc.owned]
  | grow t key msgflg alloc pc =>
      refine h.frameEmpty t ?_ (Task.plain_held (by rw [pc]; rfl)) (Task.plain_held ?_) (.inl ?_)
        (at_queue_congr ?_ fun _ => rfl) rfl rfl rfl rfl
      · intro u hu
        simp [hu]
      · simp [Pc.plain]
      · simp [Pc.owned]
      · intro p
        simp only [State.Live, State.setPc_ids, (grow_ary_spec σ.ids MSGMNI alloc).1]
  | handed t e a m pc => exact h.handed e pc

/-! ## No list holds a message twice -/

/-- The messages on the queue are the same. -/
def MsgQueue.SameMessages (msq msq' : MsgQueue) : Prop := msq'.q_messages = msq.q_messages

theorem Tidy.queueFrame {σ σ' : State} (h : Tidy σ) (hlive : ∀ q, σ'.Live q → σ.Live q)
    (hq : State.QRel MsgQueue.SameMessages σ σ') (q : QId) (msq' : MsgQueue) (hl : σ'.Live q)
    (hq' : σ'.queues q = some msq') : msq'.q_messages.Nodup := by
  obtain ⟨msq, hmsq, he⟩ := hq q msq' hq'
  rw [he]
  exact h.queue q msq (hlive q hl) hmsq

theorem Tidy.dyingFrame {σ σ' : State} (h : Tidy σ)
    (hf : ∀ t, (σ'.tasks t).pc.freeing = (σ.tasks t).pc.freeing ∨
      (σ'.tasks t).pc.freeing = none) (t : Tid) (q : QId) (rest : List Msg)
    (hpc : (σ'.tasks t).pc = .ctlFree q rest) : rest.Nodup := by
  rw [← Pc.freeing_eq_some] at hpc
  rcases hf t with hf | hf
  · rw [hf, Pc.freeing_eq_some] at hpc
    exact h.dying t q rest hpc
  · rw [hf] at hpc
    cases hpc

theorem Tidy.frame {σ σ' : State} (h : Tidy σ) (hlive : ∀ q, σ'.Live q → σ.Live q)
    (hq : State.QRel MsgQueue.SameMessages σ σ')
    (hf : ∀ t, (σ'.tasks t).pc.freeing = (σ.tasks t).pc.freeing ∨
      (σ'.tasks t).pc.freeing = none)
    (hhanded : σ'.hist.handed = σ.hist.handed) (hpurged : σ'.hist.purged = σ.hist.purged)
    (hsent : σ'.hist.sent = σ.hist.sent) : Tidy σ' :=
  ⟨h.queueFrame hlive hq, h.dyingFrame hf, by rw [hhanded]; exact h.handed,
    by rw [hpurged]; exact h.purged, by rw [hsent]; exact h.sent⟩

/-- One task changes, and it frees no queue, before or after. -/
theorem freeing_other {σ σ' : State} (t : Tid) (hother : ∀ u, u ≠ t → σ'.tasks u = σ.tasks u)
    (ht : (σ'.tasks t).pc.freeing = none) (u : Tid) :
    (σ'.tasks u).pc.freeing = (σ.tasks u).pc.freeing ∨ (σ'.tasks u).pc.freeing = none := by
  by_cases hu : u = t
  · rw [hu]
    exact .inr ht
  · rw [hother u hu]
    exact .inl rfl

/-- A message still with its sender is on no other list. -/
theorem Placed.owner_not_sent {σ : State} (h : Placed σ) {t : Tid} {m : Msg}
    (hown : (σ.tasks t).pc.owned = some m) : m ∉ σ.hist.sent.map Prod.snd := by
  intro hm
  obtain ⟨⟨q, m'⟩, hin, rfl⟩ := List.mem_map.mp hm
  obtain ⟨p, hpast, hp⟩ := (h.sent m').mp ⟨q, hin⟩
  have hat : σ.At m' (.owner t) := hown
  rw [h.unique m' p _ hp hat] at hpast
  cases hpast

theorem Effect.tidy {σ σ' : State} (hw : Wf σ) (hp : Placed σ) (h : Tidy σ) (e : Effect σ σ') :
    Tidy σ' := by
  have hrefl : ∀ msq : MsgQueue, msq.SameMessages msq := fun _ => rfl
  cases e with
  | quiet t pc _ _ _ _ _ _ free _ =>
      refine h.frame (fun _ => id) (.of_eq hrefl rfl) (fun u => .inl ?_) rfl rfl rfl
      by_cases hu : u = t
      · simpa [hu] using free
      · simp [hu]
  | touch t f pc _ _ _ =>
      refine h.frame (fun _ => id) (.of_eq hrefl rfl) (fun u => .inl ?_) rfl rfl rfl
      by_cases hu : u = t
      · simp [hu, pc]
      · simp [hu]
  | newMsg t a m pc _ _ =>
      refine h.frame (fun _ => id) (.of_eq hrefl rfl) (freeing_other t ?_ ?_) rfl rfl rfl
      · intro u hu
        simp [hu]
      · simp [Pc.freeing]
  | freeMsg l => exact h.frame (fun _ => id) (.of_eq hrefl rfl) (fun _ => .inl rfl) rfl rfl rfl
  | down t pc _ _ new =>
      refine h.frame (fun _ => id) (.of_eq hrefl rfl) (freeing_other t ?_ ?_) rfl rfl rfl
      · intro u hu
        simp [hu]
      · simpa using Pc.plain_freeing new
  | up t pc _ _ new =>
      refine h.frame (fun _ => id) (.of_eq hrefl rfl) (freeing_other t ?_ ?_) rfl rfl rfl
      · intro u hu
        simp [hu]
      · simpa using Pc.plain_freeing new
  | linkSnd q t a m msq =>
      refine h.frame (fun _ => id) (.modQ hrefl rfl fun _ _ => rfl) (freeing_other t ?_ ?_) rfl rfl rfl
      · intro u hu
        simp [ss_add, hu]
      · simp [Pc.freeing]
  | unlinkSnd q t a m =>
      refine h.frame (fun _ => id) (.modQ hrefl rfl fun _ _ => rfl) (freeing_other t ?_ ?_) rfl rfl rfl
      · intro u hu
        simp [hu]
      · simp [Pc.freeing]
  | linkRcv q t a msq =>
      refine h.frame (fun _ => id) (.modQ hrefl rfl fun _ _ => rfl) (freeing_other t ?_ ?_) rfl rfl rfl
      · intro u hu
        simp [rcvLink, hu]
      · simp [Pc.freeing]
  | unlinkRcv q t a =>
      refine h.frame (fun _ => id) (.modQ hrefl rfl fun _ _ => rfl) (freeing_other t ?_ ?_) rfl rfl rfl
      · intro u hu
        simp [r_list_del, hu]
      · simp [Pc.freeing]
  | tooBig q u msq =>
      refine h.frame (fun _ => id) (.modQ hrefl rfl fun _ _ => rfl) (fun v => .inl ?_) rfl rfl rfl
      by_cases hv : v = u
      · simp [hv, Task.notified]
      · simp [hv]
  | handoff q u t a m msq pid now r pc =>
      have hnew : m ∉ σ.hist.sent.map Prod.snd := hp.owner_not_sent (t := t) (by rw [pc]; rfl)
      refine ⟨h.queueFrame (fun _ => id) (.modQ hrefl rfl fun _ _ => rfl),
        h.dyingFrame fun v => ?_, h.handed, h.purged, ?_⟩
      · by_cases hvt : v = t
        · simp [hvt, Pc.freeing]
        · by_cases hv : v = u
          · subst hv
            simp [hvt, Task.notified]
          · simp [hvt, hv]
      · simpa using List.Nodup.concat hnew h.sent
  | enqueue q t a m msq r pc live queue =>
      have hown : (σ.tasks t).pc.owned = some m := by rw [pc]; rfl
      have hnew := hp.owner_not_sent hown
      -- the message is with its sender, so not on the queue
      have hout : m ∉ msq.q_messages := by
        intro hm
        have hat : σ.At m (.queue q) := ⟨live, msq, queue, hm⟩
        have := hp.unique m (.owner t) _ hown hat
        cases this
      refine ⟨?_, h.dyingFrame (freeing_other t ?_ ?_), h.handed, h.purged, ?_⟩
      · intro p msq' hl hp'
        change (σ.modQ q _).queues p = some msq' at hp'
        rw [State.modQ_queues] at hp'
        split at hp'
        · rw [queue, Option.map_some, Option.some.injEq] at hp'
          rw [← hp']
          simpa using List.Nodup.concat hout (h.queue q msq live queue)
        · exact h.queue p msq' hl hp'
      · intro u hu
        simp [hu, Sysvmsg.enqueue]
      · simp [Pc.freeing]
      · simpa [Sysvmsg.enqueue] using List.Nodup.concat hnew h.sent
  | stamp q _ _ _ _ =>
      exact h.frame (fun _ => id) (.modQ hrefl rfl fun _ _ => rfl) (fun _ => .inl rfl) rfl rfl rfl
  | dequeue q t a m msq pid now pc live queue =>
      refine ⟨?_, h.dyingFrame (freeing_other t ?_ ?_), h.handed, h.purged, h.sent⟩
      · intro p msq' hl hp'
        change (σ.modQ q _).queues p = some msq' at hp'
        rw [State.modQ_queues] at hp'
        split at hp'
        · rw [queue, Option.map_some, Option.some.injEq] at hp'
          rw [← hp']
          exact (h.queue q msq live queue).erase m
        · exact h.queue p msq' hl hp'
      · intro u hu
        simp [hu]
      · simp [Pc.freeing]
  | setq q msq b mode now =>
      exact h.frame (fun _ => id) (.modQ hrefl rfl fun _ _ => rfl) (fun _ => .inl rfl) rfl rfl rfl
  | remove q t msqid ids msq pc _ rmid queue =>
      obtain ⟨hentry, _⟩ := ipc_rmid_spec rmid
      rw [expel_eq]
      refine ⟨h.queueFrame ?_ (.of_eq hrefl rfl), ?_, h.handed, h.purged, h.sent⟩
      · exact fun p hp => live_of_rmid rmid hp
      · intro u p rest hu
        by_cases hut : u = t
        · rw [hut, State.setPc_tasks, if_pos rfl] at hu
          cases hu
          exact h.queue q msq ⟨_, hentry⟩ queue
        · rw [State.setPc_tasks, if_neg hut] at hu
          exact h.dying u p rest hu
  | purge q t m rest pc =>
      have hnd := h.dying t q (m :: rest) pc
      have hout : m ∉ σ.hist.purged := by
        intro hm
        have hat : σ.At m (.dying q) := ⟨t, m :: rest, pc, List.mem_cons_self⟩
        have hat' : σ.At m .purged := hm
        have := hp.unique m _ _ hat hat'
        cases this
      refine ⟨h.queue, ?_, h.handed, by simpa [freeStep] using List.Nodup.concat hout h.purged, h.sent⟩
      intro u p l hu
      by_cases hut : u = t
      · subst hut
        simp only [freeStep, State.setPc_tasks, if_true, Pc.ctlFree.injEq] at hu
        rw [← hu.2]
        exact (List.nodup_cons.mp hnd).2
      · simp only [freeStep, State.setPc_tasks, if_neg hut] at hu
        exact h.dying u p l hu
  | release q t msq pc queue =>
      simp only [freeStep, queue]
      refine h.frame (fun _ => id) (.free hrefl rfl) (freeing_other t ?_ ?_) rfl rfl rfl
      · intro u hu
        simp [hu]
      · simp [Pc.freeing]
  | create t e key msgflg size ids id seq pc add =>
      refine ⟨?_, h.dyingFrame (freeing_other t ?_ ?_), h.handed, h.purged, h.sent⟩
      · intro p msq' hl hp'
        rcases hw.tab.create_live (hw.tab.add_size pc) add hl hp' with ⟨_, rfl⟩ | ⟨hl, hp'⟩
        · exact List.nodup_nil
        · exact h.queue p msq' hl hp'
      · intro u hu
        simp [hu]
      · simp [Pc.freeing]
  | grow t key msgflg alloc pc =>
      refine h.frame ?_ (.of_eq hrefl rfl) (freeing_other t ?_ ?_) rfl rfl rfl
      · rintro p ⟨i, hi⟩
        exact ⟨i, by rw [← (grow_ary_spec σ.ids MSGMNI alloc).1]; exact hi⟩
      · intro u hu
        simp [hu]
      · simp [Pc.freeing]
  | handed t e a m pc =>
      -- the receiver has it, so nobody has returned with it
      have hout : m ∉ σ.hist.handed.map Prod.snd := by
        intro hm
        obtain ⟨⟨u, m'⟩, hin, rfl⟩ := List.mem_map.mp hm
        have hat : σ.At m' (.receiver t) := by simp [State.At, Task.held, pc]
        have hat' : σ.At m' (.returned u) := hin
        have := hp.unique m' _ _ hat hat'
        cases this
      refine ⟨h.queue, h.dyingFrame (freeing_other t ?_ ?_), ?_, h.purged, h.sent⟩
      · intro u hu
        simp [hu, copyOut]
      · simp [Pc.freeing, copyOut]
      · simpa [copyOut] using List.Nodup.concat hout h.handed

/-- The messages of every reachable state are in one place each. -/
theorem placed_invariant (P : Params) : (machine P).Invariant fun σ => Placed σ ∧ Tidy σ := by
  refine invariant_of_effects P ?_ ?_
  · intro cred
    have hno : ∀ m p, ¬ (initState P cred).At m p := by
      intro m p hp
      cases p with
      | queue q =>
          obtain ⟨_, msq, hq, _⟩ := hp
          cases hq
      | dying q =>
          obtain ⟨t, rest, ht, _⟩ := hp
          cases ht
      | _ => cases hp
    refine ⟨⟨?_, ?_, ?_⟩, ?_, ?_, List.nodup_nil, List.nodup_nil, List.nodup_nil⟩
    · exact fun m p hp => absurd hp (hno m p)
    · exact fun m p _ hp => absurd hp (hno m p)
    · intro m
      constructor
      · rintro ⟨q, hq⟩
        cases hq
      · rintro ⟨p, _, hp⟩
        exact absurd hp (hno m p)
    · intro q msq _ hq
      cases hq
    · intro t q rest ht
      cases ht
  · rintro σ σ' hw ⟨hp, ht⟩ e
    exact ⟨e.placed hw ht hp, e.tidy hw hp ht⟩

end RtaiDemos.Sysvmsg
