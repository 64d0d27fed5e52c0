import Mathlib.Algebra.BigOperators.Intervals
import RtaiDemos.Sysvmsg.Theorems.Delivery

/-!
# Accounting

`q_cbytes` and `q_qnum` count the messages on their queue, `msg_bytes` and
`msg_hdrs` those on all queues that are allocated. A queue in the hands of
`freeque` is still allocated: it counts with its `q_cbytes`, and with the
messages that are yet to be freed.
-/

namespace RtaiDemos.Sysvmsg

/-- The bytes on a list of messages. -/
def bytesOf (msgs : List Msg) : Int := (msgs.map fun m => (m.m_ts : Int)).sum

namespace State

/-- `q_cbytes` of a queue, 0 if it is not allocated. -/
def cbytesAt (σ : State) (q : QId) : Int := ((σ.queues q).map (·.q_cbytes)).getD 0

/-- `q_qnum` of a queue, 0 if it is not allocated. -/
def qnumAt (σ : State) (q : QId) : Int := ((σ.queues q).map (·.q_qnum)).getD 0

/-- The queue that `freeque` is working off, with the messages left. -/
def dyingQueue (σ : State) : Option (QId × List Msg) :=
  σ.sem.bind fun t => (σ.tasks t).pc.freeing

/-- The messages of a queue that are not freed yet. -/
def unfreedAt (σ : State) (q : QId) : Int :=
  match σ.dyingQueue with
  | some (p, rest) => if q = p then rest.length else σ.qnumAt q
  | none => σ.qnumAt q

/-- Sum over all queues ever created. -/
def total (σ : State) (w : QId → Int) : Int := ∑ q ∈ Finset.range σ.hist.slots.length, w q

end State

/-- The counters tell the truth. -/
structure Accounts (σ : State) : Prop where
  queue : ∀ q msq, σ.queues q = some msq →
    msq.q_cbytes = bytesOf msq.q_messages ∧ msq.q_qnum = msq.q_messages.length
  bytes : σ.msg_bytes = σ.total σ.cbytesAt
  hdrs : σ.msg_hdrs = σ.total σ.unfreedAt

/-! ## Sums -/

/-- Changing one summand. -/
theorem sum_change {n q : Nat} {v w : Nat → Int} (hq : q < n)
    (hother : ∀ p, p ≠ q → v p = w p) :
    ∑ p ∈ Finset.range n, v p = ∑ p ∈ Finset.range n, w p + (v q - w q) := by
  have hmem : q ∈ Finset.range n := Finset.mem_range.mpr hq
  rw [← Finset.add_sum_erase _ v hmem, ← Finset.add_sum_erase _ w hmem]
  have hrest : ∑ p ∈ (Finset.range n).erase q, v p = ∑ p ∈ (Finset.range n).erase q, w p := by
    refine Finset.sum_congr rfl ?_
    intro p hp
    exact hother p (Finset.ne_of_mem_erase hp)
  rw [hrest]
  omega

/-- A new last summand that is zero. -/
theorem sum_extend {n : Nat} {v w : Nat → Int} (h : ∀ p, p < n → v p = w p) (hn : v n = 0) :
    ∑ p ∈ Finset.range (n + 1), v p = ∑ p ∈ Finset.range n, w p := by
  rw [Finset.sum_range_succ, hn, add_zero]
  exact Finset.sum_congr rfl fun p hp => h p (Finset.mem_range.mp hp)

theorem cbytesAt_none {σ : State} {q : QId} (h : σ.queues q = none) : σ.cbytesAt q = 0 := by
  simp [State.cbytesAt, h]

theorem bytesOf_append (msgs : List Msg) (m : Msg) :
    bytesOf (msgs ++ [m]) = bytesOf msgs + m.m_ts := by
  simp [bytesOf]

theorem bytesOf_erase {msgs : List Msg} {m : Msg} (h : m ∈ msgs) :
    bytesOf (msgs.erase m) = bytesOf msgs - m.m_ts := by
  have hperm := List.perm_cons_erase h
  have : bytesOf msgs = bytesOf (m :: msgs.erase m) := (hperm.map _).sum_eq
  rw [this]
  simp [bytesOf]

/-! ## The queue in the hands of `freeque` -/

theorem dyingQueue_eq_some {σ : State} (h : TableWf σ) (q : QId) (rest : List Msg) :
    σ.dyingQueue = some (q, rest) ↔ ∃ t, (σ.tasks t).pc.freeing = some (q, rest) := by
  unfold State.dyingQueue
  constructor
  · intro hd
    obtain ⟨t, _, ht⟩ := Option.bind_eq_some_iff.mp hd
    exact ⟨t, ht⟩
  · rintro ⟨t, ht⟩
    have hs : σ.sem = some t := by
      refine (h.sem t).mp ?_
      rw [Pc.freeing_eq_some.mp ht]
      rfl
    rw [hs]
    exact ht

theorem dyingQueue_congr {σ σ' : State} (h : TableWf σ) (h' : TableWf σ')
    (hf : ∀ t, (σ'.tasks t).pc.freeing = (σ.tasks t).pc.freeing) :
    σ'.dyingQueue = σ.dyingQueue := by
  refine Option.ext fun x => ?_
  obtain ⟨q, rest⟩ := x
  show σ'.dyingQueue = some (q, rest) ↔ σ.dyingQueue = some (q, rest)
  rw [dyingQueue_eq_some h, dyingQueue_eq_some h']
  simp only [hf]

theorem dyingQueue_none {σ : State} (h : TableWf σ) {t : Tid}
    (hs : (σ.tasks t).pc.holdsSem = true) (hf : (σ.tasks t).pc.freeing = none) :
    σ.dyingQueue = none := by
  unfold State.dyingQueue
  rw [(h.sem t).mp hs]
  exact hf

/-- A live queue is not the one being freed. -/
theorem unfreedAt_live {σ : State} (h : TableWf σ) {q : QId} (hq : σ.Live q) :
    σ.unfreedAt q = σ.qnumAt q := by
  unfold State.unfreedAt
  split
  · rename_i p rest hd
    obtain ⟨t, ht⟩ := (dyingQueue_eq_some h _ _).mp hd
    have hdead := (h.freeing t p rest (Pc.freeing_eq_some.mp ht)).1
    rw [if_neg]
    rintro rfl
    exact hdead hq
  · rfl

/-! ## Effects -/

/-- What `Accounts` reads of a queue. -/
def MsgQueue.ledger (msq : MsgQueue) : List Msg × Int × Int :=
  (msq.q_messages, msq.q_cbytes, msq.q_qnum)

theorem cbytesAt_ledger {σ σ' : State} {q : QId}
    (h : (σ'.queues q).map MsgQueue.ledger = (σ.queues q).map MsgQueue.ledger) :
    σ'.cbytesAt q = σ.cbytesAt q := by
  have := congrArg (Option.map fun l : List Msg × Int × Int => l.2.1) h
  unfold State.cbytesAt
  simp only [Option.map_map] at this
  exact congrArg (Option.getD · 0) this

theorem qnumAt_ledger {σ σ' : State} {q : QId}
    (h : (σ'.queues q).map MsgQueue.ledger = (σ.queues q).map MsgQueue.ledger) :
    σ'.qnumAt q = σ.qnumAt q := by
  have := congrArg (Option.map fun l : List Msg × Int × Int => l.2.2) h
  unfold State.qnumAt
  simp only [Option.map_map] at this
  exact congrArg (Option.getD · 0) this

theorem unfreedAt_ledger {σ σ' : State} {q : QId}
    (h : (σ'.queues q).map MsgQueue.ledger = (σ.queues q).map MsgQueue.ledger)
    (hd : σ'.dyingQueue = σ.dyingQueue) : σ'.unfreedAt q = σ.unfreedAt q := by
  unfold State.unfreedAt
  rw [hd, qnumAt_ledger h]

/-- Neither queues nor counters change. -/
theorem Accounts.frame {σ σ' : State} (h : Accounts σ)
    (hq : ∀ q, (σ'.queues q).map MsgQueue.ledger = (σ.queues q).map MsgQueue.ledger)
    (hd : σ'.dyingQueue = σ.dyingQueue) (hslots : σ'.hist.slots = σ.hist.slots)
    (hbytes : σ'.msg_bytes = σ.msg_bytes) (hhdrs : σ'.msg_hdrs = σ.msg_hdrs) : Accounts σ' := by
  refine ⟨?_, ?_, ?_⟩
  · intro q msq' hmsq'
    have := hq q
    rw [hmsq', Option.map_some, eq_comm, Option.map_eq_some_iff] at this
    obtain ⟨msq, hmsq, he⟩ := this
    simp only [MsgQueue.ledger, Prod.mk.injEq] at he
    rw [← he.1, ← he.2.1, ← he.2.2]
    exact h.queue q msq hmsq
  · rw [hbytes, h.bytes]
    unfold State.total
    rw [hslots]
    exact Finset.sum_congr rfl fun q _ => (cbytesAt_ledger (hq q)).symm
  · rw [hhdrs, h.hdrs]
    unfold State.total
    rw [hslots]
    exact Finset.sum_congr rfl fun q _ => (unfreedAt_ledger (hq q) hd).symm

/-- One live queue and both counters change by the same amount. -/
theorem Accounts.change {σ σ' : State} (hw : Wf σ) (hw' : TableWf σ') (h : Accounts σ) {q : QId}
    {msq msq' : MsgQueue} (hlive : σ.Live q) (hlive' : σ'.Live q) (hmsq : σ.queues q = some msq)
    (hmsq' : σ'.queues q = some msq') (hother : ∀ p, p ≠ q → σ'.queues p = σ.queues p)
    (hd : σ'.dyingQueue = σ.dyingQueue) (hslots : σ'.hist.slots = σ.hist.slots)
    (hledger : msq'.q_cbytes = bytesOf msq'.q_messages ∧
      msq'.q_qnum = msq'.q_messages.length)
    (hbytes : σ'.msg_bytes = σ.msg_bytes + (msq'.q_cbytes - msq.q_cbytes))
    (hhdrs : σ'.msg_hdrs = σ.msg_hdrs + (msq'.q_qnum - msq.q_qnum)) : Accounts σ' := by
  have hlt : (q : Nat) < σ.hist.slots.length := hw.tab.live_lt hlive
  refine ⟨?_, ?_, ?_⟩
  · intro p m hp
    by_cases hpq : p = q
    · subst hpq
      rw [hmsq'] at hp
      cases hp
      exact hledger
    · rw [hother p hpq] at hp
      exact h.queue p m hp
  · have hat : σ.cbytesAt q = msq.q_cbytes := by simp [State.cbytesAt, hmsq]
    have hat' : σ'.cbytesAt q = msq'.q_cbytes := by simp [State.cbytesAt, hmsq']
    rw [hbytes, h.bytes]
    unfold State.total
    rw [hslots, sum_change hlt (w := σ.cbytesAt) (v := σ'.cbytesAt), hat, hat']
    intro p hp
    exact cbytesAt_ledger (by rw [hother p hp])
  · have hat : σ.unfreedAt q = msq.q_qnum := by
      rw [unfreedAt_live hw.tab hlive]
      simp [State.qnumAt, hmsq]
    have hat' : σ'.unfreedAt q = msq'.q_qnum := by
      rw [unfreedAt_live hw' hlive']
      simp [State.qnumAt, hmsq']
    rw [hhdrs, h.hdrs]
    unfold State.total
    rw [hslots, sum_change hlt (w := σ.unfreedAt) (v := σ'.unfreedAt), hat, hat']
    intro p hp
    exact unfreedAt_ledger (by rw [hother p hp]) hd

/-- A queue that is allocated has been created. -/
theorem TableWf.alloc_lt {σ : State} (h : TableWf σ) {q : QId} (hq : (σ.queues q).isSome) :
    (q : Nat) < σ.hist.slots.length := by
  by_contra hge
  rw [h.fresh q (Nat.le_of_not_lt hge)] at hq
  cases hq

theorem Effect.accounts {σ σ' : State} (hw : Wf σ) (h : Accounts σ) (e : Effect σ σ') :
    Accounts σ' := by
  have hw' := e.table hw.tab
  -- a task that frees nothing before and after
  have hdying : ∀ {t : Tid}, (σ.tasks t).pc.freeing = none → (σ'.tasks t).pc.freeing = none →
      (∀ u, u ≠ t → (σ'.tasks u).pc = (σ.tasks u).pc) → σ'.dyingQueue = σ.dyingQueue := by
    intro t hold hnew hother
    refine dyingQueue_congr hw.tab hw' ?_
    intro u
    by_cases hu : u = t
    · rw [hu, hold, hnew]
    · rw [hother u hu]
  cases e with
  | quiet t pc _ _ _ _ _ _ free =>
      refine h.frame (fun _ => rfl) (dyingQueue_congr hw.tab hw' ?_) rfl rfl rfl
      intro u
      by_cases hu : u = t
      · simpa [hu] using free
      · simp [hu]
  | touch t f pc =>
      refine h.frame (fun _ => rfl) (dyingQueue_congr hw.tab hw' ?_) rfl rfl rfl
      intro u
      by_cases hu : u = t
      · simp [hu, pc]
      · simp [hu]
  | newMsg t a m pc =>
      refine h.frame (fun _ => rfl) (hdying (t := t) (Pc.plain_freeing pc) ?_ ?_) rfl rfl rfl
      · simp [Pc.freeing]
      · intro u hu
        simp [hu]
  | freeMsg l => exact h.frame (fun _ => rfl) rfl rfl rfl rfl
  | down t pc _ old new =>
      refine h.frame (fun _ => rfl) (hdying (t := t) (Pc.plain_freeing old) ?_ ?_) rfl rfl rfl
      · simpa using Pc.plain_freeing new
      · intro u hu
        simp [hu]
  | up t pc _ old new =>
      refine h.frame (fun _ => rfl) (hdying (t := t) (Pc.plain_freeing old) ?_ ?_) rfl rfl rfl
      · simpa using Pc.plain_freeing new
      · intro u hu
        simp [hu]
  | linkSnd q t a m msq pc =>
      refine h.frame (State.modQ_view _ _ q _ fun _ => rfl)
        (hdying (t := t) (by rw [pc]; rfl) ?_ ?_) rfl rfl rfl
      · simp [Pc.freeing]
      · intro u hu
        simp [ss_add, hu]
  | unlinkSnd q t a m pc =>
      refine h.frame (State.modQ_view _ _ q _ fun _ => rfl)
        (hdying (t := t) (by rw [pc]; rfl) ?_ ?_) rfl rfl rfl
      · simp [Pc.freeing]
      · intro u hu
        simp [hu]
  | linkRcv q t a msq pc =>
      refine h.frame (State.modQ_view _ _ q _ fun _ => rfl)
        (hdying (t := t) (by rw [pc]; rfl) ?_ ?_) rfl rfl rfl
      · simp [Pc.freeing]
      · intro u hu
        simp [rcvLink, hu]
  | unlinkRcv q t a pc =>
      refine h.frame (State.modQ_view _ _ q _ fun _ => rfl)
        (hdying (t := t) (by rw [pc]; rfl) ?_ ?_) rfl rfl rfl
      · simp [Pc.freeing]
      · intro u hu
        simp [r_list_del, hu]
  | tooBig q u msq =>
      refine h.frame (State.modQ_view _ _ q _ fun _ => rfl)
        (dyingQueue_congr hw.tab hw' fun v => ?_) rfl rfl rfl
      by_cases hv : v = u
      · simp [hv, Task.notified]
      · simp [hv]
  | handoff q u t a m msq pid now r pc =>
      refine h.frame (State.modQ_view _ _ q _ fun _ => rfl)
        (hdying (t := t) (by rw [pc]; rfl) ?_ ?_) rfl rfl rfl
      · simp [Pc.freeing]
      · intro v hv
        by_cases hvu : v = u
        · subst hvu
          simp [hv, Task.notified]
        · simp [hv, hvu]
  | enqueue q t a m msq r pc live queue =>
      obtain ⟨hc, hn⟩ := h.queue q msq queue
      have hnew : (Sysvmsg.enqueue σ q m).queues q = some { msq with
          q_messages := msq.q_messages ++ [m]
          q_cbytes := msq.q_cbytes + m.m_ts
          q_qnum := msq.q_qnum + 1 } := by
        simp [Sysvmsg.enqueue, queue]
      refine h.change hw hw' live live queue hnew ?_ (hdying (t := t) (by rw [pc]; rfl) ?_ ?_) rfl
        ⟨?_, ?_⟩ ?_ ?_
      · intro p hp
        simp [Sysvmsg.enqueue, hp]
      · simp [Pc.freeing]
      · intro u hu
        simp [Sysvmsg.enqueue, hu]
      · rw [bytesOf_append, hc]
      · simp [hn]
      · show σ.msg_bytes + m.m_ts = σ.msg_bytes + (msq.q_cbytes + m.m_ts - msq.q_cbytes)
        omega
      · show σ.msg_hdrs + 1 = σ.msg_hdrs + (msq.q_qnum + 1 - msq.q_qnum)
        omega
  | stamp q _ _ _ _ =>
      exact h.frame (State.modQ_view _ _ q _ fun _ => rfl) rfl rfl rfl rfl
  | dequeue q t a m msq pid now pc live queue found =>
      obtain ⟨hc, hn⟩ := h.queue q msq queue
      have hm : m ∈ msq.q_messages := scan_mem found
      have hnew : (σ.modQ q fun msq =>
          { msq with
            q_messages := msq.q_messages.erase m
            q_qnum := msq.q_qnum - 1
            q_rtime := now
            q_lrpid := pid
            q_cbytes := msq.q_cbytes - m.m_ts }).queues q = some { msq with
          q_messages := msq.q_messages.erase m
          q_qnum := msq.q_qnum - 1
          q_rtime := now
          q_lrpid := pid
          q_cbytes := msq.q_cbytes - m.m_ts } := by
        simp [queue]
      refine h.change hw hw' live live queue hnew ?_ (hdying (t := t) (by rw [pc]; rfl) ?_ ?_) rfl
        ⟨?_, ?_⟩ ?_ ?_
      · intro p hp
        simp [hp]
      · simp [Pc.freeing]
      · intro u hu
        simp [hu]
      · rw [bytesOf_erase hm, hc]
      · have := List.length_pos_of_mem hm
        simp only [List.length_erase_of_mem hm, hn]
        omega
      · show σ.msg_bytes - m.m_ts = σ.msg_bytes + (msq.q_cbytes - m.m_ts - msq.q_cbytes)
        omega
      · show σ.msg_hdrs - 1 = σ.msg_hdrs + (msq.q_qnum - 1 - msq.q_qnum)
        omega
  | setq q msq b mode now =>
      exact h.frame (State.modQ_view _ _ q _ fun _ => rfl) rfl rfl rfl rfl
  | remove q t msqid ids msq pc sem rmid queue =>
      rw [expel_eq] at hw' ⊢
      have hold := dyingQueue_none hw.tab sem (Pc.plain_freeing pc)
      have hnew := (dyingQueue_eq_some hw' q msq.q_messages).mpr
        ⟨t, by simp [Pc.freeing]⟩
      refine ⟨h.queue, h.bytes, h.hdrs.trans (Finset.sum_congr rfl fun p _ => ?_)⟩
      -- none of its messages is freed yet
      unfold State.unfreedAt
      rw [hold, hnew]
      show σ.qnumAt p = if p = q then (msq.q_messages.length : Int) else σ.qnumAt p
      split
      · rename_i hp
        rw [hp, ← (h.queue q msq queue).2]
        simp [State.qnumAt, queue]
      · rfl
  | purge q t m rest pc =>
      have hold := (dyingQueue_eq_some hw.tab q (m :: rest)).mpr
        ⟨t, by rw [pc]; rfl⟩
      have hnew := (dyingQueue_eq_some hw' q rest).mpr
        ⟨t, by simp [freeStep, Pc.freeing]⟩
      have hlt := hw.tab.alloc_lt (hw.tab.freeing t q _ pc).2
      refine ⟨h.queue, h.bytes, ?_⟩
      show σ.msg_hdrs - 1 = ∑ p ∈ Finset.range σ.hist.slots.length,
        (freeStep σ t q (m :: rest)).unfreedAt p
      rw [h.hdrs, sum_change hlt (w := σ.unfreedAt)]
      · unfold State.total State.unfreedAt
        rw [hold, hnew]
        simp only [if_true, List.length_cons]
        omega
      · intro p hp
        unfold State.unfreedAt
        rw [hold, hnew]
        simp only [if_neg hp]
        rfl
  | release q t msq pc queue =>
      have hold := (dyingQueue_eq_some hw.tab q []).mpr ⟨t, by rw [pc]; rfl⟩
      have hlt := hw.tab.alloc_lt (hw.tab.freeing t q _ pc).2
      simp only [freeStep, queue] at hw' ⊢
      have hnew := dyingQueue_none hw' (t := t) (by simp [Pc.holdsSem]) (by simp [Pc.freeing])
      refine ⟨?_, ?_, ?_⟩
      · intro p m hp
        by_cases hpq : p = q
        · simp [hpq] at hp
        · simp only [State.setPc_queues, Function.update_of_ne hpq] at hp
          exact h.queue p m hp
      · show σ.msg_bytes - msq.q_cbytes = ∑ p ∈ Finset.range σ.hist.slots.length, _
        rw [h.bytes, sum_change hlt (w := σ.cbytesAt)]
        · have hat : σ.cbytesAt q = msq.q_cbytes := by simp [State.cbytesAt, queue]
          rw [hat, cbytesAt_none (by simp)]
          unfold State.total
          omega
        · intro p hp
          simp [State.cbytesAt, hp]
      · -- all its messages are freed, and then it counts for nothing
        refine h.hdrs.trans (Finset.sum_congr rfl fun p _ => ?_)
        unfold State.unfreedAt
        rw [hold, hnew]
        by_cases hp : p = q
        · simp [hp, State.qnumAt]
        · simp [hp, State.qnumAt]
  | create t e key msgflg size ids id seq pc add =>
      have hold := dyingQueue_none hw.tab (t := t) (by rw [pc]; rfl) (by rw [pc]; rfl)
      have hnew := dyingQueue_none hw' (t := t) (by simp [Pc.holdsSem]) (by simp [Pc.freeing])
      refine ⟨?_, ?_, ?_⟩
      · intro p m hp
        by_cases hpq : p = σ.hist.slots.length
        · rw [hpq] at hp
          simp only [State.setPc_queues, State.log_queues, Function.update_self,
            Option.some.injEq] at hp
          rw [← hp]
          exact ⟨rfl, rfl⟩
        · simp only [State.setPc_queues, State.log_queues, Function.update_of_ne hpq] at hp
          exact h.queue p m hp
      · refine h.bytes.trans ?_
        unfold State.total
        rw [State.setPc_hist, State.log_hist, List.length_append, List.length_singleton]
        refine (sum_extend ?_ ?_).symm
        · intro p hp
          simp [State.cbytesAt, Nat.ne_of_lt hp]
        · simp [State.cbytesAt, newMsq]
      · refine h.hdrs.trans ?_
        unfold State.total
        rw [State.setPc_hist, State.log_hist, List.length_append, List.length_singleton]
        refine (sum_extend ?_ ?_).symm
        · intro p hp
          unfold State.unfreedAt
          rw [hold, hnew]
          simp [State.qnumAt, Nat.ne_of_lt hp]
        · unfold State.unfreedAt
          rw [hnew]
          simp [State.qnumAt, newMsq]
  | grow t key msgflg alloc pc =>
      refine h.frame (fun _ => rfl) (hdying (t := t) (by rw [pc]; rfl) ?_ ?_) rfl rfl rfl
      · simp [Pc.freeing]
      · intro u hu
        simp [hu]
  | handed t e a m pc =>
      refine h.frame (fun _ => rfl) (hdying (t := t) (by rw [pc]; rfl) ?_ ?_) rfl rfl rfl
      · simp [Pc.freeing, copyOut]
      · intro u hu
        simp [copyOut, hu]

theorem accounts_invariant (P : Params) : (machine P).Invariant Accounts := by
  refine invariant_of_effects P ?_ (fun σ σ' hw h e => e.accounts hw h)
  intro cred
  refine ⟨?_, rfl, rfl⟩
  intro q msq hq
  cases hq

/-! ## The final step of `_rt_msgsnd` -/

/-- A message has been handed to a receiver: no counter changes. -/
def HandedOver (σ σ' : State) (q : QId) (m : Msg) : Prop :=
  σ'.hist.taken = σ.hist.taken ++ [(q, m)] ∧ σ'.msg_bytes = σ.msg_bytes ∧
    σ'.msg_hdrs = σ.msg_hdrs ∧ ∀ p, σ'.cbytesAt p = σ.cbytesAt p ∧ σ'.qnumAt p = σ.qnumAt p

/-- A message has been put on a queue, which is within its limits. -/
def Enqueued (σ σ' : State) (q : QId) (m : Msg) : Prop :=
  σ'.hist.taken = σ.hist.taken ∧ ∃ msq, σ'.queues q = some msq ∧ m ∈ msq.q_messages ∧
    msq.q_cbytes ≤ msq.q_qbytes ∧ msq.q_qnum ≤ msq.q_qbytes

/-- Nothing is sent, or one message is handed over or enqueued. -/
def SendsOne (σ σ' : State) : Prop :=
  σ'.hist.sent = σ.hist.sent ∨ ∃ q m, σ'.hist.sent = σ.hist.sent ++ [(q, m)] ∧
    (HandedOver σ σ' q m ∨ Enqueued σ σ' q m)

/-- What the hand-off loop leaves alone. -/
def MsgQueue.books (msq : MsgQueue) : (List Msg × Int × Int) × Int :=
  (msq.ledger, msq.q_qbytes)

theorem pipelined_send_books (q : QId) (m : Msg) (e : Env) (l : List Tid) : ∀ σ : State,
    (pipelined_send q m e l σ).1.hist.sent = σ.hist.sent ∧
    (pipelined_send q m e l σ).1.hist.taken =
      σ.hist.taken ++ (if (pipelined_send q m e l σ).2 then [(q, m)] else []) ∧
    (pipelined_send q m e l σ).1.msg_bytes = σ.msg_bytes ∧
    (pipelined_send q m e l σ).1.msg_hdrs = σ.msg_hdrs ∧
    ∀ p, ((pipelined_send q m e l σ).1.queues p).map MsgQueue.books =
      (σ.queues p).map MsgQueue.books := by
  induction l with
  | nil =>
      intro σ
      exact ⟨rfl, by simp [pipelined_send], rfl, rfl, fun _ => rfl⟩
  | cons t rest ih =>
      intro σ
      simp only [pipelined_send]
      split
      · split
        · obtain ⟨h1, h2, h3, h4, h5⟩ := ih (notify (r_list_del σ q t) t (.err .E2BIG))
          refine ⟨h1, h2, h3, h4, fun p => (h5 p).trans ?_⟩
          exact State.modQ_view _ σ q _ (by intro _; rfl) p
        · refine ⟨rfl, rfl, rfl, rfl, fun p => ?_⟩
          refine (State.modQ_view _ (notify (r_list_del σ q t) t (.msg m)) q _ ?_ p).trans ?_
          · intro _
            rfl
          · exact State.modQ_view _ σ q _ (by intro _; rfl) p
      · exact ih σ

theorem ledger_of_books {σ σ' : State} {p : QId}
    (h : (σ'.queues p).map MsgQueue.books = (σ.queues p).map MsgQueue.books) :
    (σ'.queues p).map MsgQueue.ledger = (σ.queues p).map MsgQueue.ledger := by
  have := congrArg (Option.map Prod.fst) h
  simp only [Option.map_map] at this
  exact this

/-- `deliver` on a queue that is not full. -/
theorem deliver_sends {σ : State} {t : Tid} (e : Env) {m : Msg} {q : QId} {msq : MsgQueue}
    (l : List Tid) (hq : σ.queues q = some msq) (hroom : ¬ msq.full m.m_ts = true) (r : Ret) :
    SendsOne σ ((deliver σ t e m q l).ret t r) := by
  obtain ⟨hsent, htaken, hbytes, hhdrs, hbooks⟩ := pipelined_send_books q m e l
    (σ.modQ q fun msq => { msq with q_lspid := (σ.tasks t).cred.pid, q_stime := e.now })
  have hstamp : ∀ p, ((σ.modQ q fun msq =>
      { msq with q_lspid := (σ.tasks t).cred.pid, q_stime := e.now }).queues p).map
        MsgQueue.books = (σ.queues p).map MsgQueue.books :=
    State.modQ_view _ σ q _ fun _ => rfl
  simp only [deliver]
  generalize pipelined_send q m e l _ = sentBy at hsent htaken hbytes hhdrs hbooks
  obtain ⟨σ₁, sent⟩ := sentBy
  have hsent' : σ₁.hist.sent = σ.hist.sent := hsent
  refine .inr ⟨q, m, ?_, ?_⟩
  · cases sent <;> exact congrArg (· ++ [(q, m)]) hsent'
  · cases sent with
    | true =>
        refine .inl ⟨htaken, hbytes, hhdrs, fun p => ?_⟩
        have := ledger_of_books ((hbooks p).trans (hstamp p))
        exact ⟨cbytesAt_ledger this, qnumAt_ledger this⟩
    | false =>
        have hb := (hbooks q).trans (hstamp q)
        rw [hq, Option.map_some, Option.map_eq_some_iff] at hb
        obtain ⟨msq₁, hmsq₁, he⟩ := hb
        simp only [MsgQueue.books, MsgQueue.ledger, Prod.mk.injEq] at he
        have hnew : (enqueue σ₁ q m).queues q = some { msq₁ with
            q_messages := msq₁.q_messages ++ [m]
            q_cbytes := msq₁.q_cbytes + m.m_ts
            q_qnum := msq₁.q_qnum + 1 } := by
          have hmsq₁ : σ₁.queues q = some msq₁ := hmsq₁
          simp [enqueue, hmsq₁]
        simp only [MsgQueue.full, decide_eq_true_eq, not_or] at hroom
        refine .inr ⟨?_, _, hnew, by simp, ?_, ?_⟩
        · simpa [enqueue] using htaken
        · show msq₁.q_cbytes + m.m_ts ≤ msq₁.q_qbytes
          omega
        · show msq₁.q_qnum + 1 ≤ msq₁.q_qbytes
          omega

/-- `_rt_msgsnd` from `retry` on. -/
theorem sndRetry_sends (σ : State) (t : Tid) (e : Env) (a : SndArgs) (m : Msg) (q : QId) :
    SendsOne σ (sndRetry σ t e a m q) := by
  unfold sndRetry
  split
  · exact .inl rfl
  · rename_i msq hq
    split
    · exact .inl rfl
    · split
      · exact .inl rfl
      · split
        · split <;> exact .inl rfl
        · rename_i hroom
          exact deliver_sends e _ hq hroom _

/-- `ss_del` touches no counter. -/
theorem SendsOne.of_ss_del {σ σ' : State} {t : Tid} (h : SendsOne (ss_del σ t) σ') :
    SendsOne σ σ' := by
  have hframe : (ss_del σ t).hist = σ.hist ∧ (ss_del σ t).msg_bytes = σ.msg_bytes ∧
      (ss_del σ t).msg_hdrs = σ.msg_hdrs ∧
      ∀ p, ((ss_del σ t).queues p).map MsgQueue.ledger = (σ.queues p).map MsgQueue.ledger := by
    rcases ss_del_cases σ t with ⟨o, heq⟩ | ⟨q, heq⟩
    · rw [heq]
      exact ⟨rfl, rfl, rfl, fun _ => rfl⟩
    · rw [heq]
      exact ⟨rfl, rfl, rfl, State.modQ_view _ _ _ _ fun _ => rfl⟩
  obtain ⟨hhist, hbytes, hhdrs, hledger⟩ := hframe
  rcases h with h | ⟨q, m, hsent, hto⟩
  · exact .inl (by rw [h, hhist])
  · refine .inr ⟨q, m, by rw [hsent, hhist], ?_⟩
    rcases hto with ⟨htaken, hb, hh, hat⟩ | ⟨htaken, hin⟩
    · refine .inl ⟨by rw [htaken, hhist], by rw [hb, hbytes], by rw [hh, hhdrs], fun p => ?_⟩
      rw [(hat p).1, (hat p).2]
      exact ⟨cbytesAt_ledger (hledger p), qnumAt_ledger (hledger p)⟩
    · exact .inr ⟨by rw [htaken, hhist], hin⟩

theorem rcvRetry_sent (σ : State) (t : Tid) (e : Env) (a : RcvArgs) (q : QId) :
    (rcvRetry σ t e a q).hist.sent = σ.hist.sent := by
  unfold rcvRetry
  split
  · rfl
  · split
    · rfl
    · split
      · rfl
      · split
        · split
          · rfl
          · simp [unlink, ss_wakeup_eq]
        · split <;> rfl

theorem ctlBody_sent (σ : State) (t : Tid) (e : Env) (a : CtlArgs) :
    (ctlBody σ t e a).hist.sent = σ.hist.sent := by
  unfold ctlBody
  split
  · rfl
  · split
    · rfl
    · simp only
      split
      · rfl
      · split
        · rfl
        · split
          · split
            · rfl
            · simp [ipcSet, ss_wakeup_eq, expunge_all_eq]
          · unfold freeque
            split
            · rfl
            · split
              · rfl
              · simp [ss_wakeup_eq, expunge_all_eq]

theorem enter_sent (P : Params) (σ : State) (t : Tid) (e : Env) (c : Call) :
    (enter P σ t e c).hist.sent = σ.hist.sent := by
  cases c <;> simp only [enter] <;> (repeat' split) <;> rfl

/-- What one step does with messages. -/
theorem exec_sends {σ σ' : State} {t : Tid} {e : Env} (h : exec σ t e = some σ') :
    SendsOne σ σ' := by
  have hdown : ∀ pc, down σ t pc = some σ' → SendsOne σ σ' := by
    intro pc hd
    unfold down at hd
    split at hd
    · cases hd
      exact .inl rfl
    · cases hd
  unfold exec at h
  split at h
  · cases h
  · cases h
  · cases h
  · split at h <;> cases h
    · exact .inl rfl
    · exact sndRetry_sends _ _ _ _ _ _
  · cases h
    unfold sndRelock
    split
    · exact .inl rfl
    · refine SendsOne.of_ss_del (t := t) ?_
      simp only
      split
      · exact .inl rfl
      · exact sndRetry_sends _ _ _ _ _ _
  · cases h
    exact .inl rfl
  · split at h <;> cases h
    · exact .inl rfl
    · exact .inl (rcvRetry_sent _ _ _ _ _)
  · cases h
    refine .inl ?_
    simp only [rcvRelock]
    repeat' split
    all_goals first
      | rfl
      | exact rcvRetry_sent _ _ _ _ _
  · cases h
    refine .inl ?_
    unfold rcvNull
    split <;> rfl
  · cases h
    exact .inl rfl
  · exact hdown _ h
  · cases h
    exact .inl (ctlBody_sent _ _ _ _)
  · cases h
    refine .inl ?_
    unfold freeStep
    split
    · rfl
    · split <;> rfl
  · cases h
    refine .inl ?_
    unfold statBody
    repeat' split
    all_goals rfl
  · exact hdown _ h
  · cases h
    exact .inl rfl
  · exact hdown _ h
  · cases h
    refine .inl ?_
    unfold getFind
    repeat' split
    all_goals rfl
  · split at h <;> cases h <;> exact .inl rfl
  · cases h
    exact .inl rfl
  · cases h
    refine .inl ?_
    simp only [newque]
    split <;> rfl
  · cases h
    refine .inl ?_
    unfold getLock
    repeat' split
    all_goals rfl
  · cases h
    exact .inl rfl

theorem step_sends (P : Params) {σ σ' : State} {l : Label} (h : step P σ l = some σ') :
    SendsOne σ σ' := by
  unfold step at h
  split at h
  · cases h
  · cases l with
    | call t c e =>
        simp only at h
        split at h
        · cases h
          exact .inl (enter_sent P _ t e c)
        · cases h
    | exec t e => exact exec_sends h
    | resume t =>
        simp only [resume] at h
        split at h <;> cases h <;> exact .inl rfl
    | signal t pending =>
        cases h
        exact .inl rfl

/-! ## The books -/

/-- The accounts of every reachable state. For each queue that is allocated
(live, or in the hands of `freeque`) `q_cbytes` and `q_qnum` count its
messages. `msg_bytes` is the sum of `q_cbytes`, `msg_hdrs` of `q_qnum`, over
all of them, where the queue that `freeque` works off counts with the messages
it has yet to free. A send that hands its message over changes no counter, one
that enqueues it leaves the queue within its limits. With all queues removed,
MSG_INFO reports zeros. -/
theorem accounts_balance (P : Params) : (machine P).Invariant fun σ =>
    (∀ q, (σ.queues q).isSome ↔ σ.Live q ∨ ∃ t rest, (σ.tasks t).pc = .ctlFree q rest) ∧
    (∀ q msq, σ.queues q = some msq →
      msq.q_cbytes = bytesOf msq.q_messages ∧ msq.q_qnum = msq.q_messages.length) ∧
    σ.msg_bytes = σ.total σ.cbytesAt ∧ σ.msg_hdrs = σ.total σ.unfreedAt ∧
    (∀ l σ' q m, step P σ l = some σ' → σ'.hist.sent = σ.hist.sent ++ [(q, m)] →
      HandedOver σ σ' q m ∨ Enqueued σ σ' q m) ∧
    (∀ t space, (σ.tasks t).pc = .infoRead .msgInfo space → (∀ q, ¬ σ.Live q) →
      (infoOf σ .msgInfo).msgpool = 0 ∧ (infoOf σ .msgInfo).msgmap = 0 ∧
        (infoOf σ .msgInfo).msgtql = 0) := by
  intro σ hreach
  have hw := wf_invariant P σ hreach
  have hacc := accounts_invariant P σ hreach
  refine ⟨?_, hacc.queue, hacc.bytes, hacc.hdrs, ?_, ?_⟩
  · intro q
    constructor
    · exact hw.tab.owned q
    · rintro (hl | ⟨t, rest, ht⟩)
      · obtain ⟨msq, hq, _⟩ := hl.perm_isSome hw.tab
        rw [hq]
        rfl
      · exact (hw.tab.freeing t q rest ht).2
  · intro l σ' q m hstep hsent
    rcases step_sends P hstep with hsame | ⟨q', m', hsent', hto⟩
    · rw [hsame] at hsent
      simp at hsent
    · rw [hsent, List.append_cancel_left_eq, List.cons.injEq, Prod.mk.injEq] at hsent'
      obtain ⟨⟨rfl, rfl⟩, _⟩ := hsent'
      exact hto
  · intro t space hpc hempty
    -- the reader holds the semaphore, so no queue is being freed either
    have hnone : ∀ q, σ.queues q = none := by
      intro q
      cases hq : σ.queues q with
      | none => rfl
      | some msq =>
          rcases hw.tab.owned q (by rw [hq]; rfl) with hl | ⟨u, rest, hu⟩
          · exact absurd hl (hempty q)
          · have hut : u = t := hw.tab.sem_unique (by rw [hu]; rfl) (by rw [hpc]; rfl)
            rw [hut, hpc] at hu
            cases hu
    have hdying := dyingQueue_none hw.tab (t := t) (by rw [hpc]; rfl) (by rw [hpc]; rfl)
    refine ⟨?_, ?_, ?_⟩
    · show σ.ids.in_use = 0
      rw [hw.tab.ids.in_use, Int.natCast_eq_zero, List.countP_eq_zero]
      intro x hx hsome
      obtain ⟨q, rfl⟩ := Option.isSome_iff_exists.mp hsome
      obtain ⟨i, hi⟩ := List.mem_iff_getElem?.mp hx
      exact hempty q ⟨i, IpcIds.entry_getElem?.mpr hi⟩
    · show σ.msg_hdrs = 0
      rw [hacc.hdrs]
      refine Finset.sum_eq_zero fun q _ => ?_
      unfold State.unfreedAt
      rw [hdying]
      simp [State.qnumAt, hnone]
    · show σ.msg_bytes = 0
      rw [hacc.bytes]
      exact Finset.sum_eq_zero fun q _ => cbytesAt_none (hnone q)

/-- While `freeque` frees messages, `msg_hdrs` is ahead of `q_qnum`: the queue
still says 1 when its only message is freed. -/
theorem hdrs_ahead_during_removal : ¬ (machine demoParams).Invariant fun σ =>
    σ.msg_hdrs = σ.total σ.qnumAt := by
  intro hinv
  have hrun : demoRun (createQueue 0 ++ sendByte 0 0 7 ++ startRemoval 0 0 ++ [.exec 0 demoEnv])
      (fun σ => decide (σ.msg_hdrs ≠ σ.total σ.qnumAt)) = true := by
    decide
  obtain ⟨σ, hreach, hask⟩ := demoRun_reachable hrun
  exact of_decide_eq_true hask (hinv σ hreach)

end RtaiDemos.Sysvmsg
