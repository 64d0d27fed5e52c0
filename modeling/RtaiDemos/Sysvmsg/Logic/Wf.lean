import RtaiDemos.Sysvmsg.Logic.Frame
import RtaiDemos.Sysvmsg.Logic.Table

/-!
# Well-formedness

Two companion invariants. `TableWf` is about the identifier table, the heap of
queues and the semaphore: every entry points to an allocated queue whose
sequence number is its creation number modulo 2^16, every allocated queue is
in the table or in the hands of the task freeing it, and the semaphore's
holder is the one task inside a section it protects. `WaitWf` ties the waiter
lists of the live queues to the tasks: a receiver is linked exactly as long as
its `r_msg` says `-EAGAIN`, a sender exactly as long as its list node has not
been cleared, and both wait on the queue that their identifier still names.
-/

namespace RtaiDemos.Sysvmsg

/-! ## Classes of control points -/

/-- A receiver between linking itself and looking at `r_msg`. -/
def Pc.rcvWaiting : Pc → Option (RcvArgs × QId)
  | .rcvSleep a q | .rcvRelock a q => some (a, q)
  | _ => none

/-- A sender between linking itself and `ss_del`. -/
def Pc.sndWaiting : Pc → Option (SndArgs × Msg)
  | .sndSleep a m | .sndRelock a m => some (a, m)
  | _ => none

/-- The task has called `down(&msg_ids.sem)` and not yet `up`. -/
def Pc.holdsSem : Pc → Bool
  | .ctlLock _ | .ctlFree _ _ | .infoRead _ _ | .getFind _ _ | .getNew _ _ | .getGrow _ _
  | .getAdd _ _ _ | .getLock _ _ | .semUp _ => true
  | _ => false

/-- The queue a task is freeing, and the messages left to free. -/
def Pc.freeing : Pc → Option (QId × List Msg)
  | .ctlFree q rest => some (q, rest)
  | _ => none

/-! ## The invariants -/

/-- A queue that is in the table. -/
def State.Live (σ : State) (q : QId) : Prop := ∃ i, σ.ids.entry i = some q

/-- What a task inside `rt_msgget` knows of the table. -/
def State.TableOk (σ : State) : Pc → Prop
  | .getNew key _ | .getGrow key _ =>
      key ≠ IPC_PRIVATE → ∀ q p, σ.Live q → σ.perm q = some p → p.key ≠ key
  | .getAdd key _ size =>
      size = σ.ids.size ∧
        (key ≠ IPC_PRIVATE → ∀ q p, σ.Live q → σ.perm q = some p → p.key ≠ key)
  | .getLock id _ => id < SEQ_MULTIPLIER ∧ (σ.ids.entry id).isSome
  | _ => True

/-- The table, the heap of queues and the semaphore. -/
structure TableWf (σ : State) : Prop where
  ids : σ.ids.Ok
  size_le : σ.ids.size ≤ MSGMNI
  seq_max : σ.ids.seq_max = USHRT_MAX
  seq : σ.ids.seq = σ.hist.slots.length % 65536
  entry : ∀ i q, σ.ids.entry i = some q →
    σ.hist.slots[q]? = some i ∧ ∃ p, σ.perm q = some p ∧ p.seq = q % 65536
  fresh : ∀ q, σ.hist.slots.length ≤ q → σ.queues q = none
  owned : ∀ q, (σ.queues q).isSome → σ.Live q ∨ ∃ t rest, (σ.tasks t).pc = .ctlFree q rest
  freeing : ∀ t q rest, (σ.tasks t).pc = .ctlFree q rest → ¬ σ.Live q ∧ (σ.queues q).isSome
  sem : ∀ t, (σ.tasks t).pc.holdsSem = true ↔ σ.sem = some t
  table : ∀ t, σ.TableOk (σ.tasks t).pc
  keys : ∀ q q' p p', σ.Live q → σ.Live q' → σ.perm q = some p → σ.perm q' = some p' →
    p.key = p'.key → p.key ≠ IPC_PRIVATE → q = q'

/-- The identifier `msqid` is the one `rt_msgget` returned for `q`, and `q` is
still the queue in its slot. -/
def State.Names (σ : State) (msqid : Nat) (q : QId) : Prop :=
  σ.ids.entry (msqid % SEQ_MULTIPLIER) = some q ∧ msqid / SEQ_MULTIPLIER = q % 65536

/-- A receiver waiting with `-EAGAIN` in its `r_msg`: what it wants and where
it is linked. -/
def Task.rcvLinked (k : Task) : Option (RcvArgs × QId) :=
  if k.msr_d.r_msg = .err .EAGAIN then k.pc.rcvWaiting else none

/-- The waiter lists. -/
structure WaitWf (σ : State) : Prop where
  rcv_linked : ∀ q msq, σ.Live q → σ.queues q = some msq →
    ∀ t, t ∈ msq.q_receivers ↔ ∃ a, (σ.tasks t).rcvLinked = some (a, q)
  rcv_names : ∀ t a q, (σ.tasks t).rcvLinked = some (a, q) → σ.Names a.msqid q
  rcv_nodup : ∀ q msq, σ.Live q → σ.queues q = some msq → msq.q_receivers.Nodup
  rcv_null : ∀ t a, (σ.tasks t).pc = .rcvNull a → (σ.tasks t).msr_d.r_msg ≠ .err .EAGAIN
  snd_linked : ∀ q msq, σ.Live q → σ.queues q = some msq →
    ∀ t, t ∈ msq.q_senders ↔ (σ.tasks t).mss_list = some q
  snd_names : ∀ t q, (σ.tasks t).mss_list = some q →
    ∃ a m, (σ.tasks t).pc.sndWaiting = some (a, m) ∧ σ.Names a.msqid q
  snd_nodup : ∀ q msq, σ.Live q → σ.queues q = some msq → msq.q_senders.Nodup

/-- Well-formedness. -/
structure Wf (σ : State) : Prop where
  tab : TableWf σ
  wait : WaitWf σ
  ok : σ.oops = none

/-! ## Consequences -/

theorem State.Live.perm_isSome {σ : State} (h : TableWf σ) {q : QId} (hq : σ.Live q) :
    ∃ msq, σ.queues q = some msq ∧ msq.q_perm.seq = q % 65536 := by
  obtain ⟨i, hi⟩ := hq
  obtain ⟨_, p, hp, hseq⟩ := h.entry i q hi
  obtain ⟨msq, hmsq, rfl⟩ := Option.map_eq_some_iff.mp hp
  exact ⟨msq, hmsq, hseq⟩

/-- A queue that is live has been created. -/
theorem TableWf.live_lt {σ : State} (h : TableWf σ) {q : QId} (hq : σ.Live q) :
    q < σ.hist.slots.length := by
  by_contra hge
  obtain ⟨msq, hm, _⟩ := hq.perm_isSome h
  rw [h.fresh q (Nat.le_of_not_lt hge)] at hm
  cases hm

/-- A live queue is in one slot only. -/
theorem TableWf.slot_unique {σ : State} (h : TableWf σ) {i j : Nat} {q : QId}
    (hi : σ.ids.entry i = some q) (hj : σ.ids.entry j = some q) : i = j := by
  have h1 := (h.entry i q hi).1
  have h2 := (h.entry j q hj).1
  rw [h1] at h2
  exact Option.some.inj h2

theorem State.Names.live {σ : State} {msqid : Nat} {q : QId} (h : σ.Names msqid q) : σ.Live q :=
  ⟨_, h.1⟩

theorem ipc_lock_live {σ : State} {msqid : Nat} {q : QId}
    (h : ipc_lock σ.ids msqid = some q) : σ.Live q :=
  ⟨_, by rw [← ipc_lock_eq]; exact h⟩

/-- The semaphore has at most one holder. -/
theorem TableWf.sem_unique {σ : State} (h : TableWf σ) {t u : Tid}
    (ht : (σ.tasks t).pc.holdsSem = true) (hu : (σ.tasks u).pc.holdsSem = true) : t = u := by
  have h1 := (h.sem t).mp ht
  have h2 := (h.sem u).mp hu
  rw [h1] at h2
  exact Option.some.inj h2

/-! ## Congruence

An update that changes neither the table nor what the invariant reads of
queues and tasks preserves it. -/

theorem Pc.freeing_eq_some {pc : Pc} {q : QId} {rest : List Msg} :
    pc.freeing = some (q, rest) ↔ pc = .ctlFree q rest := by
  cases pc <;> simp [Pc.freeing]

/-- What `TableWf` reads of a permission record. -/
def KernIpcPerm.tableView (p : KernIpcPerm) : Int × Nat := (p.key, p.seq)

/-- `TableOk` speaks of the table and of the keys in it. -/
theorem State.TableOk.congr {σ σ' : State} {pc : Pc} (h : σ.TableOk pc) (hids : σ'.ids = σ.ids)
    (hkeys : ∀ q p', σ'.perm q = some p' → ∃ p, σ.perm q = some p ∧ p.key = p'.key) :
    σ'.TableOk pc := by
  have hkey : ∀ key, (∀ q p, σ.Live q → σ.perm q = some p → p.key ≠ key) →
      ∀ q p, σ'.Live q → σ'.perm q = some p → p.key ≠ key := by
    intro key hk q p hq hp
    obtain ⟨p', hp', he⟩ := hkeys q p hp
    unfold State.Live at hq
    rw [hids] at hq
    rw [← he]
    exact hk q p' hq hp'
  cases pc <;> simp only [State.TableOk, hids] at h ⊢
  · exact fun hne => hkey _ (h hne)
  · exact fun hne => hkey _ (h hne)
  · exact ⟨h.1, fun hne => hkey _ (h.2 hne)⟩
  · exact h

theorem TableWf.congr {σ σ' : State} (h : TableWf σ) (hids : σ'.ids = σ.ids)
    (hslots : σ'.hist.slots = σ.hist.slots)
    (hperm : ∀ q, (σ'.perm q).map KernIpcPerm.tableView = (σ.perm q).map KernIpcPerm.tableView)
    (hsem : ∀ t, (σ'.tasks t).pc.holdsSem = true ↔ σ'.sem = some t)
    (hfree : ∀ t, (σ'.tasks t).pc.freeing = (σ.tasks t).pc.freeing)
    (htab : ∀ t, σ.TableOk (σ.tasks t).pc → σ.TableOk (σ'.tasks t).pc) : TableWf σ' := by
  have hlive : ∀ q, σ'.Live q ↔ σ.Live q := by
    intro q
    unfold State.Live
    rw [hids]
  have hback : ∀ q p', σ'.perm q = some p' →
      ∃ p, σ.perm q = some p ∧ p.key = p'.key ∧ p.seq = p'.seq := by
    intro q p' hp'
    have := hperm q
    rw [hp', Option.map_some, eq_comm, Option.map_eq_some_iff] at this
    obtain ⟨p, hp, he⟩ := this
    exact ⟨p, hp, by simpa [KernIpcPerm.tableView] using he⟩
  have hforth : ∀ q p, σ.perm q = some p →
      ∃ p', σ'.perm q = some p' ∧ p'.key = p.key ∧ p'.seq = p.seq := by
    intro q p hp
    have := hperm q
    rw [hp, Option.map_some, Option.map_eq_some_iff] at this
    obtain ⟨p', hp', he⟩ := this
    exact ⟨p', hp', by simpa [KernIpcPerm.tableView] using he⟩
  have hsome : ∀ q, (σ'.queues q).isSome = (σ.queues q).isSome := by
    intro q
    have := congrArg Option.isSome (hperm q)
    simpa [State.perm] using this
  have hctl : ∀ t q rest, (σ'.tasks t).pc = .ctlFree q rest ↔
      (σ.tasks t).pc = .ctlFree q rest := by
    intro t q rest
    rw [← Pc.freeing_eq_some, ← Pc.freeing_eq_some, hfree]
  refine ⟨by rw [hids]; exact h.ids, by rw [hids]; exact h.size_le, by rw [hids]; exact h.seq_max,
    by rw [hids, hslots]; exact h.seq, ?_, ?_, ?_, ?_, hsem, ?_, ?_⟩
  · intro i q hi
    rw [hids] at hi
    obtain ⟨hslot, p, hp, hseq⟩ := h.entry i q hi
    obtain ⟨p', hp', _, hs⟩ := hforth q p hp
    exact ⟨by rw [hslots]; exact hslot, p', hp', by rw [hs]; exact hseq⟩
  · intro q hq
    rw [hslots] at hq
    have := hsome q
    rw [h.fresh q hq] at this
    simpa using this
  · intro q hq
    rw [hsome] at hq
    simpa only [hlive, hctl] using h.owned q hq
  · intro t q rest ht
    rw [hlive, hsome]
    exact h.freeing t q rest ((hctl t q rest).mp ht)
  · intro t
    refine (htab t (h.table t)).congr hids ?_
    intro q p' hp'
    obtain ⟨p, hp, hk, _⟩ := hback q p' hp'
    exact ⟨p, hp, hk⟩
  · intro q q' p p' hq hq' hp hp' hke hkp
    obtain ⟨r, hr, hrk, _⟩ := hback q p hp
    obtain ⟨r', hr', hrk', _⟩ := hback q' p' hp'
    exact h.keys q q' r r' ((hlive q).mp hq) ((hlive q').mp hq') hr hr'
      (by rw [hrk, hrk', hke]) (by rw [hrk]; exact hkp)

/-- What `WaitWf` reads of a queue. -/
def MsgQueue.waiters (msq : MsgQueue) : List Tid × List Tid := (msq.q_receivers, msq.q_senders)

/-- What `WaitWf` reads of a task. -/
def Task.waitView (k : Task) : Option (RcvArgs × QId) × Option (QId × Option (SndArgs × Msg)) :=
  (k.rcvLinked, k.mss_list.map fun q => (q, k.pc.sndWaiting))

theorem Task.waitView_rcv {k k' : Task} (h : k'.waitView = k.waitView) :
    k'.rcvLinked = k.rcvLinked :=
  congrArg Prod.fst h

theorem Task.waitView_mss {k k' : Task} (h : k'.waitView = k.waitView) :
    k'.mss_list = k.mss_list := by
  have := congrArg (fun v => v.2.map Prod.fst) h
  simpa [Task.waitView, Function.comp_def] using this

theorem Task.waitView_snd {k k' : Task} (h : k'.waitView = k.waitView) {q : QId}
    (hq : k.mss_list = some q) : k'.pc.sndWaiting = k.pc.sndWaiting := by
  have := congrArg Prod.snd h
  simp only [Task.waitView, Task.waitView_mss h, hq, Option.map_some, Option.some.injEq,
    Prod.mk.injEq, true_and] at this
  exact this

/-- The general rule: all tasks but one keep their view, all queues but one
their lists, and what happens at the exception is checked on the spot. -/
theorem WaitWf.update {σ σ' : State} (h : WaitWf σ) (hids : σ'.ids = σ.ids) (q₀ : QId) (t₀ : Tid)
    (hq : ∀ q, q ≠ q₀ →
      (σ'.queues q).map MsgQueue.waiters = (σ.queues q).map MsgQueue.waiters)
    (ht : ∀ t, t ≠ t₀ → (σ'.tasks t).waitView = (σ.tasks t).waitView)
    (hnull : ∀ t a, (σ'.tasks t).pc = .rcvNull a → (σ'.tasks t).msr_d.r_msg ≠ .err .EAGAIN)
    (hrcv₀ : ∀ a q, (σ'.tasks t₀).rcvLinked = some (a, q) → σ.Names a.msqid q)
    (hsnd₀ : ∀ q, (σ'.tasks t₀).mss_list = some q →
      ∃ a m, (σ'.tasks t₀).pc.sndWaiting = some (a, m) ∧ σ.Names a.msqid q)
    (hother : ∀ q, q ≠ q₀ →
      ((∃ a, (σ'.tasks t₀).rcvLinked = some (a, q)) ↔
        ∃ a, (σ.tasks t₀).rcvLinked = some (a, q)) ∧
      ((σ'.tasks t₀).mss_list = some q ↔ (σ.tasks t₀).mss_list = some q))
    (hthis : σ.Live q₀ → ∀ msq', σ'.queues q₀ = some msq' → ∃ msq, σ.queues q₀ = some msq ∧
      msq'.q_receivers.Nodup ∧ msq'.q_senders.Nodup ∧
      (∀ t, t ≠ t₀ → (t ∈ msq'.q_receivers ↔ t ∈ msq.q_receivers)) ∧
      (∀ t, t ≠ t₀ → (t ∈ msq'.q_senders ↔ t ∈ msq.q_senders)) ∧
      (t₀ ∈ msq'.q_receivers ↔ ∃ a, (σ'.tasks t₀).rcvLinked = some (a, q₀)) ∧
      (t₀ ∈ msq'.q_senders ↔ (σ'.tasks t₀).mss_list = some q₀)) : WaitWf σ' := by
  have hlive : ∀ q, σ'.Live q ↔ σ.Live q := by
    intro q
    unfold State.Live
    rw [hids]
  have hnames : ∀ i q, σ'.Names i q ↔ σ.Names i q := by
    intro i q
    unfold State.Names
    rw [hids]
  have hback : ∀ q msq', q ≠ q₀ → σ'.queues q = some msq' →
      ∃ msq, σ.queues q = some msq ∧ msq.q_receivers = msq'.q_receivers ∧
        msq.q_senders = msq'.q_senders := by
    intro q msq' hne hq'
    have := hq q hne
    rw [hq', Option.map_some, eq_comm, Option.map_eq_some_iff] at this
    obtain ⟨msq, hm, he⟩ := this
    exact ⟨msq, hm, by simpa [MsgQueue.waiters] using he⟩
  refine ⟨?_, ?_, ?_, hnull, ?_, ?_, ?_⟩
  · intro q msq' hl hq' t
    rw [hlive] at hl
    by_cases hqq : q = q₀
    · subst hqq
      obtain ⟨msq, hm, _, _, hr, _, hr₀, _⟩ := hthis hl msq' hq'
      by_cases htt : t = t₀
      · subst htt
        exact hr₀
      · rw [hr t htt, h.rcv_linked q msq hl hm t, Task.waitView_rcv (ht t htt)]
    · obtain ⟨msq, hm, he, _⟩ := hback q msq' hqq hq'
      rw [← he, h.rcv_linked q msq hl hm t]
      by_cases htt : t = t₀
      · subst htt
        exact (hother q hqq).1.symm
      · rw [Task.waitView_rcv (ht t htt)]
  · intro t a q hta
    rw [hnames]
    by_cases htt : t = t₀
    · subst htt
      exact hrcv₀ a q hta
    · rw [Task.waitView_rcv (ht t htt)] at hta
      exact h.rcv_names t a q hta
  · intro q msq' hl hq'
    rw [hlive] at hl
    by_cases hqq : q = q₀
    · subst hqq
      obtain ⟨_, _, hn, _⟩ := hthis hl msq' hq'
      exact hn
    · obtain ⟨msq, hm, he, _⟩ := hback q msq' hqq hq'
      rw [← he]
      exact h.rcv_nodup q msq hl hm
  · intro q msq' hl hq' t
    rw [hlive] at hl
    by_cases hqq : q = q₀
    · subst hqq
      obtain ⟨msq, hm, _, _, _, hs, _, hs₀⟩ := hthis hl msq' hq'
      by_cases htt : t = t₀
      · subst htt
        exact hs₀
      · rw [hs t htt, h.snd_linked q msq hl hm t, Task.waitView_mss (ht t htt)]
    · obtain ⟨msq, hm, _, he⟩ := hback q msq' hqq hq'
      rw [← he, h.snd_linked q msq hl hm t]
      by_cases htt : t = t₀
      · subst htt
        exact (hother q hqq).2.symm
      · rw [Task.waitView_mss (ht t htt)]
  · intro t q hta
    by_cases htt : t = t₀
    · subst htt
      obtain ⟨a, m, hw, hn⟩ := hsnd₀ q hta
      exact ⟨a, m, hw, (hnames _ _).mpr hn⟩
    · rw [Task.waitView_mss (ht t htt)] at hta
      obtain ⟨a, m, hw, hn⟩ := h.snd_names t q hta
      exact ⟨a, m, (Task.waitView_snd (ht t htt) hta).trans hw, (hnames _ _).mpr hn⟩
  · intro q msq' hl hq'
    rw [hlive] at hl
    by_cases hqq : q = q₀
    · subst hqq
      obtain ⟨_, _, _, hn, _⟩ := hthis hl msq' hq'
      exact hn
    · obtain ⟨msq, hm, _, he⟩ := hback q msq' hqq hq'
      rw [← he]
      exact h.snd_nodup q msq hl hm

/-- Neither lists nor views change. -/
theorem WaitWf.congr {σ σ' : State} (h : WaitWf σ) (hids : σ'.ids = σ.ids)
    (hq : ∀ q, (σ'.queues q).map MsgQueue.waiters = (σ.queues q).map MsgQueue.waiters)
    (ht : ∀ t, (σ'.tasks t).waitView = (σ.tasks t).waitView)
    (hnull : ∀ t a, (σ'.tasks t).pc = .rcvNull a →
      (σ'.tasks t).msr_d.r_msg ≠ .err .EAGAIN) : WaitWf σ' := by
  refine h.update hids 0 0 (fun q _ => hq q) (fun t _ => ht t) hnull ?_ ?_ ?_ ?_
  · intro a q h0
    rw [Task.waitView_rcv (ht 0)] at h0
    exact h.rcv_names 0 a q h0
  · intro q h0
    rw [Task.waitView_mss (ht 0)] at h0
    rw [Task.waitView_snd (ht 0) h0]
    exact h.snd_names 0 q h0
  · intro q _
    rw [Task.waitView_rcv (ht 0), Task.waitView_mss (ht 0)]
    exact ⟨Iff.rfl, Iff.rfl⟩
  · intro hl msq' hq'
    have := hq 0
    rw [hq', Option.map_some, eq_comm, Option.map_eq_some_iff] at this
    obtain ⟨msq, hm, he⟩ := this
    simp only [MsgQueue.waiters, Prod.mk.injEq] at he
    rw [Task.waitView_rcv (ht 0), Task.waitView_mss (ht 0), ← he.1, ← he.2]
    exact ⟨msq, hm, h.rcv_nodup 0 msq hl hm, h.snd_nodup 0 msq hl hm, fun _ _ => Iff.rfl,
      fun _ _ => Iff.rfl, h.rcv_linked 0 msq hl hm 0, h.snd_linked 0 msq hl hm 0⟩

end RtaiDemos.Sysvmsg
