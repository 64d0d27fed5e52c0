import RtaiDemos.Sysvmsg.Logic.EffectTable

/-!
# Effects keep the waiter lists well-formed
-/

namespace RtaiDemos.Sysvmsg

/-- A sender that is not waiting is linked nowhere. -/
theorem WaitWf.mss_none {σ : State} (h : WaitWf σ) {t : Tid}
    (hpc : (σ.tasks t).pc.sndWaiting = none) : (σ.tasks t).mss_list = none := by
  cases hl : (σ.tasks t).mss_list with
  | none => rfl
  | some q =>
      obtain ⟨a, m, hw, _⟩ := h.snd_names t q hl
      rw [hpc] at hw
      cases hw

/-- The view of a task that waits for nothing. -/
theorem Task.waitView_none {k : Task} (hr : k.pc.rcvWaiting = none) (hs : k.mss_list = none) :
    k.waitView = (none, none) := by
  simp [Task.waitView, Task.rcvLinked, hr, hs]

theorem Task.rcvLinked_none {k : Task} (hr : k.pc.rcvWaiting = none) : k.rcvLinked = none := by
  simp [Task.rcvLinked, hr]

theorem Pc.plain_rcvWaiting {pc : Pc} (h : pc.plain = true) : pc.rcvWaiting = none := by
  cases pc <;> first | rfl | cases h

theorem Pc.plain_sndWaiting {pc : Pc} (h : pc.plain = true) : pc.sndWaiting = none := by
  cases pc <;> first | rfl | cases h

theorem Pc.plain_not_null {pc : Pc} (h : pc.plain = true) (a : RcvArgs) : pc ≠ .rcvNull a := by
  rintro rfl
  cases h

/-- Lists and all tasks but `t` stay; `t` waits for nothing before and after. -/
theorem WaitWf.moveFree {σ σ' : State} (h : WaitWf σ) (t : Tid) (hids : σ'.ids = σ.ids)
    (hq : ∀ q, (σ'.queues q).map MsgQueue.waiters = (σ.queues q).map MsgQueue.waiters)
    (hother : ∀ u, u ≠ t → σ'.tasks u = σ.tasks u)
    (hmss : (σ'.tasks t).mss_list = (σ.tasks t).mss_list)
    (hold : (σ.tasks t).pc.rcvWaiting = none) (holds : (σ.tasks t).pc.sndWaiting = none)
    (hnew : (σ'.tasks t).pc.rcvWaiting = none)
    (hnull : ∀ a, (σ'.tasks t).pc ≠ .rcvNull a) : WaitWf σ' := by
  have hm := h.mss_none holds
  refine h.congr hids hq ?_ ?_
  · intro u
    by_cases hu : u = t
    · rw [hu, Task.waitView_none hold hm, Task.waitView_none hnew (by rw [hmss, hm])]
    · rw [hother u hu]
  · intro u a
    by_cases hu : u = t
    · rw [hu]
      exact fun hpc => absurd hpc (hnull a)
    · rw [hother u hu]
      exact h.rcv_null u a

/-- A receiver leaves the list of `q`, and with it whatever made it linked. -/
theorem WaitWf.rcvErase {σ σ' : State} (h : WaitWf σ) {q : QId} {u : Tid}
    {a : RcvArgs} (hlink : (σ.tasks u).rcvLinked = some (a, q))
    {f : MsgQueue → MsgQueue} (hids : σ'.ids = σ.ids)
    (hq : ∀ p, σ'.queues p = (σ.modQ q f).queues p)
    (hf : ∀ msq, (f msq).q_receivers = msq.q_receivers.erase u)
    (hfs : ∀ msq, (f msq).q_senders = msq.q_senders)
    (hother : ∀ t, t ≠ u → (σ'.tasks t).waitView = (σ.tasks t).waitView)
    (hnull : ∀ t a, (σ'.tasks t).pc = .rcvNull a → (σ'.tasks t).msr_d.r_msg ≠ .err .EAGAIN)
    (hnew : (σ'.tasks u).rcvLinked = none)
    (hmss : (σ'.tasks u).mss_list = (σ.tasks u).mss_list) : WaitWf σ' := by
  -- a linked receiver is no waiting sender
  have hm : (σ.tasks u).mss_list = none := by
    refine h.mss_none ?_
    cases hpc : (σ.tasks u).pc <;> simp_all [Task.rcvLinked, Pc.rcvWaiting, Pc.sndWaiting]
  have hlive := (h.rcv_names u a q hlink).live
  refine h.update hids q u ?_ hother hnull ?_ ?_ ?_ ?_
  · intro p hp
    rw [hq, State.modQ_queues, if_neg hp]
  · intro b p hb
    rw [hnew] at hb
    cases hb
  · intro p hp
    rw [hmss, hm] at hp
    cases hp
  · intro p hp
    rw [hmss, hnew, hlink]
    simp only [reduceCtorEq, exists_false, Option.some.injEq, Prod.mk.injEq, false_iff, not_exists,
      not_and, and_true]
    exact fun _ _ hqp => hp hqp.symm
  · intro _ msq' hmsq'
    rw [hq, State.modQ_queues, if_pos rfl] at hmsq'
    obtain ⟨msq, hmsq, rfl⟩ := Option.map_eq_some_iff.mp hmsq'
    have hnd := h.rcv_nodup q msq hlive hmsq
    refine ⟨msq, hmsq, ?_, ?_, ?_, ?_, ?_, ?_⟩
    · rw [hf]
      exact hnd.erase u
    · rw [hfs]
      exact h.snd_nodup q msq hlive hmsq
    · intro t ht
      rw [hf, List.mem_erase_of_ne ht]
    · intro t _
      rw [hfs]
    · rw [hf, hnew]
      simpa using hnd.not_mem_erase
    · rw [hfs, hmss]
      exact h.snd_linked q msq hlive hmsq u

/-- A receiver links itself at the end of the list. -/
theorem WaitWf.rcvAppend {σ : State} (h : WaitWf σ) {q : QId} {t : Tid} {a : RcvArgs}
    (hpc : (σ.tasks t).pc = .rcvLock a) (hn : σ.Names a.msqid q) :
    WaitWf ((rcvLink σ t a q).setPc t (.rcvSleep a q)) := by
  have hm : (σ.tasks t).mss_list = none := h.mss_none (by rw [hpc]; rfl)
  have hold : (σ.tasks t).rcvLinked = none := Task.rcvLinked_none (by rw [hpc]; rfl)
  have hnew : (((rcvLink σ t a q).setPc t (.rcvSleep a q)).tasks t).rcvLinked = some (a, q) := by
    simp [rcvLink, Task.rcvLinked, Pc.rcvWaiting]
  have hmss : (((rcvLink σ t a q).setPc t (.rcvSleep a q)).tasks t).mss_list = none := by
    simpa [rcvLink] using hm
  refine h.update rfl q t ?_ ?_ ?_ ?_ ?_ ?_ ?_
  · intro p hp
    simp [rcvLink, hp]
  · intro u hu
    simp [rcvLink, hu]
  · intro u b
    by_cases hu : u = t
    · simp [hu]
    · simpa [rcvLink, hu] using h.rcv_null u b
  · intro b p hb
    rw [hnew] at hb
    cases hb
    exact hn
  · intro p hp
    rw [hmss] at hp
    cases hp
  · intro p hp
    rw [hnew, hmss, hold, hm]
    refine ⟨⟨?_, ?_⟩, Iff.rfl⟩
    · rintro ⟨b, hb⟩
      cases hb
      exact absurd rfl hp
    · rintro ⟨b, hb⟩
      cases hb
  · intro hl msq' hmsq'
    simp only [rcvLink, State.setPc_queues, State.modQ_queues, if_pos, State.modT_queues] at hmsq'
    obtain ⟨msq, hmsq, rfl⟩ := Option.map_eq_some_iff.mp hmsq'
    have hnot : t ∉ msq.q_receivers := by
      rw [h.rcv_linked q msq hl hmsq t, hold]
      simp
    refine ⟨msq, hmsq, ?_, h.snd_nodup q msq hl hmsq, ?_, fun _ _ => Iff.rfl, ?_, ?_⟩
    · simpa [List.nodup_append] using
        ⟨h.rcv_nodup q msq hl hmsq, fun x hx hxt => hnot (hxt ▸ hx)⟩
    · intro u hu
      simp [hu]
    · rw [hnew]
      simp
    · rw [hmss, ← hm]
      exact h.snd_linked q msq hl hmsq t

/-- A sender links itself at the end of the list. -/
theorem WaitWf.sndAppend {σ : State} (h : WaitWf σ) {q : QId} {t : Tid} {a : SndArgs} {m : Msg}
    (hpc : (σ.tasks t).pc = .sndLock a m) (hn : σ.Names a.msqid q) :
    WaitWf ((ss_add σ q t).setPc t (.sndSleep a m)) := by
  have hm : (σ.tasks t).mss_list = none := h.mss_none (by rw [hpc]; rfl)
  have hold : (σ.tasks t).rcvLinked = none := Task.rcvLinked_none (by rw [hpc]; rfl)
  have hnew : (((ss_add σ q t).setPc t (.sndSleep a m)).tasks t).rcvLinked = none :=
    Task.rcvLinked_none (by simp [Pc.rcvWaiting])
  have hmss : (((ss_add σ q t).setPc t (.sndSleep a m)).tasks t).mss_list = some q := by
    simp [ss_add]
  refine h.update rfl q t ?_ ?_ ?_ ?_ ?_ ?_ ?_
  · intro p hp
    simp [ss_add, hp]
  · intro u hu
    simp [ss_add, hu]
  · intro u b
    by_cases hu : u = t
    · simp [hu]
    · simpa [ss_add, hu] using h.rcv_null u b
  · intro b p hb
    rw [hnew] at hb
    cases hb
  · intro p hp
    rw [hmss] at hp
    cases hp
    exact ⟨a, m, by simp [Pc.sndWaiting], hn⟩
  · intro p hp
    rw [hnew, hmss, hold, hm]
    refine ⟨Iff.rfl, ⟨?_, ?_⟩⟩
    · intro hqp
      cases hqp
      exact absurd rfl hp
    · intro hnp
      cases hnp
  · intro hl msq' hmsq'
    simp only [ss_add, State.setPc_queues, State.modQ_queues, if_pos, State.modT_queues] at hmsq'
    obtain ⟨msq, hmsq, rfl⟩ := Option.map_eq_some_iff.mp hmsq'
    have hnot : t ∉ msq.q_senders := by
      rw [h.snd_linked q msq hl hmsq t, hm]
      simp
    refine ⟨msq, hmsq, h.rcv_nodup q msq hl hmsq, ?_, fun _ _ => Iff.rfl, ?_, ?_, ?_⟩
    · simpa [List.nodup_append] using
        ⟨h.snd_nodup q msq hl hmsq, fun x hx hxt => hnot (hxt ▸ hx)⟩
    · intro u hu
      simp [hu]
    · rw [hnew, ← hold]
      exact h.rcv_linked q msq hl hmsq t
    · rw [hmss]
      simp

/-- A sender unlinks itself. -/
theorem WaitWf.sndErase {σ : State} (h : WaitWf σ) {q : QId} {t : Tid} {a : SndArgs} {m : Msg}
    (hpc : (σ.tasks t).pc = .sndRelock a m) (hlist : (σ.tasks t).mss_list = some q) :
    WaitWf (((σ.modT t fun k => { k with mss_list := none }).modQ q
        fun msq => { msq with q_senders := msq.q_senders.erase t }).setPc t (.sndLock a m)) := by
  have hold : (σ.tasks t).rcvLinked = none := Task.rcvLinked_none (by rw [hpc]; rfl)
  refine h.update rfl q t ?_ ?_ ?_ ?_ ?_ ?_ ?_
  · intro p hp
    simp [hp]
  · intro u hu
    simp [hu]
  · intro u b
    by_cases hu : u = t
    · simp [hu]
    · simpa [hu] using h.rcv_null u b
  · intro b p hb
    rw [Task.rcvLinked_none (by simp [Pc.rcvWaiting])] at hb
    cases hb
  · intro p hp
    simp at hp
  · intro p hp
    rw [Task.rcvLinked_none (by simp [Pc.rcvWaiting]), hold, hlist]
    simp [Ne.symm hp]
  · intro hl msq' hmsq'
    simp only [State.setPc_queues, State.modQ_queues, if_pos, State.modT_queues] at hmsq'
    obtain ⟨msq, hmsq, rfl⟩ := Option.map_eq_some_iff.mp hmsq'
    have hnd := h.snd_nodup q msq hl hmsq
    refine ⟨msq, hmsq, h.rcv_nodup q msq hl hmsq, hnd.erase t, fun _ _ => Iff.rfl, ?_, ?_, ?_⟩
    · intro u hu
      exact List.mem_erase_of_ne hu
    · rw [Task.rcvLinked_none (by simp [Pc.rcvWaiting]), ← hold]
      exact h.rcv_linked q msq hl hmsq t
    · simpa using hnd.not_mem_erase

/-- A receiver told `-EIDRM` is linked nowhere. -/
theorem Task.expelled_rcvLinked (k : Task) (r s : Prop) [Decidable r] [Decidable s] :
    (k.expelled r s).rcvLinked = if r then none else k.rcvLinked := by
  by_cases hr : r <;> simp [Task.rcvLinked, Task.expelled, hr]

/-- Queue `q` leaves the table: what was linked on it is linked nowhere, all
else stays as it was. -/
theorem WaitWf.drop {σ σ' : State} (h : WaitWf σ) {q : QId} {msq : MsgQueue} (hlq : σ.Live q)
    (hmsq : σ.queues q = some msq) (hqueues : σ'.queues = σ.queues)
    (hlive : ∀ p, σ'.Live p → σ.Live p ∧ p ≠ q)
    (hnames : ∀ i p, σ.Names i p → p ≠ q → σ'.Names i p)
    (hrcv : ∀ u, (σ'.tasks u).rcvLinked =
      if u ∈ msq.q_receivers then none else (σ.tasks u).rcvLinked)
    (hmss : ∀ u, (σ'.tasks u).mss_list =
      if u ∈ msq.q_senders then none else (σ.tasks u).mss_list)
    (hsnd : ∀ u, (σ.tasks u).pc.sndWaiting.isSome →
      (σ'.tasks u).pc.sndWaiting = (σ.tasks u).pc.sndWaiting)
    (hnull : ∀ u a, (σ'.tasks u).pc = .rcvNull a →
      (σ'.tasks u).msr_d.r_msg ≠ .err .EAGAIN) : WaitWf σ' := by
  -- nobody is linked on two queues
  have hrq : ∀ u a p, (σ.tasks u).rcvLinked = some (a, p) → p ≠ q → u ∉ msq.q_receivers := by
    intro u a p hu hp hin
    obtain ⟨b, hb⟩ := (h.rcv_linked q msq hlq hmsq u).mp hin
    rw [hu] at hb
    cases hb
    exact hp rfl
  have hsq : ∀ u p, (σ.tasks u).mss_list = some p → p ≠ q → u ∉ msq.q_senders := by
    intro u p hu hp hin
    have hb := (h.snd_linked q msq hlq hmsq u).mp hin
    rw [hu] at hb
    cases hb
    exact hp rfl
  refine ⟨?_, ?_, ?_, hnull, ?_, ?_, ?_⟩
  · intro p m hp hm u
    obtain ⟨hlp, hpq⟩ := hlive p hp
    rw [hqueues] at hm
    rw [h.rcv_linked p m hlp hm u, hrcv]
    constructor
    · rintro ⟨a, ha⟩
      exact ⟨a, by rw [if_neg (hrq u a p ha hpq), ha]⟩
    · rintro ⟨a, ha⟩
      split at ha
      · cases ha
      · exact ⟨a, ha⟩
  · intro u a p hu
    rw [hrcv] at hu
    split at hu
    · cases hu
    · rename_i hin
      refine hnames _ _ (h.rcv_names u a p hu) ?_
      rintro rfl
      exact hin ((h.rcv_linked p msq hlq hmsq u).mpr ⟨a, hu⟩)
  · intro p m hp hm
    rw [hqueues] at hm
    exact h.rcv_nodup p m (hlive p hp).1 hm
  · intro p m hp hm u
    obtain ⟨hlp, hpq⟩ := hlive p hp
    rw [hqueues] at hm
    rw [h.snd_linked p m hlp hm u, hmss]
    constructor
    · intro hu
      rw [if_neg (hsq u p hu hpq), hu]
    · intro hu
      split at hu
      · cases hu
      · exact hu
  · intro u p hu
    rw [hmss] at hu
    split at hu
    · cases hu
    · rename_i hin
      obtain ⟨a, m, hw, hn⟩ := h.snd_names u p hu
      refine ⟨a, m, ?_, hnames _ _ hn ?_⟩
      · rw [hsnd u (by rw [hw]; rfl), hw]
      · rintro rfl
        exact hin ((h.snd_linked p msq hlq hmsq u).mpr hu)
  · intro p m hp hm
    rw [hqueues] at hm
    exact h.snd_nodup p m (hlive p hp).1 hm

/-- IPC_RMID: the receivers of the queue have been told, its senders' nodes
cleared. -/
theorem WaitWf.remove {σ : State} (h : WaitWf σ) (htab : TableWf σ) {q : QId} {t : Tid}
    {msqid : Nat} {ids : IpcIds} {msq : MsgQueue} (hplain : (σ.tasks t).pc.plain = true)
    (hrm : ipc_rmid σ.ids msqid = some (ids, q)) (hmsq : σ.queues q = some msq) :
    WaitWf ((ss_wakeup true msq.q_senders (expunge_all .EIDRM msq.q_receivers
      { σ with ids := ids })).setPc t (.ctlFree q msq.q_messages)) := by
  obtain ⟨hentry, _, _, _, hent⟩ := ipc_rmid_spec hrm
  have hlq : σ.Live q := ⟨_, hentry⟩
  rw [expel_eq]
  refine h.drop hlq hmsq rfl ?_ ?_ ?_ ?_ ?_ ?_
  · exact fun p hp => (htab.live_after_rmid hrm p).mp hp
  · intro i p hn hp
    refine ⟨?_, hn.2⟩
    show ids.entry (i % SEQ_MULTIPLIER) = some p
    rw [hent, if_neg]
    · exact hn.1
    · intro hi
      rw [← hi] at hentry
      exact hp (Option.some.inj (hn.1.symm.trans hentry))
  · intro u
    rw [State.setPc_tasks]
    split
    · -- the caller itself is linked nowhere, before and after
      rename_i hu
      have hnone : (σ.tasks u).rcvLinked = none :=
        Task.rcvLinked_none (by rw [hu]; exact Pc.plain_rcvWaiting hplain)
      rw [hnone, ite_self]
      exact Task.rcvLinked_none rfl
    · exact Task.expelled_rcvLinked _ _ _
  · intro u
    rw [State.setPc_tasks]
    split
    · rename_i hu
      rw [hu]
      rfl
    · rfl
  · intro u hu
    rw [State.setPc_tasks, if_neg]
    · rfl
    · rintro rfl
      rw [Pc.plain_sndWaiting hplain] at hu
      cases hu
  · intro u a
    rw [State.setPc_tasks]
    split
    · intro hpc
      cases hpc
    · intro hpc hmsg
      refine h.rcv_null u a hpc ?_
      simp only [Task.expelled] at hmsg
      split at hmsg
      · cases hmsg
      · exact hmsg

/-- The lists speak of the table through its entries only. -/
theorem WaitWf.retable {σ : State} (h : WaitWf σ) {ids : IpcIds}
    (hent : ∀ i, ids.entry i = σ.ids.entry i) : WaitWf { σ with ids := ids } := by
  have hlive : ∀ q, ({ σ with ids := ids } : State).Live q ↔ σ.Live q := by
    intro q
    simp only [State.Live, hent]
  have hnames : ∀ i q, ({ σ with ids := ids } : State).Names i q ↔ σ.Names i q := by
    intro i q
    simp only [State.Names, hent]
  refine ⟨?_, ?_, ?_, h.rcv_null, ?_, ?_, ?_⟩
  · intro q msq hq
    exact h.rcv_linked q msq ((hlive q).mp hq)
  · intro t a q ht
    exact (hnames _ _).mpr (h.rcv_names t a q ht)
  · intro q msq hq
    exact h.rcv_nodup q msq ((hlive q).mp hq)
  · intro q msq hq
    exact h.snd_linked q msq ((hlive q).mp hq)
  · intro t q ht
    obtain ⟨a, m, hw, hn⟩ := h.snd_names t q ht
    exact ⟨a, m, hw, (hnames _ _).mpr hn⟩
  · intro q msq hq
    exact h.snd_nodup q msq ((hlive q).mp hq)

/-- The number of the next queue is none of those in use. -/
theorem TableWf.live_ne_new {σ : State} (htab : TableWf σ) {p : QId} (hp : σ.Live p) :
    p ≠ σ.hist.slots.length := by
  rintro rfl
  obtain ⟨m, hm, _⟩ := hp.perm_isSome htab
  rw [htab.fresh _ (Nat.le_refl _)] at hm
  cases hm

/-- A live queue after `newque` is the new one, or was live and is the same. -/
theorem TableWf.create_live {σ : State} (htab : TableWf σ) {ids : IpcIds} {size id seq : Nat}
    {msq : MsgQueue} (hsize : size ≤ σ.ids.size)
    (hadd : ipc_addid σ.ids σ.hist.slots.length size = some (ids, id, seq)) {p : QId}
    {m : MsgQueue} (hp : ∃ i, ids.entry i = some p)
    (hm : Function.update σ.queues σ.hist.slots.length (some msq) p = some m) :
    (p = σ.hist.slots.length ∧ m = msq) ∨ (σ.Live p ∧ σ.queues p = some m) := by
  obtain ⟨_, _, _, _, _, _, hent⟩ := ipc_addid_spec hadd hsize
  obtain ⟨i, hi⟩ := hp
  rw [hent] at hi
  split at hi
  · cases hi
    rw [Function.update_self] at hm
    exact .inl ⟨rfl, (Option.some.inj hm).symm⟩
  · have hl : σ.Live p := ⟨i, hi⟩
    rw [Function.update_of_ne (htab.live_ne_new hl)] at hm
    exact .inr ⟨hl, hm⟩

/-- What `getAdd` knows of the size. -/
theorem TableWf.add_size {σ : State} (htab : TableWf σ) {t : Tid} {key : Int}
    {msgflg : BitVec 32} {size : Nat} (pc : (σ.tasks t).pc = .getAdd key msgflg size) :
    size ≤ σ.ids.size := by
  have hsize := htab.table t
  rw [pc] at hsize
  exact Nat.le_of_eq hsize.1

/-- `newque`: nobody waits on a queue that did not exist. -/
theorem WaitWf.create {σ : State} (h : WaitWf σ) (htab : TableWf σ) {ids : IpcIds}
    {size id seq : Nat} {msq : MsgQueue} (hr : msq.q_receivers = []) (hs : msq.q_senders = [])
    (hsize : size ≤ σ.ids.size)
    (hadd : ipc_addid σ.ids σ.hist.slots.length size = some (ids, id, seq)) :
    WaitWf { σ with
      ids := ids, queues := Function.update σ.queues σ.hist.slots.length (some msq) } := by
  obtain ⟨_, hfree, _, _, _, _, hent⟩ := ipc_addid_spec hadd hsize
  have hnew : ∀ p, σ.Live p → p ≠ σ.hist.slots.length := fun p hp => htab.live_ne_new hp
  have hold : ∀ p m, (∃ i, ids.entry i = some p) →
      Function.update σ.queues σ.hist.slots.length (some msq) p = some m →
      (p = σ.hist.slots.length ∧ m = msq) ∨ (σ.Live p ∧ σ.queues p = some m) :=
    fun p m => htab.create_live hsize hadd
  have hnames : ∀ i p, σ.Names i p →
      ids.entry (i % SEQ_MULTIPLIER) = some p ∧ i / SEQ_MULTIPLIER = p % 65536 := by
    intro i p hn
    refine ⟨?_, hn.2⟩
    rw [hent, if_neg, hn.1]
    intro he
    have := hn.1
    rw [he, hfree] at this
    cases this
  refine ⟨?_, ?_, ?_, h.rcv_null, ?_, ?_, ?_⟩
  · intro p m hp hm t
    rcases hold p m hp hm with ⟨rfl, rfl⟩ | ⟨hl, hm⟩
    · rw [hr]
      simp only [List.not_mem_nil, false_iff, not_exists]
      exact fun a ha => hnew _ (h.rcv_names t a _ ha).live rfl
    · exact h.rcv_linked p m hl hm t
  · intro t a p ht
    exact hnames _ _ (h.rcv_names t a p ht)
  · intro p m hp hm
    rcases hold p m hp hm with ⟨rfl, rfl⟩ | ⟨hl, hm⟩
    · rw [hr]
      exact List.nodup_nil
    · exact h.rcv_nodup p m hl hm
  · intro p m hp hm t
    rcases hold p m hp hm with ⟨rfl, rfl⟩ | ⟨hl, hm⟩
    · rw [hs]
      simp only [List.not_mem_nil, false_iff]
      intro ht
      obtain ⟨a, m, _, hn⟩ := h.snd_names t _ ht
      exact hnew _ hn.live rfl
    · exact h.snd_linked p m hl hm t
  · intro t p ht
    obtain ⟨a, m, hw, hn⟩ := h.snd_names t p ht
    exact ⟨a, m, hw, hnames _ _ hn⟩
  · intro p m hp hm
    rcases hold p m hp hm with ⟨rfl, rfl⟩ | ⟨hl, hm⟩
    · rw [hs]
      exact List.nodup_nil
    · exact h.snd_nodup p m hl hm

/-- `freeque` frees a queue. -/
theorem WaitWf.release {σ : State} (h : WaitWf σ) (q : QId) :
    WaitWf { σ with queues := Function.update σ.queues q none } := by
  have hback : ∀ p m, Function.update σ.queues q none p = some m → σ.queues p = some m := by
    intro p m hm
    by_cases hp : p = q
    · rw [hp, Function.update_self] at hm
      cases hm
    · rwa [Function.update_of_ne hp] at hm
  refine ⟨?_, h.rcv_names, ?_, h.rcv_null, ?_, h.snd_names, ?_⟩
  · exact fun p m hp hm => h.rcv_linked p m hp (hback p m hm)
  · exact fun p m hp hm => h.rcv_nodup p m hp (hback p m hm)
  · exact fun p m hp hm => h.snd_linked p m hp (hback p m hm)
  · exact fun p m hp hm => h.snd_nodup p m hp (hback p m hm)

/-- Every effect keeps the waiter lists well-formed. -/
theorem Effect.wait {σ σ' : State} (htab : TableWf σ) (h : WaitWf σ) (e : Effect σ σ') :
    WaitWf σ' := by
  cases e with
  | quiet t pc linked null snd _ _ _ _ _ =>
      refine h.congr rfl (fun _ => rfl) ?_ ?_
      · intro u
        by_cases hu : u = t
        · subst hu
          rw [State.setPc_tasks, if_pos rfl]
          unfold Task.waitView
          rw [linked]
          rcases snd with hs | hs <;> simp [hs]
        · rw [State.setPc_tasks, if_neg hu]
      · intro u a
        by_cases hu : u = t
        · subst hu
          rw [State.setPc_tasks, if_pos rfl]
          exact null a
        · rw [State.setPc_tasks, if_neg hu]
          exact h.rcv_null u a
  | touch t f pc msr mss _ =>
      refine h.congr rfl (fun _ => rfl) ?_ ?_
      · intro u
        by_cases hu : u = t
        · subst hu
          simp [Task.waitView, Task.rcvLinked, pc, msr, mss]
        · simp [hu]
      · intro u a
        by_cases hu : u = t
        · subst hu
          simpa [pc, msr] using h.rcv_null u a
        · simpa [hu] using h.rcv_null u a
  | newMsg t a m pc _ _ =>
      refine h.moveFree t rfl (fun _ => rfl) ?_ ?_ (Pc.plain_rcvWaiting pc)
        (Pc.plain_sndWaiting pc) ?_ ?_
      · intro u hu
        simp [hu]
      · simp
      · simp [Pc.rcvWaiting]
      · simp
  | freeMsg l => exact h.congr rfl (fun _ => rfl) (fun _ => rfl) h.rcv_null
  | down t pc _ old new _ _ =>
      refine h.moveFree t rfl (fun _ => rfl) ?_ ?_ (Pc.plain_rcvWaiting old)
        (Pc.plain_sndWaiting old) ?_ ?_
      · intro u hu
        simp [hu]
      · simp
      · simpa using Pc.plain_rcvWaiting new
      · simpa using Pc.plain_not_null new
  | up t pc _ old new _ _ =>
      refine h.moveFree t rfl (fun _ => rfl) ?_ ?_ (Pc.plain_rcvWaiting old)
        (Pc.plain_sndWaiting old) ?_ ?_
      · intro u hu
        simp [hu]
      · simp
      · simpa using Pc.plain_rcvWaiting new
      · simpa using Pc.plain_not_null new
  | linkSnd q t a m msq pc _ names _ => exact h.sndAppend pc names
  | unlinkSnd q t a m pc list => exact h.sndErase pc list
  | linkRcv q t a msq pc _ names _ => exact h.rcvAppend pc names
  | unlinkRcv q t a pc again =>
      have hl : (σ.tasks t).rcvLinked = some (a, q) := by
        simp [Task.rcvLinked, again, pc, Pc.rcvWaiting]
      refine h.rcvErase hl rfl (fun _ => rfl) (fun _ => rfl) (fun _ => rfl) ?_ ?_ ?_ ?_
      · intro u hu
        simp [r_list_del, hu]
      · intro u b
        by_cases hu : u = t
        · simp [hu]
        · simpa [r_list_del, hu] using h.rcv_null u b
      · exact Task.rcvLinked_none (by simp [Pc.rcvWaiting])
      · simp [r_list_del]
  | tooBig q u msq live queue linked =>
      obtain ⟨a, ha⟩ := (h.rcv_linked q msq live queue u).mp linked
      refine h.rcvErase ha rfl (fun _ => rfl) (fun _ => rfl) (fun _ => rfl) ?_ ?_ ?_ ?_
      · intro v hv
        simp [hv]
      · intro v b
        by_cases hv : v = u
        · simp [hv, Task.notified]
        · simpa [hv] using h.rcv_null v b
      · simp [Task.rcvLinked, Task.notified]
      · simp [Task.notified]
  | handoff q u t a m msq pid now r pc live queue linked _ =>
      obtain ⟨b, hb⟩ := (h.rcv_linked q msq live queue u).mp linked
      have hut : u ≠ t := by
        rintro rfl
        simp [Task.rcvLinked, pc, Pc.rcvWaiting] at hb
      have hm : (σ.tasks t).mss_list = none := h.mss_none (by rw [pc]; rfl)
      refine h.rcvErase hb rfl (fun _ => rfl) (fun _ => rfl) (fun _ => rfl) ?_ ?_ ?_ ?_
      · intro v hv
        by_cases hvt : v = t
        · rw [hvt, Task.waitView_none (by rw [pc]; rfl) hm, Task.waitView_none]
          · simp [Pc.rcvWaiting]
          · simpa [Ne.symm hut] using hm
        · simp [hv, hvt]
      · intro v c
        by_cases hvt : v = t
        · simp [hvt]
        · by_cases hv : v = u
          · simp [hv, hut, Task.notified]
          · simpa [hv, hvt] using h.rcv_null v c
      · simp [hut, Task.rcvLinked, Task.notified]
      · simp [hut, Task.notified]
  | enqueue q t a m msq r pc _ _ _ =>
      refine h.moveFree t rfl (State.modQ_view _ σ q _ fun _ => rfl) ?_ ?_ (by rw [pc]; rfl)
        (by rw [pc]; rfl) ?_ ?_
      · intro u hu
        simp [Sysvmsg.enqueue, hu]
      · simp [Sysvmsg.enqueue]
      · simp [Pc.rcvWaiting]
      · simp
  | stamp q _ _ _ _ =>
      exact h.congr rfl (State.modQ_view _ σ q _ fun _ => rfl) (fun _ => rfl) h.rcv_null
  | dequeue q t a m msq pid now pc _ _ _ _ =>
      refine h.moveFree t rfl (State.modQ_view _ σ q _ fun _ => rfl) ?_ ?_ (by rw [pc]; rfl)
        (by rw [pc]; rfl) ?_ ?_
      · intro u hu
        simp [hu]
      · simp
      · simp [Pc.rcvWaiting]
      · simp
  | setq q msq b mode now _ _ _ =>
      exact h.congr rfl (State.modQ_view _ σ q _ fun _ => rfl) (fun _ => rfl) h.rcv_null
  | remove q t msqid ids msq pc _ rmid queue => exact h.remove htab pc rmid queue
  | purge q t m rest pc =>
      refine h.moveFree t rfl (fun _ => rfl) ?_ ?_ (by rw [pc]; rfl) (by rw [pc]; rfl) ?_ ?_
      · intro u hu
        simp [freeStep, hu]
      · simp [freeStep]
      · simp [freeStep, Pc.rcvWaiting]
      · simp [freeStep]
  | release q t msq pc queue =>
      simp only [freeStep, queue]
      refine (h.release q).moveFree t rfl (fun _ => rfl) ?_ ?_ (by rw [pc]; rfl)
        (by rw [pc]; rfl) ?_ ?_
      · intro u hu
        simp [hu]
      · simp
      · simp [Pc.rcvWaiting]
      · simp
  | create t e key msgflg size ids id seq pc add =>
      refine (h.create htab rfl rfl (htab.add_size pc) add).moveFree t rfl (fun _ => rfl) ?_ ?_
        (by rw [pc]; rfl) (by rw [pc]; rfl) ?_ ?_
      · intro u hu
        simp [hu]
      · simp
      · simp [Pc.rcvWaiting]
      · simp
  | grow t key msgflg alloc pc =>
      refine (h.retable (grow_ary_spec σ.ids MSGMNI alloc).1).moveFree t rfl (fun _ => rfl) ?_ ?_
        (by rw [pc]; rfl) (by rw [pc]; rfl) ?_ ?_
      · intro u hu
        simp [hu]
      · simp
      · simp [Pc.rcvWaiting]
      · simp
  | handed t e a m pc =>
      refine h.moveFree t rfl (fun _ => rfl) ?_ ?_ (by rw [pc]; rfl) (by rw [pc]; rfl) ?_ ?_
      · intro u hu
        simp [copyOut, hu]
      · simp [copyOut]
      · simp [copyOut, Pc.rcvWaiting]
      · simp [copyOut]

/-- No effect is a kernel failure. -/
theorem Effect.oops {σ σ' : State} (e : Effect σ σ') : σ'.oops = σ.oops := by
  cases e with
  | remove => simp [expel_eq]
  | release q t msq _ queue => simp [freeStep, queue]
  | _ => rfl

/-- Every effect preserves well-formedness. -/
theorem Effect.wf {σ σ' : State} (h : Wf σ) (e : Effect σ σ') : Wf σ' :=
  ⟨e.table h.tab, e.wait h.tab h.wait, by rw [e.oops]; exact h.ok⟩

theorem Effects.wf {σ σ' : State} (h : Wf σ) (e : Effects σ σ') : Wf σ' := by
  induction e with
  | refl => exact h
  | tail _ he ih => exact he.wf ih

end RtaiDemos.Sysvmsg
