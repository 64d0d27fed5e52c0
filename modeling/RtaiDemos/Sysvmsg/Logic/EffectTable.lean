import RtaiDemos.Sysvmsg.Logic.Effect

/-!
# Effects keep the table well-formed

Only `remove`, `release`, `create` and `grow` change what `TableWf` reads of
table and heap; every other effect moves tasks around inside or outside the
semaphore's sections.
-/

namespace RtaiDemos.Sysvmsg

/-- A control point outside the semaphore's sections claims nothing. -/
theorem State.TableOk.of_not_holdsSem {σ : State} {pc : Pc} (h : pc.holdsSem = false) :
    σ.TableOk pc := by
  cases pc <;> trivial

/-- One task moves, and the table, the heap's permission records and the
semaphore stay. -/
theorem TableWf.move {σ σ' : State} (h : TableWf σ) (t : Tid) (hids : σ'.ids = σ.ids)
    (hslots : σ'.hist.slots = σ.hist.slots)
    (hperm : ∀ q, (σ'.perm q).map KernIpcPerm.tableView = (σ.perm q).map KernIpcPerm.tableView)
    (hother : ∀ u, u ≠ t → (σ'.tasks u).pc = (σ.tasks u).pc)
    (hsem : σ'.sem = σ.sem) (hold : (σ'.tasks t).pc.holdsSem = (σ.tasks t).pc.holdsSem)
    (hfree : (σ'.tasks t).pc.freeing = (σ.tasks t).pc.freeing)
    (htab : σ.TableOk (σ'.tasks t).pc) : TableWf σ' := by
  refine h.congr hids hslots hperm ?_ ?_ ?_ <;> intro u <;> by_cases hu : u = t
  · rw [hsem, hu, hold]
    exact h.sem t
  · rw [hsem, hother u hu]
    exact h.sem u
  · rw [hu, hfree]
  · rw [hother u hu]
  · rw [hu]
    exact fun _ => htab
  · rw [hother u hu]
    exact id

/-- One task moves outside the semaphore's sections. -/
theorem TableWf.moveOutside {σ σ' : State} (h : TableWf σ) (t : Tid) (hids : σ'.ids = σ.ids)
    (hslots : σ'.hist.slots = σ.hist.slots)
    (hperm : ∀ q, (σ'.perm q).map KernIpcPerm.tableView = (σ.perm q).map KernIpcPerm.tableView)
    (hother : ∀ u, u ≠ t → (σ'.tasks u).pc = (σ.tasks u).pc)
    (hsem : σ'.sem = σ.sem) (hold : (σ.tasks t).pc.holdsSem = false)
    (hnew : (σ'.tasks t).pc.holdsSem = false) : TableWf σ' := by
  refine h.move t hids hslots hperm hother hsem (by rw [hold, hnew]) ?_ (.of_not_holdsSem hnew)
  have hnone : ∀ pc : Pc, pc.holdsSem = false → pc.freeing = none := by
    intro pc hpc
    cases pc <;> first | rfl | exact absurd hpc (by simp [Pc.holdsSem])
  rw [hnone _ hold, hnone _ hnew]

/-- The semaphore changes hands. -/
theorem TableWf.moveSem {σ σ' : State} (h : TableWf σ) (t : Tid) (hids : σ'.ids = σ.ids)
    (hslots : σ'.hist.slots = σ.hist.slots) (hq : σ'.queues = σ.queues)
    (hother : ∀ u, u ≠ t → (σ'.tasks u).pc = (σ.tasks u).pc)
    (hsem : ∀ u, (σ'.tasks u).pc.holdsSem = true ↔ σ'.sem = some u)
    (hold : (σ.tasks t).pc.plain = true) (hnew : (σ'.tasks t).pc.plain = true)
    (htab : σ.TableOk (σ'.tasks t).pc) : TableWf σ' := by
  have hnone : ∀ pc : Pc, pc.plain = true → pc.freeing = none := by
    intro pc hpc
    cases pc <;> first | rfl | exact absurd hpc (by simp [Pc.plain])
  have hperm : ∀ q, σ'.perm q = σ.perm q := by
    intro q
    unfold State.perm
    rw [hq]
  refine h.congr hids hslots (fun q => by rw [hperm]) hsem ?_ ?_ <;> intro u <;>
    by_cases hu : u = t
  · rw [hu, hnone _ hold, hnone _ hnew]
  · rw [hother u hu]
  · rw [hu]
    exact fun _ => htab
  · rw [hother u hu]
    exact id

/-- An update of a queue that keeps key and sequence number. -/
theorem perm_modQ (σ : State) (q : QId) (f : MsgQueue → MsgQueue)
    (hf : ∀ msq, (f msq).q_perm.tableView = msq.q_perm.tableView) (q' : QId) :
    ((σ.modQ q f).perm q').map KernIpcPerm.tableView =
      (σ.perm q').map KernIpcPerm.tableView := by
  unfold State.perm
  rw [State.modQ_queues]
  split
  · rename_i h
    subst h
    cases σ.queues q' <;> simp [hf]
  · rfl

/-- A queue in the table after `ipc_rmid` was there before. -/
theorem live_of_rmid {σ : State} {ids : IpcIds} {msqid : Nat} {q p : QId}
    (hrm : ipc_rmid σ.ids msqid = some (ids, q)) (hp : ∃ i, ids.entry i = some p) : σ.Live p := by
  obtain ⟨i, hi⟩ := hp
  rw [(ipc_rmid_spec hrm).2.2.2.2] at hi
  split at hi
  · cases hi
  · exact ⟨i, hi⟩

/-- The queues in the table after `ipc_rmid` are the others. -/
theorem TableWf.live_after_rmid {σ : State} (h : TableWf σ) {ids : IpcIds} {msqid : Nat} {q : QId}
    (hrm : ipc_rmid σ.ids msqid = some (ids, q)) (p : QId) :
    (∃ i, ids.entry i = some p) ↔ σ.Live p ∧ p ≠ q := by
  obtain ⟨hentry, _, _, _, hent⟩ := ipc_rmid_spec hrm
  constructor
  · rintro ⟨i, hi⟩
    rw [hent] at hi
    split at hi
    · cases hi
    · rename_i hne
      refine ⟨⟨i, hi⟩, ?_⟩
      rintro rfl
      exact hne (h.slot_unique hi hentry)
  · rintro ⟨⟨i, hi⟩, hne⟩
    refine ⟨i, ?_⟩
    rw [hent, if_neg]
    · exact hi
    · rintro rfl
      exact hne (Option.some.inj (hi.symm.trans hentry))

/-- IPC_RMID. -/
theorem TableWf.remove {σ σ' : State} (h : TableWf σ) {q : QId} {t : Tid} {msqid : Nat}
    {ids : IpcIds} {msgs : List Msg} (hplain : (σ.tasks t).pc.plain = true)
    (hhold : (σ.tasks t).pc.holdsSem = true) (hrm : ipc_rmid σ.ids msqid = some (ids, q))
    (hids : σ'.ids = ids) (hsem : σ'.sem = σ.sem) (hq : σ'.queues = σ.queues)
    (hslots : σ'.hist.slots = σ.hist.slots) (ht : (σ'.tasks t).pc = .ctlFree q msgs)
    (hother : ∀ u, u ≠ t → (σ'.tasks u).pc = (σ.tasks u).pc) : TableWf σ' := by
  obtain ⟨hentry, hseq, hmax, hsize, hent⟩ := ipc_rmid_spec hrm
  have hlive : ∀ p, σ'.Live p ↔ σ.Live p ∧ p ≠ q := by
    intro p
    rw [← h.live_after_rmid hrm p, State.Live, hids]
  have hperm : ∀ p, σ'.perm p = σ.perm p := by
    intro p
    unfold State.perm
    rw [hq]
  -- nobody else is inside a section of the semaphore
  have hout : ∀ u, u ≠ t → (σ.tasks u).pc.holdsSem = false := by
    intro u hu
    rw [Bool.eq_false_iff]
    exact fun hs => hu (h.sem_unique hs hhold)
  refine ⟨by rw [hids]; exact h.ids.rmid hrm, by rw [hids, hsize]; exact h.size_le,
    by rw [hids, hmax]; exact h.seq_max, by rw [hids, hseq, hslots]; exact h.seq,
    ?_, ?_, ?_, ?_, ?_, ?_, ?_⟩
  · intro i p hi
    rw [hids, hent] at hi
    split at hi
    · cases hi
    · rw [hslots, hperm]
      exact h.entry i p hi
  · intro p hp
    rw [hslots] at hp
    rw [hq]
    exact h.fresh p hp
  · intro p hp
    rw [hq] at hp
    rw [hlive]
    by_cases hpq : p = q
    · exact .inr ⟨t, msgs, by rw [ht, hpq]⟩
    · rcases h.owned p hp with hl | ⟨u, rest, hu⟩
      · exact .inl ⟨hl, hpq⟩
      · have hut : u = t := h.sem_unique (by rw [hu]; rfl) hhold
        subst hut
        rw [hu] at hplain
        cases hplain
  · intro u p rest hu
    by_cases hut : u = t
    · subst hut
      rw [ht] at hu
      cases hu
      rw [hlive, hq]
      obtain ⟨_, p, hp, _⟩ := h.entry _ _ hentry
      refine ⟨fun hl => hl.2 rfl, ?_⟩
      obtain ⟨msq, hmsq, _⟩ := Option.map_eq_some_iff.mp hp
      rw [hmsq]
      rfl
    · rw [hother u hut] at hu
      have := hout u hut
      rw [hu] at this
      cases this
  · intro u
    rw [hsem, ← h.sem u]
    by_cases hut : u = t
    · subst hut
      rw [ht, hhold]
      exact Iff.rfl
    · rw [hother u hut]
  · intro u
    by_cases hut : u = t
    · subst hut
      rw [ht]
      trivial
    · rw [hother u hut]
      exact .of_not_holdsSem (hout u hut)
  · intro p p' r r' hp hp' hr hr'
    rw [hperm] at hr hr'
    exact h.keys p p' r r' ((hlive p).mp hp).1 ((hlive p').mp hp').1 hr hr'

/-- The end of `freeque`. -/
theorem TableWf.release {σ σ' : State} (h : TableWf σ) {q : QId} {t : Tid} {rest : List Msg}
    {r : Ret} (hpc : (σ.tasks t).pc = .ctlFree q rest) (hids : σ'.ids = σ.ids)
    (hsem : σ'.sem = σ.sem) (hq : σ'.queues = Function.update σ.queues q none)
    (hslots : σ'.hist.slots = σ.hist.slots) (ht : (σ'.tasks t).pc = .semUp r)
    (hother : ∀ u, u ≠ t → (σ'.tasks u).pc = (σ.tasks u).pc) : TableWf σ' := by
  obtain ⟨hdead, _⟩ := h.freeing t q rest hpc
  have hhold' : (σ.tasks t).pc.holdsSem = true := by
    rw [hpc]
    rfl
  have hlive : ∀ p, σ'.Live p ↔ σ.Live p := by
    intro p
    unfold State.Live
    rw [hids]
  have hne : ∀ p, σ.Live p → p ≠ q := by
    rintro p hp rfl
    exact hdead hp
  have hqueue : ∀ p, p ≠ q → σ'.queues p = σ.queues p := by
    intro p hp
    rw [hq, Function.update_of_ne hp]
  have hout : ∀ u, u ≠ t → (σ.tasks u).pc.holdsSem = false := by
    intro u hu
    rw [Bool.eq_false_iff]
    exact fun hs => hu (h.sem_unique hs hhold')
  have hperm : ∀ p, p ≠ q → σ'.perm p = σ.perm p := by
    intro p hp
    unfold State.perm
    rw [hqueue p hp]
  refine ⟨by rw [hids]; exact h.ids, by rw [hids]; exact h.size_le,
    by rw [hids]; exact h.seq_max, by rw [hids, hslots]; exact h.seq, ?_, ?_, ?_, ?_, ?_, ?_, ?_⟩
  · intro i p hi
    rw [hids] at hi
    rw [hslots, hperm p (hne p ⟨i, hi⟩)]
    exact h.entry i p hi
  · intro p hp
    rw [hslots] at hp
    by_cases hpq : p = q
    · rw [hq, hpq, Function.update_self]
    · rw [hqueue p hpq]
      exact h.fresh p hp
  · intro p hp
    by_cases hpq : p = q
    · rw [hq, hpq, Function.update_self] at hp
      cases hp
    · rw [hqueue p hpq] at hp
      rcases h.owned p hp with hl | ⟨u, r, hu⟩
      · exact .inl ((hlive p).mpr hl)
      · have hut : u = t := h.sem_unique (by rw [hu]; rfl) hhold'
        rw [hut, hpc] at hu
        cases hu
        exact absurd rfl hpq
  · intro u p r hu
    by_cases hut : u = t
    · rw [hut, ht] at hu
      cases hu
    · rw [hother u hut] at hu
      have := hout u hut
      rw [hu] at this
      cases this
  · intro u
    rw [hsem, ← h.sem u]
    by_cases hut : u = t
    · rw [hut, ht, hhold']
      exact Iff.rfl
    · rw [hother u hut]
  · intro u
    by_cases hut : u = t
    · rw [hut, ht]
      trivial
    · rw [hother u hut]
      exact .of_not_holdsSem (hout u hut)
  · intro p p' r r' hp hp' hr hr'
    rw [hlive] at hp hp'
    rw [hperm p (hne p hp)] at hr
    rw [hperm p' (hne p' hp')] at hr'
    exact h.keys p p' r r' hp hp' hr hr'

/-- `newque`: the new queue has the next number, a fresh key, and a sequence
number that is its own modulo 2^16. -/
theorem TableWf.create {σ σ' : State} (h : TableWf σ) {t : Tid} {key : Int} {msgflg : BitVec 32}
    {size id seq : Nat} {ids : IpcIds} {msq : MsgQueue} {r : Ret}
    (hpc : (σ.tasks t).pc = .getAdd key msgflg size)
    (hadd : ipc_addid σ.ids σ.hist.slots.length size = some (ids, id, seq))
    (hkey : msq.q_perm.key = key) (hseq : msq.q_perm.seq = seq) (hids : σ'.ids = ids)
    (hsem : σ'.sem = σ.sem)
    (hq : σ'.queues = Function.update σ.queues σ.hist.slots.length (some msq))
    (hslots : σ'.hist.slots = σ.hist.slots ++ [id]) (ht : (σ'.tasks t).pc = .semUp r)
    (hother : ∀ u, u ≠ t → (σ'.tasks u).pc = (σ.tasks u).pc) : TableWf σ' := by
  have htab := h.table t
  rw [hpc] at htab
  obtain ⟨hsz, hfresh⟩ := htab
  obtain ⟨hlt, hfree, hs, hnext, hmax, hsize, hent⟩ := ipc_addid_spec hadd (by omega)
  have hhold : (σ.tasks t).pc.holdsSem = true := by
    rw [hpc]
    rfl
  have hout : ∀ u, u ≠ t → (σ.tasks u).pc.holdsSem = false := by
    intro u hu
    rw [Bool.eq_false_iff]
    exact fun hs => hu (h.sem_unique hs hhold)
  have hlive : ∀ p, σ'.Live p ↔ σ.Live p ∨ p = σ.hist.slots.length := by
    intro p
    unfold State.Live
    rw [hids]
    constructor
    · rintro ⟨i, hi⟩
      rw [hent] at hi
      split at hi
      · exact .inr (Option.some.inj hi).symm
      · exact .inl ⟨i, hi⟩
    · rintro (⟨i, hi⟩ | rfl)
      · refine ⟨i, ?_⟩
        rw [hent, if_neg]
        · exact hi
        · rintro rfl
          rw [hfree] at hi
          cases hi
      · exact ⟨id, by rw [hent, if_pos rfl]⟩
  -- the number of the new queue is none of those in use
  have hlt' : ∀ p, σ.Live p → p < σ.hist.slots.length := by
    rintro p ⟨i, hi⟩
    obtain ⟨hslot, _⟩ := h.entry i p hi
    exact (List.getElem?_eq_some_iff.mp hslot).1
  have hqueue : ∀ p, p ≠ σ.hist.slots.length → σ'.queues p = σ.queues p := by
    intro p hp
    rw [hq, Function.update_of_ne hp]
  have hperm : ∀ p, p ≠ σ.hist.slots.length → σ'.perm p = σ.perm p := by
    intro p hp
    unfold State.perm
    rw [hqueue p hp]
  have hperm' : σ'.perm σ.hist.slots.length = some msq.q_perm := by
    unfold State.perm
    rw [hq, Function.update_self]
    rfl
  refine ⟨by rw [hids]; exact h.ids.addid hadd (by omega), by rw [hids, hsize]; exact h.size_le,
    by rw [hids, hmax]; exact h.seq_max, ?_, ?_, ?_, ?_, ?_, ?_, ?_, ?_⟩
  · rw [hids, hnext, hslots, List.length_append]
    show (if (σ.ids.seq + 1) % 65536 > σ.ids.seq_max then 0 else (σ.ids.seq + 1) % 65536) =
      (σ.hist.slots.length + 1) % 65536
    rw [h.seq, h.seq_max, if_neg (by simp only [USHRT_MAX]; omega)]
    omega
  · intro i p hi
    rw [hids, hent] at hi
    split at hi
    · rename_i hi'
      cases hi
      rw [hslots, hperm', hi']
      refine ⟨List.getElem?_concat_length .., _, rfl, ?_⟩
      rw [hseq, hs, h.seq]
    · have hne : p ≠ σ.hist.slots.length := Nat.ne_of_lt (hlt' p ⟨i, hi⟩)
      rw [hslots, hperm p hne]
      obtain ⟨hslot, hp⟩ := h.entry i p hi
      refine ⟨?_, hp⟩
      rw [List.getElem?_append_left (hlt' p ⟨i, hi⟩)]
      exact hslot
  · intro p hp
    rw [hslots, List.length_append] at hp
    simp only [List.length_cons, List.length_nil] at hp
    rw [hqueue p (by omega)]
    exact h.fresh p (by omega)
  · intro p hp
    rw [hlive]
    by_cases hpq : p = σ.hist.slots.length
    · exact .inl (.inr hpq)
    · rw [hqueue p hpq] at hp
      rcases h.owned p hp with hl | ⟨u, rest, hu⟩
      · exact .inl (.inl hl)
      · have hut : u = t := h.sem_unique (by rw [hu]; rfl) hhold
        rw [hut, hpc] at hu
        cases hu
  · intro u p rest hu
    by_cases hut : u = t
    · rw [hut, ht] at hu
      cases hu
    · rw [hother u hut] at hu
      have := hout u hut
      rw [hu] at this
      cases this
  · intro u
    rw [hsem, ← h.sem u]
    by_cases hut : u = t
    · rw [hut, ht, hhold]
      exact Iff.rfl
    · rw [hother u hut]
  · intro u
    by_cases hut : u = t
    · rw [hut, ht]
      trivial
    · rw [hother u hut]
      exact .of_not_holdsSem (hout u hut)
  · -- the key was looked up under the semaphore, so no other queue has it
    have hnew : ∀ p r, σ.Live p → σ.perm p = some r → r.key = key → key = IPC_PRIVATE := by
      intro p r hp hr hk
      by_contra hne
      exact hfresh hne p r hp hr hk
    intro p p' r r' hp hp' hr hr' hk hne
    rw [hlive] at hp hp'
    rcases hp with hp | rfl <;> rcases hp' with hp' | rfl
    · rw [hperm p (Nat.ne_of_lt (hlt' p hp))] at hr
      rw [hperm p' (Nat.ne_of_lt (hlt' p' hp'))] at hr'
      exact h.keys p p' r r' hp hp' hr hr' hk hne
    · rw [hperm p (Nat.ne_of_lt (hlt' p hp))] at hr
      rw [hperm'] at hr'
      cases hr'
      rw [hkey] at hk
      exact absurd (hk.trans (hnew p r hp hr hk)) hne
    · rw [hperm p' (Nat.ne_of_lt (hlt' p' hp'))] at hr'
      rw [hperm'] at hr
      cases hr
      rw [hkey] at hk hne
      exact absurd (hnew p' r' hp' hr' hk.symm) hne
    · rfl

/-- `grow_ary`. -/
theorem TableWf.grow {σ : State} (h : TableWf σ) {t : Tid} {key : Int} {msgflg : BitVec 32}
    (alloc : Bool) (hpc : (σ.tasks t).pc = .getGrow key msgflg) :
    TableWf ({ σ with ids := (grow_ary σ.ids MSGMNI alloc).1 }.setPc t
      (.getAdd key msgflg (grow_ary σ.ids MSGMNI alloc).2)) := by
  obtain ⟨hent, hseq, hmax, _, _⟩ := grow_ary_spec σ.ids MSGMNI alloc
  obtain ⟨hsize, hle, _⟩ := grow_ary_size alloc (by decide : MSGMNI ≤ IPCMNI) h.size_le
  have htab := h.table t
  rw [hpc] at htab
  have hhold : (σ.tasks t).pc.holdsSem = true := by
    rw [hpc]
    rfl
  have hout : ∀ u, u ≠ t → (σ.tasks u).pc.holdsSem = false := by
    intro u hu
    rw [Bool.eq_false_iff]
    exact fun hs => hu (h.sem_unique hs hhold)
  have hlive : ∀ p, (∃ i, (grow_ary σ.ids MSGMNI alloc).1.entry i = some p) ↔ σ.Live p := by
    intro p
    unfold State.Live
    simp only [hent]
  refine ⟨h.ids.grow MSGMNI alloc, hle, hmax.trans h.seq_max, hseq.trans h.seq, ?_, h.fresh, ?_,
    ?_, ?_, ?_, ?_⟩
  · intro i p hi
    exact h.entry i p ((hent i).symm.trans hi)
  · intro p hp
    rcases h.owned p hp with hl | ⟨u, rest, hu⟩
    · exact .inl ((hlive p).mpr hl)
    · have hut : u = t := h.sem_unique (by rw [hu]; rfl) hhold
      rw [hut, hpc] at hu
      cases hu
  · intro u p rest hu
    rw [State.setPc_tasks] at hu
    split at hu
    · cases hu
    · rename_i hut
      have := hout u hut
      rw [show (σ.tasks u).pc = _ from hu] at this
      cases this
  · intro u
    rw [State.setPc_tasks, State.setPc_sem, ← h.sem u]
    split
    · rename_i hut
      rw [hut, hhold]
      exact Iff.rfl
    · exact Iff.rfl
  · intro u
    rw [State.setPc_tasks]
    split
    · exact ⟨hsize, fun hk p r hp hr => htab hk p r ((hlive p).mp hp) hr⟩
    · rename_i hut
      exact .of_not_holdsSem (hout u hut)
  · intro p p' r r' hp hp'
    exact h.keys p p' r r' ((hlive p).mp hp) ((hlive p').mp hp')

/-- The loops over waiter lists move no task. -/
theorem ss_wakeup_pc (kill : Bool) (l : List Tid) (σ : State) (u : Tid) :
    ((ss_wakeup kill l σ).tasks u).pc = (σ.tasks u).pc := by
  rw [ss_wakeup_eq]
  show (if u ∈ l then (σ.tasks u).roused kill else σ.tasks u).pc = _
  split <;> rfl

theorem expunge_all_pc (res : Errno) (l : List Tid) (σ : State) (u : Tid) :
    ((expunge_all res l σ).tasks u).pc = (σ.tasks u).pc := by
  rw [expunge_all_eq]
  show (if u ∈ l then (σ.tasks u).notified (.err res) else σ.tasks u).pc = _
  split <;> rfl

/-- A message is handed over, enqueued or taken: the caller moves outside the
semaphore's sections and queues keep their permission records. -/
theorem Effect.table {σ σ' : State} (h : TableWf σ) (e : Effect σ σ') : TableWf σ' := by
  cases e with
  | quiet t pc _ _ _ _ _ sem free table =>
      refine h.move t rfl rfl (fun _ => rfl) ?_ rfl ?_ ?_ ?_
      · intro u hu
        simp [hu]
      · simpa using sem
      · simpa using free
      · simpa using table
  | touch t f pc _ _ _ =>
      refine h.move t rfl rfl (fun _ => rfl) ?_ rfl ?_ ?_ ?_
      · intro u hu
        simp [hu]
      · simp [pc]
      · simp [pc]
      · simpa [pc] using h.table t
  | newMsg t a m _ sem _ =>
      refine h.moveOutside t rfl rfl (fun _ => rfl) ?_ rfl sem ?_
      · intro u hu
        simp [hu]
      · simp [Pc.holdsSem]
  | freeMsg l => exact h.congr rfl rfl (fun _ => rfl) h.sem (fun _ => rfl) (fun _ => id)
  | down t pc free old new sem table =>
      refine h.moveSem t rfl rfl rfl ?_ ?_ old ?_ ?_
      · intro u hu
        simp [hu]
      · intro u
        by_cases hu : u = t
        · simp [hu, sem]
        · have := h.sem u
          rw [free] at this
          simpa [hu, Ne.symm hu] using this
      · simpa using new
      · simpa using table
  | up t pc holds old new sem table =>
      refine h.moveSem t rfl rfl rfl ?_ ?_ old ?_ ?_
      · intro u hu
        simp [hu]
      · intro u
        by_cases hu : u = t
        · simp [hu, sem]
        · have hsem := (h.sem t).mp holds
          have := h.sem u
          rw [hsem] at this
          simpa [hu, Ne.symm hu] using this
      · simpa using new
      · simpa using table
  | linkSnd q t a m msq pc _ _ _ =>
      refine h.moveOutside t rfl rfl (perm_modQ _ q _ fun _ => rfl) ?_ rfl (by rw [pc]; rfl) ?_
      · intro u hu
        simp [ss_add, hu]
      · simp [Pc.holdsSem]
  | unlinkSnd q t a m pc _ =>
      refine h.moveOutside t rfl rfl (perm_modQ _ q _ fun _ => rfl) ?_ rfl (by rw [pc]; rfl) ?_
      · intro u hu
        simp [hu]
      · simp [Pc.holdsSem]
  | linkRcv q t a msq pc _ _ _ =>
      refine h.moveOutside t rfl rfl (perm_modQ _ q _ fun _ => rfl) ?_ rfl (by rw [pc]; rfl) ?_
      · intro u hu
        simp [rcvLink, hu]
      · simp [Pc.holdsSem]
  | unlinkRcv q t a pc _ =>
      refine h.moveOutside t rfl rfl (perm_modQ _ q _ fun _ => rfl) ?_ rfl (by rw [pc]; rfl) ?_
      · intro u hu
        simp [r_list_del, hu]
      · simp [Pc.holdsSem]
  | tooBig q u msq _ _ _ =>
      refine h.move u rfl rfl (perm_modQ _ q _ fun _ => rfl) ?_ rfl ?_ ?_ ?_
      · intro v hv
        simp [hv]
      · simp [Task.notified]
      · simp [Task.notified]
      · simpa [Task.notified] using h.table u
  | handoff q u t a m msq pid now r pc _ _ _ _ =>
      refine h.moveOutside t rfl rfl (perm_modQ _ q _ fun _ => rfl) ?_ rfl (by rw [pc]; rfl) ?_
      · intro v hv
        simp only [State.setPc_tasks, if_neg hv, State.log_tasks, State.modQ_tasks,
          State.modT_tasks]
        split
        · rename_i hvu
          rw [hvu]
          rfl
        · rfl
      · simp [Pc.holdsSem]
  | enqueue q t a m msq r pc _ _ _ =>
      refine h.moveOutside t rfl rfl (perm_modQ _ q _ fun _ => rfl) ?_ rfl (by rw [pc]; rfl) ?_
      · intro u hu
        simp [Sysvmsg.enqueue, hu]
      · simp [Pc.holdsSem]
  | stamp q _ _ _ _ =>
      exact h.congr rfl rfl (perm_modQ _ q _ fun _ => rfl) h.sem (fun _ => rfl) (fun _ => id)
  | dequeue q t a m msq pid now pc _ _ _ _ =>
      refine h.moveOutside t rfl rfl (perm_modQ _ q _ fun _ => rfl) ?_ rfl (by rw [pc]; rfl) ?_
      · intro u hu
        simp [hu]
      · simp [Pc.holdsSem]
  | setq q msq b mode now _ _ _ =>
      exact h.congr rfl rfl (perm_modQ _ q _ fun _ => rfl) h.sem (fun _ => rfl) (fun _ => id)
  | remove q t msqid ids msq pc sem rmid queue =>
      have hpc : ((ss_wakeup true msq.q_senders (expunge_all .EIDRM msq.q_receivers
          { σ with ids := ids })).setPc t (.ctlFree q msq.q_messages) |>.tasks t).pc =
          .ctlFree q msq.q_messages := by
        rw [State.setPc_tasks, if_pos rfl]
      refine h.remove pc sem rmid ?_ ?_ ?_ ?_ hpc ?_ <;>
        try (rw [ss_wakeup_eq, expunge_all_eq]; rfl)
      · intro u hu
        rw [State.setPc_tasks, if_neg hu, ss_wakeup_pc, expunge_all_pc]
  | purge q t m rest pc =>
      refine ⟨h.ids, h.size_le, h.seq_max, h.seq, h.entry, h.fresh, ?_, ?_, ?_, ?_, h.keys⟩
      · intro p hp
        rcases h.owned p hp with hl | ⟨u, r, hu⟩
        · exact .inl hl
        · by_cases hut : u = t
          · rw [hut, pc] at hu
            cases hu
            exact .inr ⟨t, rest, by simp [freeStep]⟩
          · exact .inr ⟨u, r, by simpa [freeStep, hut] using hu⟩
      · intro u p r hu
        by_cases hut : u = t
        · have : q = p ∧ rest = r := by simpa [freeStep, hut] using hu
          exact this.1 ▸ h.freeing t q _ pc
        · exact h.freeing u p r (by simpa [freeStep, hut] using hu)
      · intro u
        have := h.sem u
        by_cases hut : u = t
        · simpa [freeStep, hut, pc, Pc.holdsSem] using this
        · simpa [freeStep, hut] using this
      · intro u
        by_cases hut : u = t
        · simp [freeStep, hut, State.TableOk]
        · simp only [freeStep, State.setPc_tasks, if_neg hut, State.log_tasks]
          exact h.table u
  | release q t msq pc queue =>
      refine h.release (r := .ok 0) pc ?_ ?_ ?_ ?_ ?_ ?_ <;>
        simp only [freeStep, queue, State.setPc_ids, State.setPc_sem, State.setPc_queues,
          State.setPc_hist, State.setPc_tasks]
      · simp
      · intro u hu
        simp [hu]
  | create t e key msgflg size ids id seq pc add =>
      refine h.create (r := .ok (ipc_buildid id seq)) pc add ?_ ?_ rfl rfl rfl rfl ?_ ?_
      · rfl
      · rfl
      · simp
      · intro u hu
        simp [hu]
  | grow t key msgflg alloc pc => exact h.grow alloc pc
  | handed t e a m pc =>
      refine h.moveOutside t rfl rfl (fun _ => rfl) ?_ rfl (by rw [pc]; rfl) ?_
      · intro u hu
        simp [copyOut, hu]
      · simp [copyOut, Pc.holdsSem]

end RtaiDemos.Sysvmsg
