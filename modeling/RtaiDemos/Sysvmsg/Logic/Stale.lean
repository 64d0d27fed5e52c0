import RtaiDemos.Sysvmsg.Logic.Calls

/-!
# Identifiers of removed queues

The identifier of a removed queue names no queue until the sequence number has
gone around once (`Retired.stale`). A call that looks such an identifier up
touches nothing but its own task, and what its next control point is depends
on nothing but its own task (`StaleStep`).
-/

namespace RtaiDemos.Sysvmsg

/-! ## The table never brings a queue back -/

/-- Whatever is in a slot was there before, or has just been created. -/
def State.OnlyNew (σ σ' : State) : Prop :=
  σ.hist.slots.length ≤ σ'.hist.slots.length ∧
  ∀ j p, σ'.ids.entry j = some p → σ.ids.entry j = some p ∨ σ.hist.slots.length ≤ p

theorem State.OnlyNew.refl (σ : State) : σ.OnlyNew σ := ⟨Nat.le_refl _, fun _ _ h => .inl h⟩

theorem State.OnlyNew.trans {σ₁ σ₂ σ₃ : State} (h₁ : σ₁.OnlyNew σ₂) (h₂ : σ₂.OnlyNew σ₃) :
    σ₁.OnlyNew σ₃ := by
  refine ⟨Nat.le_trans h₁.1 h₂.1, ?_⟩
  intro j p hp
  rcases h₂.2 j p hp with hp | hp
  · exact h₁.2 j p hp
  · exact .inr (Nat.le_trans h₁.1 hp)

theorem State.OnlyNew.of_table {σ σ' : State} (h : σ'.table = σ.table) : σ.OnlyNew σ' := by
  have hids : σ'.ids = σ.ids := congrArg Prod.fst h
  have hslots : σ'.hist.slots = σ.hist.slots := congrArg Prod.snd h
  refine ⟨Nat.le_of_eq (congrArg List.length hslots.symm), ?_⟩
  intro j p hp
  rw [hids] at hp
  exact .inl hp

theorem Effect.onlyNew {σ σ' : State} (hw : Wf σ) (e : Effect σ σ') : σ.OnlyNew σ' := by
  cases e with
  | remove q t msqid ids msq pc sem rmid queue =>
      rw [expel_eq]
      refine ⟨Nat.le_refl _, ?_⟩
      intro j p hp
      have hent := (ipc_rmid_spec rmid).2.2.2.2 j
      have hp : ids.entry j = some p := hp
      rw [hent] at hp
      split at hp
      · cases hp
      · exact .inl hp
  | create t e key msgflg size ids id seq pc add =>
      have hsize : size ≤ σ.ids.size := by
        have := hw.tab.table t
        rw [pc] at this
        exact Nat.le_of_eq this.1
      have hent := (ipc_addid_spec add hsize).2.2.2.2.2.2
      refine ⟨by simp, ?_⟩
      intro j p hp
      have hp : ids.entry j = some p := hp
      rw [hent j] at hp
      split at hp
      · cases hp
        exact .inr (Nat.le_refl _)
      · exact .inl hp
  | grow t key msgflg alloc pc =>
      refine ⟨Nat.le_refl _, ?_⟩
      intro j p hp
      rw [← (grow_ary_spec σ.ids MSGMNI alloc).1 j]
      exact .inl hp
  | release q t msq pc queue =>
      simp only [freeStep, queue]
      exact .of_table rfl
  | _ => exact .of_table rfl

theorem step_onlyNew {P : Params} {σ σ' : State} {l : Label} (hw : Wf σ)
    (h : step P σ l = some σ') : σ.OnlyNew σ' :=
  (step_effects P hw h).preserve (I := σ.OnlyNew)
    (fun _ _ hw hi e => hi.trans (e.onlyNew hw)) hw (.refl σ)

theorem steps_onlyNew {P : Params} {σ σ₁ : State} (hr : (machine P).Reachable σ)
    (h : (machine P).Steps σ σ₁) : σ.OnlyNew σ₁ := by
  induction h with
  | refl => exact .refl σ
  | tail hto hstep ih =>
      obtain ⟨l, hl⟩ := hstep
      exact ih.trans (step_onlyNew (wf_invariant P _ (hr.steps hto)) hl)

/-- The identifier `i` belonged to `q`, and neither `q` nor an older queue is
in its slot. -/
structure State.Retired (σ : State) (i : Nat) (q : QId) : Prop where
  seq : i / SEQ_MULTIPLIER = q % 65536
  born : q < σ.hist.slots.length
  gone : ∀ p, σ.ids.entry (i % SEQ_MULTIPLIER) = some p → q < p

theorem State.Retired.onlyNew {σ σ' : State} {i : Nat} {q : QId} (h : σ.Retired i q)
    (hn : σ.OnlyNew σ') : σ'.Retired i q := by
  refine ⟨h.seq, Nat.lt_of_lt_of_le h.born hn.1, ?_⟩
  intro p hp
  rcases hn.2 _ p hp with hp | hp
  · exact h.gone p hp
  · exact Nat.lt_of_lt_of_le h.born hp

/-- The identifier of a queue that has just left the table. -/
theorem State.Retired.of_removed {σ σ' : State} (hw : Wf σ) (hn : σ.OnlyNew σ') {i : Nat} {q : QId}
    (hq : σ.Names i q) (hgone : ¬ σ'.Live q) : σ'.Retired i q := by
  have hborn := hw.tab.live_lt hq.live
  refine ⟨hq.2, Nat.lt_of_lt_of_le hborn hn.1, ?_⟩
  intro p hp
  rcases hn.2 _ p hp with hold | hnew
  · rw [hq.1] at hold
    cases hold
    exact absurd ⟨_, hp⟩ hgone
  · exact Nat.lt_of_lt_of_le hborn hnew

/-- No live queue has this identifier. -/
def State.Stale (σ : State) (i : Nat) : Prop := ∀ p, ¬ σ.Names i p

/-- Two queues with the same sequence number are 65536 creations apart. -/
theorem seq_apart {p q : Nat} (h : q < p) (hseq : p % 65536 = q % 65536) : q + 65536 ≤ p := by
  omega

theorem State.Retired.stale {σ : State} (hw : Wf σ) {i : Nat} {q : QId} (h : σ.Retired i q)
    (hbound : σ.hist.slots.length ≤ q + 65536) : σ.Stale i := by
  intro p hp
  have hlater : q < p := h.gone p hp.1
  have hborn : p < σ.hist.slots.length := hw.tab.live_lt hp.live
  have hseq : p % 65536 = q % 65536 := hp.2.symm.trans h.seq
  exact absurd (Nat.lt_of_lt_of_le hborn hbound) (Nat.not_lt.mpr (seq_apart hlater hseq))

/-- Looking a stale identifier up finds nothing, or a queue that
`msg_checkid` refuses. -/
theorem State.Stale.checkid {σ : State} (hw : Wf σ) {i : Nat} (h : σ.Stale i) {p : QId}
    {msq : MsgQueue} (hlock : ipc_lock σ.ids i = some p) (hq : σ.queues p = some msq) :
    ipc_checkid msq.q_perm i = true := by
  rw [ipc_lock_eq] at hlock
  obtain ⟨_, perm, hperm, hseq⟩ := hw.tab.entry _ p hlock
  have hmsq : msq.q_perm = perm := by
    rw [State.perm, hq] at hperm
    exact Option.some.inj hperm
  unfold ipc_checkid
  rw [bne_iff_ne, hmsq, hseq]
  intro he
  exact h p ⟨hlock, he⟩

/-! ## What sleepers have been told -/

/-- A receiver that was told something is awake, and was told of a message
some sender gave it, -E2BIG or -EIDRM; a sender that was struck off its list is
awake. -/
structure Task.ToldOk (taken : List (QId × Msg)) (k : Task) : Prop where
  msg : ∀ a q m, k.pc.rcvWaiting = some (a, q) → k.msr_d.r_msg = .msg m → (q, m) ∈ taken
  err : ∀ a q x, k.pc.rcvWaiting = some (a, q) → k.msr_d.r_msg = .err x →
    x = .EAGAIN ∨ x = .E2BIG ∨ x = .EIDRM
  rcv : ∀ a q, k.pc = .rcvSleep a q → k.msr_d.r_msg ≠ .err .EAGAIN → k.woken = true
  snd : ∀ a m, k.pc = .sndSleep a m → k.mss_list = none → k.woken = true

/-- Every task has been told what it knows. -/
def Told (σ : State) : Prop := ∀ t, (σ.tasks t).ToldOk σ.hist.taken

/-- A task that does not wait has nothing to be told. -/
theorem Task.ToldOk.of_awake {taken : List (QId × Msg)} {k : Task} (hr : k.pc.rcvWaiting = none)
    (ha : k.pc.asleep = false) : k.ToldOk taken := by
  refine ⟨?_, ?_, ?_, ?_⟩
  · intro a q m h
    rw [hr] at h
    cases h
  · intro a q x h
    rw [hr] at h
    cases h
  · intro a q h
    rw [h] at ha
    cases ha
  · intro a m h
    rw [h] at ha
    cases ha

theorem Task.ToldOk.mono {taken taken' : List (QId × Msg)} {k : Task} (h : k.ToldOk taken)
    (ht : ∀ x ∈ taken, x ∈ taken') : k.ToldOk taken' :=
  ⟨fun a q m hr hm => ht _ (h.msg a q m hr hm), h.err, h.rcv, h.snd⟩

/-- One task changes. -/
theorem Told.move {σ σ' : State} (h : Told σ) (t : Tid)
    (hother : ∀ u, u ≠ t → σ'.tasks u = σ.tasks u)
    (htaken : ∀ x ∈ σ.hist.taken, x ∈ σ'.hist.taken)
    (ht : (σ'.tasks t).ToldOk σ'.hist.taken) : Told σ' := by
  intro u
  by_cases hu : u = t
  · subst hu
    exact ht
  · rw [hother u hu]
    exact (h u).mono htaken

/-- One task goes on without waiting. -/
theorem Told.moveOn {σ σ' : State} (h : Told σ) (t : Tid) {pc : Pc}
    (hother : ∀ u, u ≠ t → σ'.tasks u = σ.tasks u)
    (htaken : ∀ x ∈ σ.hist.taken, x ∈ σ'.hist.taken) (ht : (σ'.tasks t).pc = pc)
    (hr : pc.rcvWaiting = none) (ha : pc.asleep = false) : Told σ' := by
  subst ht
  exact h.move t hother htaken (.of_awake hr ha)

/-- A linked receiver is told something. -/
theorem Task.ToldOk.notified {taken : List (QId × Msg)} {k : Task} {a : RcvArgs} {q : QId} {r : RMsg}
    (hl : k.rcvLinked = some (a, q))
    (hr : (∃ m, r = .msg m ∧ (q, m) ∈ taken) ∨ r = .err .E2BIG ∨ r = .err .EIDRM) :
    (k.notified r).ToldOk taken := by
  have hwait : k.pc.rcvWaiting = some (a, q) := by
    unfold Task.rcvLinked at hl
    split at hl
    · exact hl
    · cases hl
  refine ⟨?_, ?_, fun _ _ _ _ => rfl, fun _ _ _ _ => rfl⟩
  · intro a' q' m ha' hm
    have hm : r = .msg m := hm
    rw [show (k.notified r).pc = k.pc from rfl, hwait] at ha'
    cases ha'
    rcases hr with ⟨m', hr, htaken⟩ | hr | hr
    · rw [hr] at hm
      cases hm
      exact htaken
    · rw [hr] at hm
      cases hm
    · rw [hr] at hm
      cases hm
  · intro _ _ x _ hx
    have hx : r = .err x := hx
    rcases hr with ⟨m', hr, _⟩ | hr | hr
    · rw [hr] at hx
      cases hx
    · rw [hr] at hx
      cases hx
      exact .inr (.inl rfl)
    · rw [hr] at hx
      cases hx
      exact .inr (.inr rfl)

theorem Effect.told {σ σ' : State} (hw : Wf σ) (h : Told σ) (e : Effect σ σ') : Told σ' := by
  have hset : ∀ (τ : State) (t : Tid) (pc : Pc) (u : Tid), u ≠ t →
      (τ.setPc t pc).tasks u = τ.tasks u := by
    intro τ t pc u hu
    rw [State.setPc_tasks, if_neg hu]
  have hpc : ∀ (τ : State) (t : Tid) (pc : Pc), ((τ.setPc t pc).tasks t).pc = pc := by
    intro τ t pc
    rw [State.setPc_tasks, if_pos rfl]
  cases e with
  | quiet t pc _ _ _ _ _ _ _ _ awake waits =>
      rcases waits with hnone | hsame
      · exact h.moveOn t (hset σ t pc) (fun _ => id) (hpc σ t pc) hnone awake
      · refine h.move t (hset σ t pc) (fun _ => id) ?_
        rw [State.setPc_tasks, if_pos rfl]
        refine ⟨?_, ?_, ?_, ?_⟩
        · intro a q m ha
          exact (h t).msg a q m (hsame.symm.trans ha)
        · intro a q x ha
          exact (h t).err a q x (hsame.symm.trans ha)
        · intro a q ha
          have ha : pc = .rcvSleep a q := ha
          rw [ha] at awake
          cases awake
        · intro a m ha
          have ha : pc = .sndSleep a m := ha
          rw [ha] at awake
          cases awake
  | touch t f hpc' msr mss woken =>
      refine h.move t (fun u hu => by rw [State.modT_tasks, if_neg hu]) (fun _ => id) ?_
      rw [State.modT_tasks, if_pos rfl]
      obtain ⟨hmsg, herr, hrcv, hsnd⟩ := h t
      refine ⟨?_, ?_, ?_, ?_⟩
      · rw [hpc', msr]
        exact hmsg
      · rw [hpc', msr]
        exact herr
      · rw [hpc', msr]
        exact fun a q ha hr => woken (hrcv a q ha hr)
      · rw [hpc', mss]
        exact fun a m ha hs => woken (hsnd a m ha hs)
  | newMsg t a m => exact h.moveOn t (hset _ t _) (fun _ => id) (hpc _ t _) rfl rfl
  | freeMsg l => exact h
  | down t pc _ _ new =>
      exact h.moveOn t (hset _ t pc) (fun _ => id) (hpc _ t pc) (Pc.plain_rcvWaiting new)
        (Pc.plain_awake new)
  | up t pc _ _ new =>
      exact h.moveOn t (hset _ t pc) (fun _ => id) (hpc _ t pc) (Pc.plain_rcvWaiting new)
        (Pc.plain_awake new)
  | linkSnd q t a m msq =>
      refine h.move t ?_ (fun _ => id) ?_
      · intro u hu
        simp [ss_add, hu]
      · refine ⟨?_, ?_, ?_, ?_⟩
        · intro a' q' m' ha
          rw [hpc] at ha
          cases ha
        · intro a' q' x ha
          rw [hpc] at ha
          cases ha
        · intro a' q' ha
          rw [hpc] at ha
          cases ha
        · intro a' m' _ hs
          simp [ss_add] at hs
  | unlinkSnd q t a m =>
      refine h.moveOn t ?_ (fun _ => id) (hpc _ t _) rfl rfl
      intro u hu
      simp [hu]
  | linkRcv q t a msq =>
      refine h.move t ?_ (fun _ => id) ?_
      · intro u hu
        simp [rcvLink, hu]
      · refine ⟨?_, ?_, ?_, ?_⟩
        · intro a' q' m' _ hm
          simp [rcvLink] at hm
        · intro a' q' x _ hx
          have hx : Errno.EAGAIN = x := by simpa [rcvLink] using hx
          exact .inl hx.symm
        · intro a' q' _ hr
          simp [rcvLink] at hr
        · intro a' m' ha
          rw [hpc] at ha
          cases ha
  | unlinkRcv q t a => exact h.moveOn t (hset _ t _) (fun _ => id) (hpc _ t _) rfl rfl
  | tooBig q u msq live queue linked =>
      obtain ⟨a, ha⟩ := (hw.wait.rcv_linked q msq live queue u).mp linked
      refine h.move u (fun v hv => by simp [hv]) (fun _ => id) ?_
      rw [State.modQ_tasks, State.modT_tasks, if_pos rfl]
      exact .notified ha (.inr (.inl rfl))
  | handoff q u t a m msq pid now r hpc' live queue linked =>
      obtain ⟨b, hb⟩ := (hw.wait.rcv_linked q msq live queue u).mp linked
      have hut : u ≠ t := by
        intro hut
        rw [hut, Task.rcvLinked_none (by rw [hpc']; rfl)] at hb
        cases hb
      have hgrow : ∀ x ∈ σ.hist.taken, x ∈ σ.hist.taken ++ [(q, m)] :=
        fun x hx => List.mem_append_left _ hx
      intro v
      by_cases hvt : v = t
      · subst hvt
        exact .of_awake (by rw [hpc]; rfl) (by rw [hpc]; rfl)
      · rw [hset _ t _ v hvt]
        by_cases hvu : v = u
        · subst hvu
          rw [State.log_tasks, State.modQ_tasks, State.modT_tasks, if_pos rfl]
          exact .notified hb (.inl ⟨m, rfl, by simp⟩)
        · rw [State.log_tasks, State.modQ_tasks, State.modT_tasks, if_neg hvu]
          exact (h v).mono hgrow
  | enqueue q t a m msq r => exact h.moveOn t (hset _ t _) (fun _ => id) (hpc _ t _) rfl rfl
  | stamp => exact h
  | dequeue q t a m msq =>
      exact h.moveOn t (hset _ t _) (fun x hx => List.mem_append_left _ hx) (hpc _ t _) rfl rfl
  | setq => exact h
  | remove q t msqid ids msq _ _ rmid queue =>
      have hlive : σ.Live q := ⟨_, (ipc_rmid_spec rmid).1⟩
      rw [expel_eq]
      intro v
      by_cases hvt : v = t
      · subst hvt
        exact .of_awake (by rw [hpc]; rfl) (by rw [hpc]; rfl)
      · rw [hset _ t _ v hvt]
        show ((σ.tasks v).expelled (v ∈ msq.q_receivers) (v ∈ msq.q_senders)).ToldOk _
        obtain ⟨hmsg, herr, hrcv, hsnd⟩ := h v
        refine ⟨?_, ?_, ?_, ?_⟩
        · intro a q' m ha hm
          unfold Task.expelled at hm
          split at hm
          · cases hm
          · exact hmsg a q' m ha hm
        · intro a q' x ha hx
          unfold Task.expelled at hx
          split at hx
          · cases hx
            exact .inr (.inr rfl)
          · exact herr a q' x ha hx
        · intro a q' ha hr
          by_cases hmem : v ∈ msq.q_receivers
          · simp [Task.expelled, hmem]
          · have := hrcv a q' ha (by simpa [Task.expelled, hmem] using hr)
            simp [Task.expelled, this]
        · intro a m ha hs
          by_cases hmem : v ∈ msq.q_senders
          · simp [Task.expelled, hmem]
          · have := hsnd a m ha (by simpa [Task.expelled, hmem] using hs)
            simp [Task.expelled, this]
  | purge q t m rest => exact h.moveOn t (hset _ t _) (fun _ => id) (hpc _ t _) rfl rfl
  | release q t msq pc queue =>
      simp only [freeStep, queue]
      exact h.moveOn t (hset _ t _) (fun _ => id) (hpc _ t _) rfl rfl
  | create t => exact h.moveOn t (hset _ t _) (fun _ => id) (hpc _ t _) rfl rfl
  | grow t => exact h.moveOn t (hset _ t _) (fun _ => id) (hpc _ t _) rfl rfl
  | handed t => exact h.moveOn t (hset _ t _) (fun _ => id) (hpc _ t _) rfl rfl

theorem told_invariant (P : Params) : (machine P).Invariant Told := by
  refine invariant_of_effects P ?_ (fun σ σ' hw h e => e.told hw h)
  intro cred t
  exact .of_awake rfl rfl

/-! ## A call with a stale identifier -/

/-- The identifier a task in a call was given and may still look up. MSG_STAT
takes an index, not an identifier. -/
def Pc.ident : Pc → Option Nat
  | .sndLock a _ | .sndSleep a _ | .sndRelock a _ => some a.msqid
  | .rcvLock a | .rcvSleep a _ | .rcvRelock a _ | .rcvNull a => some a.msqid
  | .ctlDown a | .ctlLock a => some a.msqid
  | .statLock i cmd _ => if cmd = .msgStat then none else some i
  | _ => none

/-- The last stretch of a call: no queue is looked at any more. -/
def Pc.last : Pc → Bool
  | .idle _ | .sndFree _ _ | .rcvCopy _ _ | .semUp _ => true
  | _ => false

/-- `-EINVAL` for an empty slot, `-EIDRM` for a reused one. -/
def refusal (ids : IpcIds) (msqid : Nat) : Errno :=
  if (ipc_lock ids msqid).isNone then .EINVAL else .EIDRM

/-- A receiver reads its `r_msg`. -/
def readResult (a : RcvArgs) : RMsg → Pc
  | .msg m => .rcvCopy a m
  | .err err => .idle (some (.err err))

/-- Where a task goes from a control point with a stale identifier. -/
def staleNext (ids : IpcIds) (k : Task) : Pc :=
  match k.pc with
  | .sndLock a m => .sndFree (refusal ids a.msqid) m
  | .sndRelock a m =>
    .sndFree (if k.signal_pending && (ipc_lock ids a.msqid).isSome then .EINTR else .EIDRM) m
  | .rcvLock a => .idle (some (.err (refusal ids a.msqid)))
  | .rcvRelock a _ =>
    if (ipc_lock ids a.msqid).isNone then .rcvNull a else readResult a k.msr_d.r_msg
  | .rcvNull a => readResult a k.msr_d.r_msg
  | .ctlLock a => .semUp (.err (refusal ids a.msqid))
  | .statLock i _ _ => .idle (some (.err (refusal ids i)))
  | pc => pc

/-- The whole stretch. -/
def staleExec (σ : State) (t : Tid) : Option State :=
  match (σ.tasks t).pc with
  | .sndSleep _ _ | .rcvSleep _ _ => none
  | .ctlDown a => down σ t (.ctlLock a)
  | _ => some (σ.setPc t (staleNext σ.ids (σ.tasks t)))

/-- What makes an identifier useless to a task: the queue in its slot fails
`msg_checkid`, and the task's own records are linked nowhere. -/
structure State.Useless (σ : State) (t : Tid) (i : Nat) : Prop where
  slot : ∀ p, ipc_lock σ.ids i = some p →
    ∃ msq, σ.queues p = some msq ∧ ipc_checkid msq.q_perm i = true
  snd : (σ.tasks t).mss_list = none
  rcv : ∀ a, (∃ q, (σ.tasks t).pc = .rcvRelock a q) ∨ (σ.tasks t).pc = .rcvNull a →
    (σ.tasks t).msr_d.r_msg ≠ .err .EAGAIN

/-- A task that waits with a stale identifier is linked nowhere. -/
theorem State.Stale.not_linked {σ : State} (hw : Wf σ) {i : Nat} (h : σ.Stale i) {t : Tid}
    {a : RcvArgs} {q : QId} (hpc : (σ.tasks t).pc.rcvWaiting = some (a, q)) (hi : a.msqid = i) :
    (σ.tasks t).msr_d.r_msg ≠ .err .EAGAIN := by
  intro hr
  refine h q ?_
  rw [← hi]
  apply hw.wait.rcv_names t a q
  unfold Task.rcvLinked
  rw [if_pos hr]
  exact hpc

theorem State.Stale.not_linked_snd {σ : State} (hw : Wf σ) {i : Nat} (h : σ.Stale i) {t : Tid}
    (hi : (σ.tasks t).pc.ident = some i) : (σ.tasks t).mss_list = none := by
  cases hl : (σ.tasks t).mss_list with
  | none => rfl
  | some q =>
      obtain ⟨a, m, ha, hn⟩ := hw.wait.snd_names t q hl
      have hident : (σ.tasks t).pc.ident = some a.msqid := by
        cases hpc : (σ.tasks t).pc <;> rw [hpc] at ha <;> cases ha <;> rfl
      rw [hident] at hi
      cases hi
      exact absurd hn (h q)

theorem State.Stale.useless {σ : State} (hw : Wf σ) {i : Nat} (h : σ.Stale i) {t : Tid}
    (hi : (σ.tasks t).pc.ident = some i) : σ.Useless t i := by
  refine ⟨?_, h.not_linked_snd hw hi, ?_⟩
  · intro p hp
    obtain ⟨msq, hm, _⟩ := (ipc_lock_live hp).perm_isSome hw.tab
    exact ⟨msq, hm, h.checkid hw hp hm⟩
  · rintro a (⟨q, hpc⟩ | hpc)
    · rw [hpc] at hi
      exact h.not_linked hw (by rw [hpc]; rfl) (Option.some.inj hi)
    · exact hw.wait.rcv_null t a hpc

/-- A stretch with a useless identifier changes the task alone, as `staleNext`
says. -/
theorem exec_stale {σ : State} {t : Tid} {i : Nat} (hu : σ.Useless t i)
    (hi : (σ.tasks t).pc.ident = some i) (e : Env) : exec σ t e = staleExec σ t := by
  have hslot : ipc_lock σ.ids i = none ∨ ∃ p msq, ipc_lock σ.ids i = some p ∧
      σ.queues p = some msq ∧ ipc_checkid msq.q_perm i = true := by
    cases hl : ipc_lock σ.ids i with
    | none => exact .inl rfl
    | some p =>
        obtain ⟨msq, hm, hc⟩ := hu.slot p hl
        exact .inr ⟨p, msq, rfl, hm, hc⟩
  have hread : ∀ a : RcvArgs, (σ.tasks t).msr_d.r_msg ≠ .err .EAGAIN →
      rcvNull σ t a = σ.setPc t (readResult a (σ.tasks t).msr_d.r_msg) := by
    intro a hr
    unfold rcvNull
    split
    · rename_i m hm
      rw [hm]
      rfl
    · rename_i hm
      exact absurd hm hr
    · rename_i err _ hm
      rw [hm]
      rfl
  unfold exec staleExec staleNext
  cases hpc : (σ.tasks t).pc with
  | sndLock a m =>
      rw [hpc] at hi
      cases hi
      rcases hslot with hl | ⟨p, msq, hl, hm, hc⟩
      · simp [hl, refusal]
      · simp [hl, refusal, sndRetry, hm, hc]
  | sndSleep a m => rfl
  | sndRelock a m =>
      rw [hpc] at hi
      cases hi
      have hdel : ss_del σ t = σ := by
        unfold ss_del
        rw [hu.snd]
      rcases hslot with hl | ⟨p, msq, hl, hm, hc⟩
      · simp [sndRelock, hl]
      · cases hsig : (σ.tasks t).signal_pending with
        | true => simp [sndRelock, hl, hdel, hsig]
        | false => simp [sndRelock, hl, hdel, hsig, sndRetry, hm, hc]
  | rcvLock a =>
      rw [hpc] at hi
      cases hi
      rcases hslot with hl | ⟨p, msq, hl, hm, hc⟩
      · simp [hl, refusal]
      · simp [hl, refusal, rcvRetry, hm, hc]
  | rcvSleep a q => rfl
  | rcvRelock a q =>
      rw [hpc] at hi
      cases hi
      have hr := hu.rcv a (.inl ⟨q, hpc⟩)
      rcases hslot with hl | ⟨p, msq, hl, hm, hc⟩
      · simp [rcvRelock, hl]
      · simp only [rcvRelock, hl, Option.isNone_some, Bool.false_eq_true, if_false]
        split
        · rename_i m hm'
          rw [hm']
          rfl
        · rename_i hm'
          exact absurd hm' hr
        · rename_i err _ hm'
          rw [hm']
          rfl
  | rcvNull a =>
      have hr := hu.rcv a (.inr hpc)
      simp only [hread a hr]
  | ctlDown a => rfl
  | ctlLock a =>
      rw [hpc] at hi
      cases hi
      rcases hslot with hl | ⟨p, msq, hl, hm, hc⟩
      · simp [ctlBody, hl, refusal]
      · simp [ctlBody, hl, refusal, hm, hc]
  | statLock j cmd space =>
      rw [hpc] at hi
      unfold Pc.ident at hi
      simp only at hi
      split at hi
      · cases hi
      · rename_i hcmd
        cases hi
        rcases hslot with hl | ⟨p, msq, hl, hm, hc⟩
        · simp [statBody, hl, refusal]
        · simp [statBody, hl, refusal, hm, hc, hcmd]
  | _ => rw [hpc] at hi; cases hi

end RtaiDemos.Sysvmsg
