import RtaiDemos.Sysvmsg.Logic.Simulation

/-!
# One task among others

What the steps of other tasks may do to a task in the middle of a call: they
never move it, they leave `r_msg` alone unless it is linked as a receiver,
they never link it as a sender, and as long as it holds `ids->sem` they do not
change the table. With that, what a call returns is an induction over the run
from the call's first step (`incall_induct`).
-/

namespace RtaiDemos.Sysvmsg

/-- The task that moves. -/
def Label.task : Label → Tid
  | .call t _ _ | .exec t _ | .resume t | .signal t _ => t

/-! ## Tasks under foreign steps -/

/-- What no stretch of code changes in any task. -/
def Task.fixed (k : Task) : Cred × Bool × Nat := (k.cred, k.signal_pending, k.calls)

/-- What the step of another task may do to a task. -/
structure Task.Poked (k k' : Task) : Prop where
  pc : k'.pc = k.pc
  fixed : k'.fixed = k.fixed
  msr : k.rcvLinked = none → k'.msr_d = k.msr_d
  mss : k.mss_list = none → k'.mss_list = none

theorem Task.Poked.refl (k : Task) : k.Poked k := ⟨rfl, rfl, fun _ => rfl, id⟩

theorem Task.Poked.of_eq {k k' : Task} (h : k' = k) : k.Poked k' := by
  rw [h]
  exact .refl k

/-- A task linked nowhere stays so. -/
theorem Task.Poked.rcvLinked {k k' : Task} (h : k.Poked k') (hk : k.rcvLinked = none) :
    k'.rcvLinked = none := by
  unfold Task.rcvLinked at hk ⊢
  rw [h.msr hk, h.pc]
  exact hk

theorem Task.Poked.trans {k₁ k₂ k₃ : Task} (h₁ : k₁.Poked k₂) (h₂ : k₂.Poked k₃) :
    k₁.Poked k₃ := by
  refine ⟨h₂.pc.trans h₁.pc, h₂.fixed.trans h₁.fixed, ?_, fun h => h₂.mss (h₁.mss h)⟩
  intro h
  exact (h₂.msr (h₁.rcvLinked h)).trans (h₁.msr h)

/-- A sender that is woken, and perhaps struck off its list. -/
theorem Task.Poked.roused (k : Task) (kill : Bool) : k.Poked (k.roused kill) := by
  refine ⟨rfl, rfl, fun _ => rfl, ?_⟩
  intro h
  unfold Task.roused
  cases kill <;> simp [h]

/-- A linked receiver that is told something. -/
theorem Task.Poked.notified {k : Task} (h : k.rcvLinked.isSome) (r : RMsg) :
    k.Poked (k.notified r) := by
  refine ⟨rfl, rfl, ?_, id⟩
  intro hn
  rw [hn] at h
  cases h

/-- What the code of task `t` does to the tasks. -/
structure Moves (t : Tid) (k k' : Tid → Task) : Prop where
  own : (k' t).fixed = (k t).fixed
  other : ∀ u, u ≠ t → (k u).Poked (k' u)

namespace Moves

variable {t : Tid} {k k₁ k₂ : Tid → Task}

theorem refl (t : Tid) (k : Tid → Task) : Moves t k k := ⟨rfl, fun u _ => .refl (k u)⟩

theorem trans (h₁ : Moves t k k₁) (h₂ : Moves t k₁ k₂) : Moves t k k₂ :=
  ⟨h₂.own.trans h₁.own, fun u hu => (h₁.other u hu).trans (h₂.other u hu)⟩

/-- The task changes its own records. -/
theorem modT (σ : State) (t : Tid) (f : Task → Task) (h : ∀ k, (f k).fixed = k.fixed) :
    Moves t σ.tasks (σ.modT t f).tasks := by
  refine ⟨by simp [h], ?_⟩
  intro u hu
  exact .of_eq (by simp [hu])

theorem setPc {σ : State} (h : Moves t k σ.tasks) (pc : Pc) : Moves t k (σ.setPc t pc).tasks :=
  h.trans (modT σ t _ (fun _ => rfl))

theorem ss_wakeup {σ : State} (h : Moves t k σ.tasks) (kill : Bool) (l : List Tid) :
    Moves t k (ss_wakeup kill l σ).tasks := by
  refine h.trans ?_
  rw [ss_wakeup_eq]
  refine ⟨?_, ?_⟩
  · simp only
    split <;> rfl
  · intro u _
    simp only
    split
    · exact .roused _ _
    · exact .refl _

/-- Only linked receivers are told anything. -/
theorem expunge_all {σ : State} (h : Moves t k σ.tasks) (res : Errno) (l : List Tid)
    (hl : ∀ u ∈ l, u ≠ t → (σ.tasks u).rcvLinked.isSome) :
    Moves t k (expunge_all res l σ).tasks := by
  refine h.trans ?_
  rw [expunge_all_eq]
  refine ⟨?_, ?_⟩
  · simp only
    split <;> rfl
  · intro u hu
    simp only
    split
    · rename_i hmem
      exact .notified (hl u hmem hu) _
    · exact .refl _

end Moves

theorem notify_tasks (σ : State) (t u : Tid) (r : RMsg) :
    (notify σ t r).tasks u = if u = t then (σ.tasks t).notified r else σ.tasks u := by
  unfold notify wake_up_process
  rw [State.modT_modT, State.modT_tasks]
  rfl

/-- `pipelined_send` looks at each receiver once. -/
theorem pipelined_send_moves (q : QId) (m : Msg) (e : Env) (t : Tid) (l : List Tid) :
    ∀ σ : State, l.Nodup → (∀ u ∈ l, u ≠ t → (σ.tasks u).rcvLinked.isSome) →
      Moves t σ.tasks (pipelined_send q m e l σ).1.tasks := by
  induction l with
  | nil => exact fun σ _ _ => .refl t _
  | cons u rest ih =>
      intro σ hnd hl
      obtain ⟨hu, hrest⟩ := List.nodup_cons.mp hnd
      have hnot : ∀ r, Moves t σ.tasks (notify (r_list_del σ q u) u r).tasks := by
        intro r
        refine ⟨?_, ?_⟩
        · rw [notify_tasks]
          split
          · rename_i h
            rw [h]
            rfl
          · rfl
        · intro v hv
          rw [notify_tasks]
          split
          · rename_i h
            subst h
            exact .notified (hl v List.mem_cons_self hv) r
          · exact .refl _
      simp only [pipelined_send]
      split
      · split
        · refine (hnot _).trans (ih _ hrest ?_)
          intro v hv hvt
          have hne : v ≠ u := fun h => hu (h ▸ hv)
          rw [notify_tasks, if_neg hne]
          exact hl v (List.mem_cons_of_mem u hv) hvt
        · exact hnot _
      · exact ih σ hrest (fun v hv => hl v (List.mem_cons_of_mem u hv))

/-- The receivers other than `t` on the list of `q` are linked, each once. -/
def State.Listed (σ : State) (q : QId) (t : Tid) : Prop :=
  ∀ msq, σ.queues q = some msq →
    msq.q_receivers.Nodup ∧ ∀ u ∈ msq.q_receivers, u ≠ t → (σ.tasks u).rcvLinked.isSome

theorem WaitWf.listed {σ : State} (h : WaitWf σ) {q : QId} (hq : σ.Live q) (t : Tid) :
    σ.Listed q t := by
  intro msq hmsq
  refine ⟨h.rcv_nodup q msq hq hmsq, ?_⟩
  intro u hu _
  obtain ⟨a, ha⟩ := (h.rcv_linked q msq hq hmsq u).mp hu
  rw [ha]
  rfl

/-- The final part of `_rt_msgsnd`. -/
theorem deliver_moves {σ : State} {q : QId} {t : Tid} {msq : MsgQueue} (e : Env) (m : Msg)
    (h : σ.Listed q t) (hq : σ.queues q = some msq) :
    Moves t σ.tasks (deliver σ t e m q msq.q_receivers).tasks := by
  obtain ⟨hnd, hl⟩ := h msq hq
  unfold deliver
  simp only
  have hsend := pipelined_send_moves q m e t msq.q_receivers (σ.modQ q fun msq =>
    { msq with q_lspid := (σ.tasks t).cred.pid, q_stime := e.now }) hnd hl
  revert hsend
  generalize pipelined_send q m e msq.q_receivers _ = r
  obtain ⟨σ₁, sent⟩ := r
  intro hsend
  cases sent
  · exact hsend
  · exact hsend

theorem sndRetry_moves {σ : State} {q : QId} {t : Tid} (e : Env) (a : SndArgs) (m : Msg)
    (h : σ.Listed q t) : Moves t σ.tasks (sndRetry σ t e a m q).tasks := by
  unfold sndRetry
  split
  · exact .refl t _
  · rename_i msq hq
    have hadd : Moves t σ.tasks (ss_add σ q t).tasks :=
      .modT σ t (fun k => { k with mss_list := some q, woken := false }) (fun _ => rfl)
    split
    · exact .setPc (.refl t _) _
    · split
      · exact .setPc (.refl t _) _
      · split
        · split
          · exact .setPc (.refl t _) _
          · exact hadd.setPc _
        · exact (deliver_moves e m h hq).setPc _

theorem rcvRetry_moves (σ : State) (q : QId) (t : Tid) (e : Env) (a : RcvArgs) :
    Moves t σ.tasks (rcvRetry σ t e a q).tasks := by
  have hunlink : ∀ m senders, Moves t σ.tasks (unlink σ t e q m senders).tasks := by
    intro m senders
    unfold unlink
    refine Moves.ss_wakeup ?_ false senders
    exact .refl t _
  have hlink : Moves t σ.tasks (rcvLink σ t a q).tasks := by
    unfold rcvLink
    rw [State.modQ_tasks]
    refine .modT σ t _ ?_
    intro k
    rfl
  unfold rcvRetry
  split
  · exact .refl t _
  · split
    · exact .setPc (.refl t _) _
    · split
      · exact .setPc (.refl t _) _
      · split
        · split
          · exact .setPc (.refl t _) _
          · exact (hunlink _ _).setPc _
        · split
          · exact .setPc (.refl t _) _
          · exact hlink.setPc _

theorem ss_del_tasks (σ : State) (t u : Tid) (hu : u ≠ t) : (ss_del σ t).tasks u = σ.tasks u := by
  rcases ss_del_cases σ t with ⟨o, heq⟩ | ⟨q, heq⟩
  · rw [heq]
  · rw [heq]
    simp [hu]

theorem ss_del_moves (σ : State) (t : Tid) : Moves t σ.tasks (ss_del σ t).tasks := by
  refine ⟨?_, fun u hu => .of_eq (ss_del_tasks σ t u hu)⟩
  rcases ss_del_cases σ t with ⟨o, heq⟩ | ⟨q, heq⟩
  · rw [heq]
  · rw [heq]
    simp [Task.fixed]

/-- `ss_del` changes no list of receivers. -/
theorem ss_del_listed {σ : State} {q : QId} {t : Tid} (h : σ.Listed q t) :
    (ss_del σ t).Listed q t := by
  intro msq' hq'
  have hlist : ∃ msq, σ.queues q = some msq ∧ msq'.q_receivers = msq.q_receivers := by
    rcases ss_del_cases σ t with ⟨o, heq⟩ | ⟨q', heq⟩
    · rw [heq] at hq'
      exact ⟨msq', hq', rfl⟩
    · rw [heq, State.modQ_queues] at hq'
      split at hq'
      · rename_i hqq
        obtain ⟨msq, hm, rfl⟩ := Option.map_eq_some_iff.mp hq'
        rw [hqq]
        exact ⟨msq, hm, rfl⟩
      · exact ⟨msq', hq', rfl⟩
  obtain ⟨msq, hq, he⟩ := hlist
  obtain ⟨hnd, hl⟩ := h msq hq
  rw [he]
  refine ⟨hnd, ?_⟩
  intro u hu hut
  rw [ss_del_tasks σ t u hut]
  exact hl u hu hut

theorem sndRelock_moves {σ : State} {t : Tid} (e : Env) (a : SndArgs) (m : Msg)
    (h : ∀ q, σ.Live q → σ.Listed q t) : Moves t σ.tasks (sndRelock σ t e a m).tasks := by
  unfold sndRelock
  split
  · exact .setPc (.refl t _) _
  · rename_i q hlock
    simp only
    split
    · exact (ss_del_moves σ t).setPc _
    · exact (ss_del_moves σ t).trans (sndRetry_moves e a m (ss_del_listed (h q (ipc_lock_live hlock))))

theorem rcvRelock_moves (σ : State) (t : Tid) (e : Env) (a : RcvArgs) (q : QId) :
    Moves t σ.tasks (rcvRelock σ t e a q).tasks := by
  unfold rcvRelock
  split
  · exact .setPc (.refl t _) _
  · split
    · exact .setPc (.refl t _) _
    · split
      · exact .refl t _
      · split
        · simp only
          split
          · exact .setPc (.refl t _) _
          · exact rcvRetry_moves (r_list_del σ q t) q t e a
        · exact .refl t _
    · exact .setPc (.refl t _) _

theorem ctlBody_moves {σ : State} (hw : Wf σ) (t : Tid) (e : Env) (a : CtlArgs) :
    Moves t σ.tasks (ctlBody σ t e a).tasks := by
  have hlinked : ∀ q msq, σ.Live q → σ.queues q = some msq →
      ∀ u ∈ msq.q_receivers, u ≠ t → (σ.tasks u).rcvLinked.isSome :=
    fun q msq hq hm => (hw.wait.listed hq t msq hm).2
  have hfree : Moves t σ.tasks (freeque σ t a.msqid).tasks := by
    unfold freeque
    split
    · exact .refl t _
    · rename_i ids q hrm
      split
      · exact .refl t _
      · rename_i msq hm
        have hlive : σ.Live q := ⟨_, (ipc_rmid_spec hrm).1⟩
        refine ((Moves.expunge_all ?_ .EIDRM msq.q_receivers ?_).ss_wakeup true _).setPc _
        · exact .refl t _
        · exact hlinked q msq hlive hm
  unfold ctlBody
  split
  · exact .setPc (.refl t _) _
  · rename_i q hlock
    split
    · exact .refl t _
    · rename_i msq hm
      simp only
      split
      · exact .setPc (.refl t _) _
      · split
        · exact .setPc (.refl t _) _
        · split
          · split
            · exact .setPc (.refl t _) _
            · unfold ipcSet
              refine ((Moves.expunge_all ?_ .EAGAIN msq.q_receivers ?_).ss_wakeup false _).setPc _
              · exact .refl t _
              · exact hlinked q msq (ipc_lock_live hlock) hm
          · exact hfree

/-- The code of a task moves no other task. -/
theorem exec_moves {σ σ' : State} (hw : Wf σ) {t : Tid} {e : Env} (h : exec σ t e = some σ') :
    Moves t σ.tasks σ'.tasks := by
  have hself : ∀ {σ₁ : State} {pc : Pc}, σ₁.tasks = σ.tasks →
      Moves t σ.tasks (σ₁.setPc t pc).tasks := by
    intro σ₁ pc h₁
    refine .setPc ?_ pc
    rw [h₁]
    exact .refl t _
  have hlisted : ∀ q, σ.Live q → σ.Listed q t := fun q hq => hw.wait.listed hq t
  unfold exec at h
  split at h
  · cases h
  · cases h
  · cases h
  · split at h
    · cases h
      exact hself rfl
    · rename_i hlock
      cases h
      exact sndRetry_moves e _ _ (hlisted _ (ipc_lock_live hlock))
  · cases h
    exact sndRelock_moves e _ _ hlisted
  · cases h
    exact hself rfl
  · split at h
    · cases h
      exact hself rfl
    · cases h
      exact rcvRetry_moves _ _ _ _ _
  · cases h
    exact rcvRelock_moves _ _ _ _ _
  · cases h
    unfold rcvNull
    split
    · exact hself rfl
    · exact .refl t _
    · exact hself rfl
  · cases h
    exact hself rfl
  · unfold down at h
    split at h
    · cases h
      exact hself rfl
    · cases h
  · cases h
    exact ctlBody_moves hw _ _ _
  · cases h
    unfold freeStep
    split
    · exact hself rfl
    · split
      · exact .refl t _
      · exact hself rfl
  · cases h
    unfold statBody
    split
    · exact hself rfl
    · split
      · exact .refl t _
      · split
        · exact hself rfl
        · split
          · exact hself rfl
          · split
            · exact hself rfl
            · exact hself rfl
  · unfold down at h
    split at h
    · cases h
      exact hself rfl
    · cases h
  · cases h
    exact hself rfl
  · unfold down at h
    split at h
    · cases h
      exact hself rfl
    · cases h
  · cases h
    unfold getFind
    split
    · exact hself rfl
    · split
      · split
        · exact hself rfl
        · exact hself rfl
      · split
        · exact hself rfl
        · exact hself rfl
  · split at h
    · cases h
      exact hself rfl
    · cases h
      exact hself rfl
  · cases h
    exact hself rfl
  · cases h
    unfold newque
    simp only
    split
    · exact hself rfl
    · exact hself rfl
  · cases h
    unfold getLock
    split
    · exact .refl t _
    · split
      · exact .refl t _
      · split
        · exact hself rfl
        · exact hself rfl
  · cases h
    exact hself rfl

theorem resume_moves {σ σ' : State} {t : Tid} (h : resume σ t = some σ') :
    Moves t σ.tasks σ'.tasks := by
  unfold resume at h
  split at h
  · cases h
    exact .setPc (.refl t _) _
  · cases h
    exact .setPc (.refl t _) _
  · cases h

/-! ## The table under foreign steps -/

/-- The table, and the slots given out so far. -/
def State.table (σ : State) : IpcIds × List Nat := (σ.ids, σ.hist.slots)

/-- What sending and receiving leave alone under the lock: the table, the slots
given out so far, the messages freed so far. -/
def State.steady (σ : State) : IpcIds × List Nat × List Msg :=
  (σ.ids, σ.hist.slots, σ.hist.freed)

theorem State.table_of_steady {σ σ' : State} (h : σ'.steady = σ.steady) : σ'.table = σ.table :=
  congrArg (fun x => (x.1, x.2.1)) h

theorem pipelined_send_steady (q : QId) (m : Msg) (e : Env) (l : List Tid) :
    ∀ σ : State, (pipelined_send q m e l σ).1.steady = σ.steady := by
  induction l with
  | nil => exact fun _ => rfl
  | cons u rest ih =>
      intro σ
      simp only [pipelined_send]
      split
      · split
        · exact ih _
        · rfl
      · exact ih σ

theorem ss_wakeup_steady (kill : Bool) (l : List Tid) (σ : State) :
    (ss_wakeup kill l σ).steady = σ.steady := by
  rw [ss_wakeup_eq]
  rfl

theorem ss_del_steady (σ : State) (t : Tid) : (ss_del σ t).steady = σ.steady := by
  rcases ss_del_cases σ t with ⟨o, heq⟩ | ⟨q, heq⟩
  · rw [heq]
    rfl
  · rw [heq]
    rfl

theorem sndRetry_steady (σ : State) (t : Tid) (e : Env) (a : SndArgs) (m : Msg) (q : QId) :
    (sndRetry σ t e a m q).steady = σ.steady := by
  have hdel : ∀ l, (deliver σ t e m q l).steady = σ.steady := by
    intro l
    unfold deliver
    simp only
    have hsend := pipelined_send_steady q m e l (σ.modQ q fun msq =>
      { msq with q_lspid := (σ.tasks t).cred.pid, q_stime := e.now })
    revert hsend
    generalize pipelined_send q m e l _ = r
    obtain ⟨σ₁, sent⟩ := r
    intro hsend
    cases sent
    · exact hsend
    · exact hsend
  unfold sndRetry
  split
  · rfl
  · split
    · rfl
    · split
      · rfl
      · split
        · split
          · rfl
          · rfl
        · exact hdel _

theorem rcvRetry_steady (σ : State) (t : Tid) (e : Env) (a : RcvArgs) (q : QId) :
    (rcvRetry σ t e a q).steady = σ.steady := by
  unfold rcvRetry
  split
  · rfl
  · split
    · rfl
    · split
      · rfl
      · split
        · split
          · rfl
          · show (ss_wakeup false _ _).steady = σ.steady
            rw [ss_wakeup_steady]
            rfl
        · split
          · rfl
          · rfl

theorem sndRelock_steady (σ : State) (t : Tid) (e : Env) (a : SndArgs) (m : Msg) :
    (sndRelock σ t e a m).steady = σ.steady := by
  unfold sndRelock
  split
  · rfl
  · simp only
    split
    · exact ss_del_steady σ t
    · rw [sndRetry_steady, ss_del_steady]

theorem rcvRelock_steady (σ : State) (t : Tid) (e : Env) (a : RcvArgs) (q : QId) :
    (rcvRelock σ t e a q).steady = σ.steady := by
  unfold rcvRelock
  split
  · rfl
  · split
    · rfl
    · split
      · rfl
      · split
        · simp only
          split
          · rfl
          · exact rcvRetry_steady (r_list_del σ q t) t e a q
        · rfl
    · rfl

/-- Only the holder of `ids->sem` changes the table. -/
theorem exec_table {σ σ' : State} {t : Tid} {e : Env} (h : exec σ t e = some σ')
    (hs : (σ.tasks t).pc.holdsSem = false) : σ'.table = σ.table := by
  have hdown : ∀ pc, down σ t pc = some σ' → σ'.table = σ.table := by
    intro pc hd
    unfold down at hd
    split at hd
    · cases hd
      rfl
    · cases hd
  unfold exec at h
  cases hpc : (σ.tasks t).pc with
  | idle r => rw [hpc] at h; cases h
  | sndSleep a m => rw [hpc] at h; cases h
  | rcvSleep a q => rw [hpc] at h; cases h
  | sndLock a m =>
      rw [hpc] at h
      simp only at h
      split at h
      · cases h
        rfl
      · cases h
        exact State.table_of_steady (sndRetry_steady _ _ _ _ _ _)
  | sndRelock a m =>
      rw [hpc] at h
      cases h
      exact State.table_of_steady (sndRelock_steady _ _ _ _ _)
  | sndFree err m =>
      rw [hpc] at h
      cases h
      rfl
  | rcvLock a =>
      rw [hpc] at h
      simp only at h
      split at h
      · cases h
        rfl
      · cases h
        exact State.table_of_steady (rcvRetry_steady _ _ _ _ _)
  | rcvRelock a q =>
      rw [hpc] at h
      cases h
      exact State.table_of_steady (rcvRelock_steady _ _ _ _ _)
  | rcvNull a =>
      rw [hpc] at h
      cases h
      unfold rcvNull
      split <;> rfl
  | rcvCopy a m =>
      rw [hpc] at h
      cases h
      rfl
  | ctlDown a => rw [hpc] at h; exact hdown _ h
  | infoDown cmd space => rw [hpc] at h; exact hdown _ h
  | getDown key flg => rw [hpc] at h; exact hdown _ h
  | statLock i cmd space =>
      rw [hpc] at h
      cases h
      unfold statBody
      split
      · rfl
      · split
        · rfl
        · split
          · rfl
          · split
            · rfl
            · split <;> rfl
  | ctlLock a | ctlFree q rest | infoRead cmd space | getFind key flg | getNew key flg
  | getGrow key flg | getAdd key flg size | getLock id flg | semUp r =>
      rw [hpc] at hs
      cases hs

/-! ## One step, seen from one task -/

/-- What a step is to task `t` when it does not begin a call of `t`. -/
inductive Turn (t : Tid) (σ σ' : State) : Prop
  /-- Another task moves. -/
  | foreign (poked : (σ.tasks t).Poked (σ'.tasks t))
      (table : (σ.tasks t).pc.holdsSem = true → σ'.table = σ.table)
  /-- The task executes its next stretch. -/
  | code (e : Env) (exec : exec σ t e = some σ')
  /-- The task returns from `schedule`. -/
  | back (resume : resume σ t = some σ')
  /-- A signal is posted to the task, or taken. -/
  | signal (pending : Bool) (eq : σ' = σ.modT t fun k => { k with signal_pending := pending })

/-- The code of a call before its first lock moves the caller only. -/
theorem enter_eq (P : Params) (σ : State) (t : Tid) (e : Env) (c : Call) :
    ∃ n pc, enter P σ t e c = { σ with nextMsg := n }.setPc t pc := by
  unfold enter
  split
  · split_ifs
    all_goals exact ⟨_, _, rfl⟩
  · split
    · exact ⟨_, _, rfl⟩
    · exact ⟨_, _, rfl⟩
  · split
    · exact ⟨_, _, rfl⟩
    · split
      all_goals first | exact ⟨_, _, rfl⟩ | (split <;> exact ⟨_, _, rfl⟩)
  · exact ⟨_, _, rfl⟩

/-- A step, read off its label. -/
theorem step_cases {P : Params} {σ σ' : State} {l : Label} (h : step P σ l = some σ') :
    (∃ t c e r, l = .call t c e ∧ (σ.tasks t).pc = .idle r ∧
      σ' = enter P (σ.modT t fun k => { k with calls := k.calls + 1 }) t e c) ∨
    (∃ t e, l = .exec t e ∧ exec σ t e = some σ') ∨
    (∃ t, l = .resume t ∧ resume σ t = some σ') ∨
    (∃ t b, l = .signal t b ∧ σ' = σ.modT t fun k => { k with signal_pending := b }) := by
  unfold step at h
  split at h
  · cases h
  · cases l with
    | call t c e =>
        simp only at h
        split at h
        · rename_i r hpc
          cases h
          exact .inl ⟨t, c, e, r, rfl, hpc, rfl⟩
        · cases h
    | exec t e => exact .inr (.inl ⟨t, e, rfl, h⟩)
    | resume t => exact .inr (.inr (.inl ⟨t, rfl, h⟩))
    | signal t b =>
        cases h
        exact .inr (.inr (.inr ⟨t, b, rfl, rfl⟩))

/-- The call counter of the caller goes up, and nothing else that is fixed. -/
theorem call_tasks (P : Params) (σ : State) (t : Tid) (e : Env) (c : Call) :
    (∀ u, u ≠ t →
      (enter P (σ.modT t fun k => { k with calls := k.calls + 1 }) t e c).tasks u = σ.tasks u) ∧
    ((enter P (σ.modT t fun k => { k with calls := k.calls + 1 }) t e c).tasks t).calls =
      (σ.tasks t).calls + 1 := by
  obtain ⟨n, pc, he⟩ := enter_eq P (σ.modT t fun k => { k with calls := k.calls + 1 }) t e c
  rw [he]
  refine ⟨?_, by simp⟩
  intro u hu
  simp [hu]

/-- The step of another task. -/
theorem step_other {P : Params} {σ σ' : State} {l : Label} (hw : Wf σ)
    (h : step P σ l = some σ') {u : Tid} (hu : l.task ≠ u) : (σ.tasks u).Poked (σ'.tasks u) := by
  rcases step_cases h with ⟨t, c, e, r, rfl, -, rfl⟩ | ⟨t, e, rfl, hx⟩ | ⟨t, rfl, hx⟩ |
    ⟨t, b, rfl, rfl⟩
  · exact .of_eq ((call_tasks P σ t e c).1 u (Ne.symm hu))
  · exact (exec_moves hw hx).other u (Ne.symm hu)
  · exact (resume_moves hx).other u (Ne.symm hu)
  · exact .of_eq (by simp [Ne.symm (show t ≠ u from hu)])

/-- A step of a task that does not hold `ids->sem` leaves the table alone. -/
theorem step_table {P : Params} {σ σ' : State} {l : Label} (h : step P σ l = some σ')
    (hs : (σ.tasks l.task).pc.holdsSem = false) : σ'.table = σ.table := by
  rcases step_cases h with ⟨t, c, e, r, rfl, -, rfl⟩ | ⟨t, e, rfl, hx⟩ | ⟨t, rfl, hx⟩ |
    ⟨t, b, rfl, rfl⟩
  · obtain ⟨n, pc, he⟩ := enter_eq P (σ.modT t fun k => { k with calls := k.calls + 1 }) t e c
    rw [he]
    rfl
  · exact exec_table hx hs
  · unfold resume at hx
    split at hx
    · cases hx
      rfl
    · cases hx
      rfl
    · cases hx
  · rfl

/-- A task's calls are counted up. -/
theorem step_calls_le {P : Params} {σ σ' : State} {l : Label} (hw : Wf σ)
    (h : step P σ l = some σ') (t : Tid) : (σ.tasks t).calls ≤ (σ'.tasks t).calls := by
  by_cases ht : l.task = t
  · rcases step_cases h with ⟨u, c, e, r, rfl, -, rfl⟩ | ⟨u, e, rfl, hx⟩ | ⟨u, rfl, hx⟩ |
      ⟨u, b, rfl, rfl⟩
    · have hut : u = t := ht
      subst hut
      rw [(call_tasks P σ u e c).2]
      omega
    · have hut : u = t := ht
      subst hut
      exact Nat.le_of_eq (congrArg (·.2.2) (exec_moves hw hx).own).symm
    · have hut : u = t := ht
      subst hut
      exact Nat.le_of_eq (congrArg (·.2.2) (resume_moves hx).own).symm
    · have hut : u = t := ht
      subst hut
      simp
  · exact Nat.le_of_eq (congrArg (·.2.2) (step_other hw h ht).fixed).symm

/-- A step that does not begin a call of `t` is one of its turns. -/
theorem step_turn {P : Params} {σ σ' : State} {l : Label} (hw : Wf σ)
    (h : step P σ l = some σ') {t : Tid} (hc : (σ'.tasks t).calls = (σ.tasks t).calls) :
    Turn t σ σ' := by
  by_cases ht : l.task = t
  · rcases step_cases h with ⟨u, c, e, r, rfl, -, rfl⟩ | ⟨u, e, rfl, hx⟩ | ⟨u, rfl, hx⟩ |
      ⟨u, b, rfl, rfl⟩
    · have hut : u = t := ht
      subst hut
      rw [(call_tasks P σ u e c).2] at hc
      omega
    · have hut : u = t := ht
      subst hut
      exact .code e hx
    · have hut : u = t := ht
      subst hut
      exact .back hx
    · have hut : u = t := ht
      subst hut
      exact .signal b rfl
  · refine .foreign (step_other hw h ht) ?_
    intro hs
    refine step_table h ?_
    cases hl : (σ.tasks l.task).pc.holdsSem with
    | false => rfl
    | true => exact absurd (hw.tab.sem_unique hl hs) ht

theorem step_reachable {P : Params} {σ σ' : State} {l : Label} (hr : (machine P).Reachable σ)
    (h : step P σ l = some σ') : (machine P).Reachable σ' :=
  TSys.ReachableBy.step (a := l) hr trivial h

/-- The call counter never goes down in a run. -/
theorem steps_calls_le {P : Params} {σ σ₁ : State} (hr : (machine P).Reachable σ)
    (h : (machine P).Steps σ σ₁) (t : Tid) : (σ.tasks t).calls ≤ (σ₁.tasks t).calls := by
  induction h with
  | refl => exact Nat.le_refl _
  | tail hto hstep ih =>
      obtain ⟨l, hl⟩ := hstep
      exact Nat.le_trans ih (step_calls_le (wf_invariant P _ (hr.steps hto)) hl t)

/-- The rule for one call: what every turn of `t` preserves holds to the end
of the call. -/
theorem incall_induct {P : Params} {t : Tid} {I : State → Prop}
    (hturn : ∀ σ σ', (machine P).Reachable σ → I σ → (machine P).Step σ σ' → Turn t σ σ' → I σ')
    {σ σ₁ : State} (hr : (machine P).Reachable σ) (hi : I σ) (h : (machine P).Steps σ σ₁)
    (hc : (σ₁.tasks t).calls = (σ.tasks t).calls) : I σ₁ := by
  induction h with
  | refl => exact hi
  | @tail σ₁ σ₂ hto hstep ih =>
      obtain ⟨l, hl⟩ := hstep
      have hr₁ := hr.steps hto
      have hw := wf_invariant P _ hr₁
      have h₁ := steps_calls_le hr hto t
      have h₂ := step_calls_le hw hl t
      have hmid : (σ₁.tasks t).calls = (σ.tasks t).calls := by omega
      exact hturn _ _ hr₁ (ih hmid) ⟨l, hl⟩ (step_turn hw hl (by omega))

end RtaiDemos.Sysvmsg
