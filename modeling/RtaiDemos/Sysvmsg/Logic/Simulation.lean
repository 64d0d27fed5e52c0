import RtaiDemos.Sysvmsg.Logic.EffectWait

/-!
# The code simulates the effects

Every step of the machine is a sequence of effects (`step_effects`), so every
reachable state is well-formed (`wf_invariant`) and no kernel failure is
reachable. Where the code wakes senders after it has changed the queue, the
wake-ups are taken first: nothing under the lock looks at them.
-/

namespace RtaiDemos.Sysvmsg

/-! ## Moving a task between two updates -/

theorem State.setPc_setPc (σ : State) (t : Tid) (pc pc' : Pc) :
    (σ.setPc t pc).setPc t pc' = σ.setPc t pc' := by
  unfold State.setPc
  rw [State.modT_modT]

theorem State.log_ret_setPc (σ : State) (t : Tid) (pc : Pc) (g : History → History) (r : Ret) :
    ((σ.setPc t pc).log g).ret t r = (σ.log g).ret t r := by
  have hlog : (σ.setPc t pc).log g = (σ.log g).setPc t pc := rfl
  rw [hlog]
  exact State.setPc_setPc _ _ _ _

/-- An update that neither reads nor writes `pc` commutes with a move. -/
theorem State.modT_setPc (σ : State) (t u : Tid) (pc : Pc) (f : Task → Task)
    (hf : ∀ k : Task, f { k with pc := pc } = { f k with pc := pc }) :
    (σ.setPc t pc).modT u f = (σ.modT u f).setPc t pc := by
  unfold State.setPc State.modT
  simp only [State.mk.injEq, true_and, and_true]
  funext v
  by_cases hu : u = t
  · subst hu
    by_cases hv : v = u
    · subst hv
      simp [hf]
    · simp [hv]
  · by_cases hv : v = u
    · subst hv
      simp [hu]
    · by_cases hvt : v = t
      · subst hvt
        simp [hv]
      · simp [hv, hvt]

theorem notify_setPc (σ : State) (t u : Tid) (pc : Pc) (r : RMsg) :
    notify (σ.setPc t pc) u r = (notify σ u r).setPc t pc := by
  unfold notify wake_up_process
  rw [State.modT_setPc, State.modT_setPc]
  · intro k; rfl
  · intro k; rfl

/-- Where the sender stands does not matter to `pipelined_send`. -/
theorem pipelined_send_setPc (q : QId) (m : Msg) (e : Env) (t : Tid) (pc : Pc) (l : List Tid) :
    ∀ σ : State, pipelined_send q m e l (σ.setPc t pc) =
      ((pipelined_send q m e l σ).1.setPc t pc, (pipelined_send q m e l σ).2) := by
  induction l with
  | nil => intro σ; rfl
  | cons u rest ih =>
      intro σ
      have hu : ((σ.setPc t pc).tasks u).msr_d = (σ.tasks u).msr_d := by
        rw [State.setPc_tasks]
        split
        · rename_i h; rw [h]
        · rfl
      have hdel : r_list_del (σ.setPc t pc) q u = (r_list_del σ q u).setPc t pc := rfl
      simp only [pipelined_send, hu, hdel, notify_setPc, ih]
      split
      · split
        · rfl
        · have hc : (((notify (r_list_del σ q u) u (.msg m)).setPc t pc).tasks u).cred.pid =
              ((notify (r_list_del σ q u) u (.msg m)).tasks u).cred.pid := by
            rw [State.setPc_tasks]
            split
            · rename_i h; rw [h]
            · rfl
          rw [hc]
          rfl
      · rfl

theorem setPc_cred (σ : State) (t u : Tid) (pc : Pc) :
    ((σ.setPc t pc).tasks u).cred = (σ.tasks u).cred := by
  rw [State.setPc_tasks]
  split
  · rename_i h; rw [h]
  · rfl

/-- Where the sender stood before `retry` does not matter. -/
theorem sndRetry_setPc (σ : State) (t : Tid) (e : Env) (a : SndArgs) (m : Msg) (q : QId) (pc : Pc)
    (hq : (σ.queues q).isSome) :
    sndRetry (σ.setPc t pc) t e a m q = sndRetry σ t e a m q := by
  obtain ⟨msq, hmsq⟩ := Option.isSome_iff_exists.mp hq
  have hadd : ss_add (σ.setPc t pc) q t = (ss_add σ q t).setPc t pc := by
    unfold ss_add
    rw [State.modT_setPc]
    · rfl
    · intro k; rfl
  have hdel : (deliver (σ.setPc t pc) t e m q msq.q_receivers).ret t (.ok 0) =
      (deliver σ t e m q msq.q_receivers).ret t (.ok 0) := by
    have hstamp : ((σ.setPc t pc).modQ q fun msq =>
        { msq with q_lspid := ((σ.setPc t pc).tasks t).cred.pid, q_stime := e.now }) =
        (σ.modQ q fun msq =>
          { msq with q_lspid := (σ.tasks t).cred.pid, q_stime := e.now }).setPc t pc := by
      rw [setPc_cred]
      rfl
    unfold deliver
    simp only [hstamp, pipelined_send_setPc]
    generalize pipelined_send q m e msq.q_receivers _ = r
    obtain ⟨σ₁, sent⟩ := r
    cases sent
    · have henq : enqueue (σ₁.setPc t pc) q m = (enqueue σ₁ q m).setPc t pc := rfl
      simp only [Bool.false_eq_true, if_false, henq]
      exact State.log_ret_setPc _ _ _ _ _
    · exact State.log_ret_setPc _ _ _ _ _
  unfold sndRetry
  simp only [State.setPc_queues, hmsq, setPc_cred, hadd, hdel, State.setPc_setPc]

/-- Where the receiver stood before `retry` does not matter. -/
theorem rcvRetry_setPc (σ : State) (t : Tid) (e : Env) (a : RcvArgs) (q : QId) (pc : Pc)
    (hq : (σ.queues q).isSome) : rcvRetry (σ.setPc t pc) t e a q = rcvRetry σ t e a q := by
  obtain ⟨msq, hmsq⟩ := Option.isSome_iff_exists.mp hq
  have hlink : rcvLink (σ.setPc t pc) t a q = (rcvLink σ t a q).setPc t pc := by
    unfold rcvLink
    rw [State.modT_setPc]
    · rfl
    · intro k; rfl
  have hunlink : ∀ m pc', (unlink (σ.setPc t pc) t e q m msq.q_senders).setPc t pc' =
      (unlink σ t e q m msq.q_senders).setPc t pc' := by
    intro m pc'
    unfold unlink
    simp only [setPc_cred, ss_wakeup_eq]
    simp only [State.setPc, State.modT, State.modQ, State.log, State.mk.injEq, true_and, and_true]
    funext u
    by_cases hu : u = t
    · subst hu
      by_cases hs : u ∈ msq.q_senders <;> simp [hs, Task.roused]
    · by_cases hs : u ∈ msq.q_senders <;> simp [hs, hu]
  unfold rcvRetry
  simp only [State.setPc_queues, hmsq, setPc_cred, hlink, hunlink, State.setPc_setPc,
    State.ret_eq]

/-! ## Wake-ups -/

/-- Waking senders is a sequence of touches. -/
theorem ss_wakeup_effects (l : List Tid) : ∀ σ : State, Effects σ (ss_wakeup false l σ) := by
  induction l with
  | nil => exact fun σ => .refl
  | cons u rest ih =>
      intro σ
      exact .head (.touch u (fun k => { k with woken := true }) rfl rfl rfl (fun _ => rfl))
        (ih (wake_up_process σ u))

/-- Telling receivers `-EAGAIN` when that is what they have is a sequence of
touches. -/
theorem expunge_all_effects (l : List Tid) :
    ∀ σ : State, (∀ u ∈ l, (σ.tasks u).msr_d.r_msg = .err .EAGAIN) →
      Effects σ (expunge_all .EAGAIN l σ) := by
  induction l with
  | nil => exact fun σ _ => .refl
  | cons u rest ih =>
      intro σ hl
      have hu := hl u List.mem_cons_self
      have hnot : notify σ u (.err .EAGAIN) = σ.modT u (·.notified (.err .EAGAIN)) := by
        unfold notify wake_up_process
        rw [State.modT_modT]
        rfl
      refine .head (.touch u (·.notified (.err .EAGAIN)) rfl ?_ rfl (fun _ => rfl)) ?_
      · simp only [Task.notified, ← hu]
      · rw [expunge_all, hnot]
        refine ih _ ?_
        intro v hv
        rw [State.modT_tasks]
        split
        · rfl
        · exact hl v (List.mem_cons_of_mem u hv)

/-- After `ss_wakeup` every sender on the list is awake. -/
theorem ss_wakeup_woken (l : List Tid) (σ : State) (u : Tid) (hu : u ∈ l) :
    ((ss_wakeup false l σ).tasks u).woken = true := by
  simp [ss_wakeup_eq, hu, Task.roused]

/-! ## Moves -/

theorem Pc.plain_owned {pc : Pc} (h : pc.plain = true) : pc.owned = none := by
  cases pc <;> first | rfl | cases h

theorem Pc.plain_freeing {pc : Pc} (h : pc.plain = true) : pc.freeing = none := by
  cases pc <;> first | rfl | cases h

theorem Pc.plain_awake {pc : Pc} (h : pc.plain = true) : pc.asleep = false := by
  cases pc <;> first | rfl | cases h

theorem Task.held_plain {k : Task} (h : k.pc.plain = true) : k.held = none := by
  unfold Task.held
  cases hpc : k.pc <;> first | rfl | (rw [hpc] at h; cases h)

/-- A move from one plain point to another. -/
theorem Effect.plain {σ : State} (hw : WaitWf σ) (t : Tid) (pc : Pc)
    (hold : (σ.tasks t).pc.plain = true) (hnew : pc.plain = true)
    (hsem : pc.holdsSem = (σ.tasks t).pc.holdsSem) (htab : σ.TableOk pc) :
    Effect σ (σ.setPc t pc) := by
  refine .quiet t pc ?_ ?_ ?_ ?_ ?_ hsem ?_ htab (Pc.plain_awake hnew)
    (.inl (Pc.plain_rcvWaiting hnew))
  · rw [Task.rcvLinked_none (Pc.plain_rcvWaiting hold),
      Task.rcvLinked_none (Pc.plain_rcvWaiting hnew)]
  · exact fun a ha => absurd ha (Pc.plain_not_null hnew a)
  · exact .inl (hw.mss_none (Pc.plain_sndWaiting hold))
  · exact .inl (Pc.plain_owned hnew)
  · rw [Task.held_plain hold, Task.held_plain hnew]
  · rw [Pc.plain_freeing hold, Pc.plain_freeing hnew]

/-- A sender that is linked nowhere goes on with its message, or drops it. -/
theorem Effect.sender {σ : State} (t : Tid) (pc : Pc) {m : Msg}
    (hold : (σ.tasks t).pc.owned = some m) (hmss : (σ.tasks t).mss_list = none)
    (hnew : pc.owned = some m ∨ ∃ r, pc = .idle r) (hawake : pc.asleep = false) :
    Effect σ (σ.setPc t pc) := by
  have hpc : pc.rcvWaiting = none ∧ pc.holdsSem = false ∧ pc.freeing = none ∧
      (∀ a, pc ≠ .rcvNull a) ∧ (pc.owned = none ∨ pc.owned = (σ.tasks t).pc.owned) ∧
      σ.TableOk pc ∧ ({ σ.tasks t with pc := pc } : Task).held = none := by
    rw [hold]
    rcases hnew with h | ⟨r, rfl⟩
    · cases pc <;> first
        | exact ⟨rfl, rfl, rfl, fun _ hn => (by cases hn), .inr h, trivial, rfl⟩
        | cases h
    · exact ⟨rfl, rfl, rfl, by simp, .inl rfl, trivial, rfl⟩
  have hpc' : (σ.tasks t).pc.rcvWaiting = none ∧ (σ.tasks t).pc.holdsSem = false ∧
      (σ.tasks t).pc.freeing = none ∧ (σ.tasks t).held = none := by
    unfold Task.held
    cases h : (σ.tasks t).pc <;> first
      | exact ⟨rfl, rfl, rfl, rfl⟩
      | (rw [h] at hold; cases hold)
  obtain ⟨hr, hs, hf, hn, ho, ht, hh⟩ := hpc
  obtain ⟨hr', hs', hf', hh'⟩ := hpc'
  refine .quiet t pc ?_ ?_ (.inl hmss) ho ?_ (by rw [hs, hs']) (by rw [hf, hf']) ht hawake (.inl hr)
  · rw [Task.rcvLinked_none hr, Task.rcvLinked_none hr']
  · exact fun a ha => absurd ha (hn a)
  · rw [hh, hh']

/-! ## `_rt_msgsnd` -/

/-- The hand-off loop and what follows it, with `l` the receivers it has yet
to look at: the others on the list have refused the message. -/
theorem pipelined_send_effects {q : QId} {t : Tid} {a : SndArgs} {m : Msg} (e : Env)
    (r : Option Ret) (l : List Tid) :
    ∀ (σ : State) (msq : MsgQueue), (σ.tasks t).pc = .sndLock a m → σ.Live q →
      σ.queues q = some msq → msq.q_receivers.Nodup → l.Nodup → (∀ u ∈ l, u ∈ msq.q_receivers) →
      (∀ u ∈ msq.q_receivers, u ∉ l → (σ.tasks u).msr_d.accepts m = false) →
      Effects σ ((((if (pipelined_send q m e l σ).2 then (pipelined_send q m e l σ).1
        else enqueue (pipelined_send q m e l σ).1 q m).log
          fun h => { h with sent := h.sent ++ [(q, m)] })).setPc t (.idle r)) := by
  induction l with
  | nil =>
      intro σ msq hpc hlive hq _ _ _ hno
      exact .single (.enqueue q t a m msq r hpc hlive hq (fun u hu => hno u hu (by simp)))
  | cons u rest ih =>
      intro σ msq hpc hlive hq hrnd hnd hsub hno
      have hu := hsub u List.mem_cons_self
      obtain ⟨hu', hnd'⟩ := List.nodup_cons.mp hnd
      simp only [pipelined_send]
      split
      · rename_i hacc
        split
        · -- too small: told so, and the loop goes on
          rw [notify_r_list_del]
          refine .head (.tooBig q u msq hlive hq hu) ?_
          refine ih _ { msq with q_receivers := msq.q_receivers.erase u } ?_ hlive ?_
            (hrnd.erase u) hnd' ?_ ?_
          · simp only [State.modQ_tasks, State.modT_tasks]
            split
            · rename_i h
              rw [← h]
              exact hpc
            · exact hpc
          · simp [hq]
          · intro v hv
            have hvu : v ≠ u := fun h => hu' (h ▸ hv)
            exact (List.mem_erase_of_ne hvu).mpr (hsub v (List.mem_cons_of_mem u hv))
          · intro v hv hvr
            obtain ⟨hvu, hvm⟩ := (hrnd.mem_erase_iff).mp hv
            simpa [hvu] using hno v hvm (by simp [hvu, hvr])
        · -- handed over
          have hstate : ((notify (r_list_del σ q u) u (.msg m)).modQ q fun msq =>
              { msq with
                q_lrpid := ((notify (r_list_del σ q u) u (.msg m)).tasks u).cred.pid
                q_rtime := e.now }) =
              (σ.modT u (·.notified (.msg m))).modQ q fun msq =>
                { msq with
                  q_receivers := msq.q_receivers.erase u
                  q_lrpid := (σ.tasks u).cred.pid
                  q_rtime := e.now } := by
            rw [notify_r_list_del, State.modQ_modQ]
            simp [Task.notified]
          simp only [if_true]
          rw [hstate]
          exact .single (.handoff q u t a m msq (σ.tasks u).cred.pid e.now r hpc hlive hq hu hacc)
      · -- refused
        rename_i hacc
        refine ih σ msq hpc hlive hq hrnd hnd' (fun v hv => hsub v (List.mem_cons_of_mem u hv)) ?_
        intro v hv hvr
        by_cases hvu : v = u
        · rw [hvu]
          exact Bool.eq_false_iff.mpr hacc
        · exact hno v hv (by simp [hvu, hvr])

/-- `msg_lock` and `msg_checkid` together: the identifier names the queue. -/
theorem State.Names.of_checkid {σ : State} (h : TableWf σ) {msqid : Nat} {q : QId}
    {msq : MsgQueue} (hl : ipc_lock σ.ids msqid = some q) (hq : σ.queues q = some msq)
    (hc : ¬ ipc_checkid msq.q_perm msqid = true) : σ.Names msqid q := by
  obtain ⟨msq', hq', hseq⟩ := (ipc_lock_live hl).perm_isSome h
  rw [hq] at hq'
  cases hq'
  refine ⟨by rw [← ipc_lock_eq]; exact hl, ?_⟩
  rw [← hseq]
  simpa [ipc_checkid] using hc

theorem State.Names.lock {σ : State} {msqid : Nat} {q : QId} (h : σ.Names msqid q) :
    ipc_lock σ.ids msqid = some q := by
  rw [ipc_lock_eq]
  exact h.1

/-- `_rt_msgsnd` from `retry` on. -/
theorem sndRetry_effects {σ : State} (hw : Wf σ) {t : Tid} (e : Env) {a : SndArgs} {m : Msg}
    {q : QId} (hpc : (σ.tasks t).pc = .sndLock a m) (hl : ipc_lock σ.ids a.msqid = some q) :
    Effects σ (sndRetry σ t e a m q) := by
  obtain ⟨msq, hq, _⟩ := (ipc_lock_live hl).perm_isSome hw.tab
  have hown : (σ.tasks t).pc.owned = some m := by rw [hpc]; rfl
  have hmss : (σ.tasks t).mss_list = none := hw.wait.mss_none (by rw [hpc]; rfl)
  have hfree : ∀ err, Effect σ (σ.setPc t (.sndFree err m)) :=
    fun err => .sender t _ hown hmss (.inl rfl) rfl
  simp only [sndRetry, hq]
  split
  · exact .single (hfree _)
  · rename_i hc
    have hn := State.Names.of_checkid hw.tab hl hq hc
    split
    · exact .single (hfree _)
    · split
      · rename_i hfull
        split
        · exact .single (hfree _)
        · exact .single (.linkSnd q t a m msq hpc hq hn hfull)
      · -- stamp the queue, then hand over or enqueue
        have hrnd := hw.wait.rcv_nodup q msq hn.live hq
        refine .head (.stamp q (fun _ => e.now) (·.q_rtime) (fun _ => (σ.tasks t).cred.pid)
          (·.q_lrpid)) ?_
        exact pipelined_send_effects e (some (.ok 0)) msq.q_receivers _
          { msq with q_lspid := (σ.tasks t).cred.pid, q_stime := e.now } hpc hn.live
          (by simp [hq]) hrnd hrnd (fun _ h => h) (fun u hu hnot => absurd hu hnot)

/-! ## `_rt_msgrcv` -/

/-- Unlinking a message with the wake-ups taken first. -/
theorem unlink_eq (σ : State) (t : Tid) (e : Env) (q : QId) (m : Msg) (senders : List Tid) :
    unlink σ t e q m senders = ({ (ss_wakeup false senders σ).modQ q fun msq =>
      { msq with
        q_messages := msq.q_messages.erase m
        q_qnum := msq.q_qnum - 1
        q_rtime := e.now
        q_lrpid := (σ.tasks t).cred.pid
        q_cbytes := msq.q_cbytes - m.m_ts } with
      msg_bytes := (ss_wakeup false senders σ).msg_bytes - m.m_ts
      msg_hdrs := (ss_wakeup false senders σ).msg_hdrs - 1 } : State).log
      fun h => { h with taken := h.taken ++ [(q, m)] } := by
  simp only [unlink, ss_wakeup_eq]
  rfl

/-- `_rt_msgrcv` from `retry` on. -/
theorem rcvRetry_effects {σ : State} (hw : Wf σ) {t : Tid} (e : Env) {a : RcvArgs} {q : QId}
    (hpc : (σ.tasks t).pc = .rcvLock a) (hl : ipc_lock σ.ids a.msqid = some q) :
    Effects σ (rcvRetry σ t e a q) := by
  obtain ⟨msq, hq, _⟩ := (ipc_lock_live hl).perm_isSome hw.tab
  have hret : ∀ r, Effect σ (σ.setPc t (.idle r)) :=
    fun r => .plain hw.wait t _ (by rw [hpc]; rfl) rfl (by rw [hpc]; rfl) trivial
  simp only [rcvRetry, hq, State.ret_eq]
  split
  · exact .single (hret _)
  · rename_i hc
    have hn := State.Names.of_checkid hw.tab hl hq hc
    split
    · exact .single (hret _)
    · split
      · rename_i m hm
        split
        · exact .single (hret _)
        · -- wake the senders, then unlink
          refine (ss_wakeup_effects msq.q_senders σ).trans (.single ?_)
          rw [unlink_eq]
          refine .dequeue q t a m msq (σ.tasks t).cred.pid e.now ?_ ?_ ?_ hm
            (fun u hu => ss_wakeup_woken msq.q_senders σ u hu)
          · rw [ss_wakeup_pc]
            exact hpc
          · rw [ss_wakeup_eq]
            exact hn.live
          · rw [ss_wakeup_eq]
            exact hq
      · rename_i hm
        split
        · exact .single (hret _)
        · exact .single (.linkRcv q t a msq hpc hq hn ((scan_none_iff _ _ _).mp hm))

/-! ## After `schedule` -/

/-- A sender record still linked is linked on the queue its identifier names. -/
theorem WaitWf.relock_names {σ : State} (h : WaitWf σ) {t : Tid} {a : SndArgs} {m : Msg} {q : QId}
    (hpc : (σ.tasks t).pc = .sndRelock a m) (hq : (σ.tasks t).mss_list = some q) :
    σ.Names a.msqid q := by
  obtain ⟨b, m', hwait, hn⟩ := h.snd_names t q hq
  rw [hpc] at hwait
  cases hwait
  exact hn

/-- `ss_del`, after which the sender stands where it stood at its first
`msg_lock`. -/
theorem ss_del_effects {σ : State} (hw : Wf σ) {t : Tid} {a : SndArgs} {m : Msg}
    (hpc : (σ.tasks t).pc = .sndRelock a m) :
    Effect σ ((ss_del σ t).setPc t (.sndLock a m)) ∧ (ss_del σ t).ids = σ.ids := by
  unfold ss_del
  split
  · rename_i hm
    exact ⟨.sender t _ (by rw [hpc]; rfl) hm (.inl rfl) rfl, rfl⟩
  · rename_i q hm
    have hn := hw.wait.relock_names hpc hm
    obtain ⟨msq, hq, _⟩ := hn.live.perm_isSome hw.tab
    have hin : t ∈ msq.q_senders := (hw.wait.snd_linked q msq hn.live hq t).mpr hm
    simp only [hq, if_pos hin]
    exact ⟨.unlinkSnd q t a m hpc hm, rfl⟩

/-- The second `msg_lock` of `_rt_msgsnd`. -/
theorem sndRelock_effects {σ : State} (hw : Wf σ) {t : Tid} (e : Env) {a : SndArgs} {m : Msg}
    (hpc : (σ.tasks t).pc = .sndRelock a m) : Effects σ (sndRelock σ t e a m) := by
  unfold sndRelock
  cases hl : ipc_lock σ.ids a.msqid with
  | none =>
      have hmss : (σ.tasks t).mss_list = none := by
        cases hm : (σ.tasks t).mss_list with
        | none => rfl
        | some q =>
            rw [(hw.wait.relock_names hpc hm).lock] at hl
            cases hl
      exact .single (.sender t _ (by rw [hpc]; rfl) hmss (.inl rfl) rfl)
  | some q =>
      obtain ⟨hdel, hids⟩ := ss_del_effects hw hpc
      have hτ := hdel.wf hw
      generalize ss_del σ t = τ at hdel hids hτ
      have hpc' : ((τ.setPc t (.sndLock a m)).tasks t).pc = .sndLock a m := by simp
      rw [← hids] at hl
      have hlive : (τ.setPc t (.sndLock a m)).Live q := ipc_lock_live hl
      obtain ⟨msq, hq, _⟩ := hlive.perm_isSome hτ.tab
      refine .head hdel ?_
      simp only
      split
      · rw [← State.setPc_setPc τ t (.sndLock a m) (.sndFree .EINTR m)]
        refine .single (.sender t _ (by rw [hpc']; rfl) ?_ (.inl rfl) rfl)
        exact hτ.wait.mss_none (by rw [hpc']; rfl)
      · rw [← sndRetry_setPc τ t e a m q (.sndLock a m) 
            (Option.isSome_of_eq_some hq)]
        exact sndRetry_effects hτ e hpc' hl

/-- A receiver between `schedule` and its second look at `r_msg` moves on. -/
theorem Effect.receiver {σ : State} (hw : WaitWf σ) (t : Tid) (pc : Pc) {a : RcvArgs}
    (hold : (∃ q, (σ.tasks t).pc = .rcvRelock a q) ∨ (σ.tasks t).pc = .rcvNull a)
    (hmsg : (σ.tasks t).msr_d.r_msg ≠ .err .EAGAIN)
    (hnew : pc = .rcvNull a ∨
      (∃ m, (σ.tasks t).msr_d.r_msg = .msg m ∧ pc = .rcvCopy a m) ∨
      (∃ err r, (σ.tasks t).msr_d.r_msg = .err err ∧ pc = .idle r)) :
    Effect σ (σ.setPc t pc) := by
  have hlink : (σ.tasks t).rcvLinked = none := by
    unfold Task.rcvLinked
    rw [if_neg hmsg]
  have hlink' : ({ σ.tasks t with pc := pc } : Task).rcvLinked = none := by
    unfold Task.rcvLinked
    rw [if_neg hmsg]
  have hsnd : (σ.tasks t).mss_list = none := by
    refine hw.mss_none ?_
    rcases hold with ⟨q, h⟩ | h <;> rw [h] <;> rfl
  have hold' : (σ.tasks t).pc.holdsSem = false ∧ (σ.tasks t).pc.freeing = none := by
    rcases hold with ⟨q, h⟩ | h <;> rw [h] <;> exact ⟨rfl, rfl⟩
  have hheld : (σ.tasks t).held = (σ.tasks t).msr_d.r_msg.toMsg := by
    unfold Task.held
    rcases hold with ⟨q, h⟩ | h <;> rw [h]
  refine .quiet t pc (by rw [hlink, hlink']) (fun _ _ => hmsg) (.inl hsnd) ?_ ?_ ?_ ?_ ?_ ?_ (.inl ?_)
  · rcases hnew with rfl | ⟨m, _, rfl⟩ | ⟨err, r, _, rfl⟩ <;> exact .inl rfl
  · rw [hheld]
    rcases hnew with rfl | ⟨m, hm, rfl⟩ | ⟨err, r, hm, rfl⟩
    · rfl
    · rw [hm]
      rfl
    · rw [hm]
      rfl
  · rw [hold'.1]
    rcases hnew with rfl | ⟨m, _, rfl⟩ | ⟨err, r, _, rfl⟩ <;> rfl
  · rw [hold'.2]
    rcases hnew with rfl | ⟨m, _, rfl⟩ | ⟨err, r, _, rfl⟩ <;> rfl
  · rcases hnew with rfl | ⟨m, _, rfl⟩ | ⟨err, r, _, rfl⟩ <;> trivial
  · rcases hnew with rfl | ⟨m, _, rfl⟩ | ⟨err, r, _, rfl⟩ <;> rfl
  · rcases hnew with rfl | ⟨m, _, rfl⟩ | ⟨err, r, _, rfl⟩ <;> rfl

/-- The second `msg_lock` of `_rt_msgrcv`. -/
theorem rcvRelock_effects {σ : State} (hw : Wf σ) {t : Tid} (e : Env) {a : RcvArgs} {q : QId}
    (hpc : (σ.tasks t).pc = .rcvRelock a q) : Effects σ (rcvRelock σ t e a q) := by
  have hnames : (σ.tasks t).msr_d.r_msg = .err .EAGAIN → σ.Names a.msqid q := by
    intro hr
    refine hw.wait.rcv_names t a q ?_
    simp [Task.rcvLinked, hr, hpc, Pc.rcvWaiting]
  unfold rcvRelock
  cases hl : ipc_lock σ.ids a.msqid with
  | none =>
      refine .single (.receiver hw.wait t _ (.inl ⟨q, hpc⟩) ?_ (.inl rfl))
      intro hr
      rw [(hnames hr).lock] at hl
      cases hl
  | some q' =>
      simp only
      split
      · rename_i m hr
        exact .single (.receiver hw.wait t _ (.inl ⟨q, hpc⟩) (by rw [hr]; simp)
          (.inr (.inl ⟨m, hr, rfl⟩)))
      · -- still `-EAGAIN`: the identifier names the queue the receiver is linked on
        rename_i hr
        have hn := hnames hr
        obtain ⟨msq, hq, _⟩ := hn.live.perm_isSome hw.tab
        have hin : t ∈ msq.q_receivers := by
          refine (hw.wait.rcv_linked q msq hn.live hq t).mpr ⟨a, ?_⟩
          simp [Task.rcvLinked, hr, hpc, Pc.rcvWaiting]
        simp only [hq, if_pos hin]
        have hdel : Effect σ ((r_list_del σ q t).setPc t (.rcvLock a)) :=
          .unlinkRcv q t a hpc hr
        have hτ := hdel.wf hw
        have hq' : ((r_list_del σ q t).queues q).isSome := by simp [r_list_del, hq]
        have hpc' : (((r_list_del σ q t).setPc t (.rcvLock a)).tasks t).pc = .rcvLock a := by simp
        refine .head hdel ?_
        split
        · rw [State.ret_eq, ← State.setPc_setPc _ t (.rcvLock a) (.idle _)]
          exact .single (.plain hτ.wait t (.idle _) (by rw [hpc']; rfl) rfl (by rw [hpc']; rfl)
            trivial)
        · rw [← rcvRetry_setPc _ t e a q (.rcvLock a) hq']
          exact rcvRetry_effects hτ e hpc' hn.lock
      · rename_i err hne hr
        refine .single (.receiver hw.wait t _ (.inl ⟨q, hpc⟩) ?_ (.inr (.inr ⟨err, _, hr, rfl⟩)))
        rw [hr]
        intro he
        cases he
        exact hne rfl

/-- `_rt_msgrcv` after a second `msg_lock` that found no queue. -/
theorem rcvNull_effects {σ : State} (hw : Wf σ) {t : Tid} {a : RcvArgs}
    (hpc : (σ.tasks t).pc = .rcvNull a) : Effects σ (rcvNull σ t a) := by
  have hne := hw.wait.rcv_null t a hpc
  unfold rcvNull
  split
  · rename_i m hr
    exact .single (.receiver hw.wait t _ (.inr hpc) hne (.inr (.inl ⟨m, hr, rfl⟩)))
  · rename_i hr
    exact absurd hr hne
  · rename_i err _ hr
    exact .single (.receiver hw.wait t _ (.inr hpc) hne (.inr (.inr ⟨err, _, hr, rfl⟩)))

/-! ## `_rt_msgctl` and `rt_msgget` -/

/-- IPC_SET: wake everybody, then change the queue. -/
theorem ipcSet_effects {σ : State} (hw : Wf σ) {t : Tid} (e : Env) {q : QId} {msq : MsgQueue}
    (hplain : (σ.tasks t).pc.plain = true) (hsem : (σ.tasks t).pc.holdsSem = true)
    (hlive : σ.Live q) (hq : σ.queues q = some msq) (b : MsqSetbuf) :
    Effects σ ((ipcSet σ e q msq b).setPc t (.semUp (.ok 0))) := by
  have hagain : ∀ u ∈ msq.q_receivers, (σ.tasks u).msr_d.r_msg = .err .EAGAIN := by
    intro u hu
    obtain ⟨c, hc⟩ := (hw.wait.rcv_linked q msq hlive hq u).mp hu
    unfold Task.rcvLinked at hc
    split at hc
    · assumption
    · cases hc
  have hwake : Effects σ (ss_wakeup false msq.q_senders (expunge_all .EAGAIN msq.q_receivers σ)) :=
    (expunge_all_effects _ σ hagain).trans (ss_wakeup_effects _ _)
  have hset : Effect (ss_wakeup false msq.q_senders (expunge_all .EAGAIN msq.q_receivers σ))
      (ipcSet σ e q msq b) := by
    have heq : ipcSet σ e q msq b =
        (ss_wakeup false msq.q_senders (expunge_all .EAGAIN msq.q_receivers σ)).modQ q
          fun m => { m with
            q_qbytes := b.qbytes
            q_perm := { m.q_perm with
              uid := b.uid
              gid := b.gid
              mode := (m.q_perm.mode &&& ~~~S_IRWXUGO) ||| (S_IRWXUGO &&& b.mode) }
            q_ctime := e.now } := by
      simp only [ipcSet, ss_wakeup_eq, expunge_all_eq]
      rfl
    rw [heq]
    refine .setq q msq b _ e.now ?_ ?_ (fun u hu => ss_wakeup_woken _ _ u hu)
    · rw [ss_wakeup_eq, expunge_all_eq]
      exact hlive
    · rw [ss_wakeup_eq, expunge_all_eq]
      exact hq
  have hτ := hset.wf (hwake.wf hw)
  have hpc' : ((ipcSet σ e q msq b).tasks t).pc = (σ.tasks t).pc := by
    unfold ipcSet
    rw [ss_wakeup_pc, expunge_all_pc]
    rfl
  refine (hwake.tail hset).tail (.plain hτ.wait t (.semUp (.ok 0)) ?_ rfl ?_ trivial)
  · rw [hpc']
    exact hplain
  · rw [hpc', hsem]
    rfl

/-- IPC_RMID takes the queue that is locked out of the table. -/
theorem freeque_effects {σ : State} {t : Tid} {msqid : Nat} {q : QId}
    {msq : MsgQueue} (hplain : (σ.tasks t).pc.plain = true)
    (hsem : (σ.tasks t).pc.holdsSem = true) (hl : ipc_lock σ.ids msqid = some q)
    (hq : σ.queues q = some msq) : Effects σ (freeque σ t msqid) := by
  rw [ipc_lock_eq] at hl
  obtain ⟨ids, hrm⟩ := ipc_rmid_isSome hl
  simp only [freeque, hrm, hq]
  exact .single (.remove q t msqid ids msq hplain hsem hrm hq)

/-- IPC_SET and IPC_RMID. -/
theorem ctlBody_effects {σ : State} (hw : Wf σ) {t : Tid} (e : Env) {a : CtlArgs}
    (hpc : (σ.tasks t).pc = .ctlLock a) : Effects σ (ctlBody σ t e a) := by
  have hplain : (σ.tasks t).pc.plain = true := by rw [hpc]; rfl
  have hsem : (σ.tasks t).pc.holdsSem = true := by rw [hpc]; rfl
  have hup : ∀ r, Effect σ (σ.setPc t (.semUp r)) :=
    fun r => .plain hw.wait t (.semUp r) hplain rfl hsem.symm trivial
  unfold ctlBody
  cases hl : ipc_lock σ.ids a.msqid with
  | none => exact .single (hup _)
  | some q =>
      have hlive := ipc_lock_live hl
      obtain ⟨msq, hq, _⟩ := hlive.perm_isSome hw.tab
      simp only [hq]
      split
      · exact .single (hup _)
      · split
        · exact .single (hup _)
        · split
          · split
            · exact .single (hup _)
            · exact ipcSet_effects hw e hplain hsem hlive hq _
          · exact freeque_effects hplain hsem hl hq

/-- `freeque` after `msg_unlock`. -/
theorem freeStep_effects {σ : State} (hw : Wf σ) {t : Tid} {q : QId} {rest : List Msg}
    (hpc : (σ.tasks t).pc = .ctlFree q rest) : Effects σ (freeStep σ t q rest) := by
  cases rest with
  | nil =>
      obtain ⟨msq, hq⟩ := Option.isSome_iff_exists.mp (hw.tab.freeing t q [] hpc).2
      exact .single (.release q t msq hpc hq)
  | cons m rest => exact .single (.purge q t m rest hpc)

/-- IPC_STAT and MSG_STAT. -/
theorem statBody_effects {σ : State} (hw : Wf σ) {t : Tid} (e : Env) {msqid : Nat} {cmd : Cmd}
    {space : Bool} (hpc : (σ.tasks t).pc = .statLock msqid cmd space) :
    Effects σ (statBody σ t e msqid cmd space) := by
  have hret : ∀ r, Effect σ (σ.ret t r) :=
    fun r => .plain hw.wait t (.idle (some r)) (by rw [hpc]; rfl) rfl (by rw [hpc]; rfl) trivial
  unfold statBody
  cases hl : ipc_lock σ.ids msqid with
  | none => exact .single (hret _)
  | some q =>
      obtain ⟨msq, hq, _⟩ := (ipc_lock_live hl).perm_isSome hw.tab
      simp only [hq]
      split
      · exact .single (hret _)
      · split
        · exact .single (hret _)
        · split <;> exact .single (hret _)

/-- `rt_msgget` looks for the key. -/
theorem getFind_effects {σ : State} (hw : Wf σ) {t : Tid} {key : Int} {msgflg : BitVec 32}
    (hpc : (σ.tasks t).pc = .getFind key msgflg) : Effects σ (getFind σ t key msgflg) := by
  have hmove : ∀ pc, pc.plain = true → pc.holdsSem = true → σ.TableOk pc →
      Effects σ (σ.setPc t pc) :=
    fun pc hp hs ht => .single (.plain hw.wait t pc (by rw [hpc]; rfl) hp (by rw [hpc, hs]; rfl) ht)
  unfold getFind
  split
  · rename_i hkey
    exact hmove _ rfl rfl (fun hne => absurd hkey hne)
  · cases hf : ipc_findkey σ.ids σ.perm key with
    | none =>
        simp only
        split
        · exact hmove _ rfl rfl trivial
        · refine hmove _ rfl rfl ?_
          rintro _ q p ⟨i, hi⟩ hp
          exact ipc_findkey_none hw.tab.ids hf hi hp
    | some id =>
        simp only
        split
        · exact hmove _ rfl rfl trivial
        · obtain ⟨q, p, hi, _⟩ := ipc_findkey_some hf
          refine hmove _ rfl rfl ⟨?_, by rw [hi]; rfl⟩
          have h1 := IpcIds.entry_lt hi
          have h2 := hw.tab.size_le
          have h3 : MSGMNI < SEQ_MULTIPLIER := by decide
          omega

/-- `rt_msgget` on a key that exists. -/
theorem getLock_effects {σ : State} (hw : Wf σ) {t : Tid} {id : Nat} {msgflg : BitVec 32}
    (hpc : (σ.tasks t).pc = .getLock id msgflg) : Effects σ (getLock σ t id msgflg) := by
  have hup : ∀ r, Effect σ (σ.setPc t (.semUp r)) :=
    fun r => .plain hw.wait t (.semUp r) (by rw [hpc]; rfl) rfl (by rw [hpc]; rfl) trivial
  have htab := hw.tab.table t
  rw [hpc] at htab
  obtain ⟨hlt, hsome⟩ := htab
  obtain ⟨q, hq⟩ := Option.isSome_iff_exists.mp hsome
  have hl : ipc_lock σ.ids id = some q := by
    rw [ipc_lock_eq, Nat.mod_eq_of_lt hlt]
    exact hq
  obtain ⟨msq, hmsq, _⟩ := (ipc_lock_live hl).perm_isSome hw.tab
  simp only [getLock, hl, hmsq]
  split <;> exact .single (hup _)

/-- `newque` after `grow_ary`. -/
theorem newque_effects {σ : State} (hw : Wf σ) {t : Tid} (e : Env) {key : Int}
    {msgflg : BitVec 32} {size : Nat} (hpc : (σ.tasks t).pc = .getAdd key msgflg size) :
    Effects σ (newque σ t e key msgflg size) := by
  simp only [newque]
  cases hadd : ipc_addid σ.ids σ.hist.slots.length size with
  | none =>
      exact .single (.plain hw.wait t (.semUp _) (by rw [hpc]; rfl) rfl (by rw [hpc]; rfl) trivial)
  | some r =>
      obtain ⟨ids, id, seq⟩ := r
      exact .single (.create t e key msgflg size ids id seq hpc hadd)

/-! ## The step function -/

/-- The code of a call before its first lock. -/
theorem enter_effects (P : Params) {σ : State} (hw : Wf σ) {t : Tid} (e : Env) (c : Call)
    {r : Option Ret} (hpc : (σ.tasks t).pc = .idle r) : Effects σ (enter P σ t e c) := by
  have hmove : ∀ pc, pc.plain = true → pc.holdsSem = false → σ.TableOk pc →
      Effects σ (σ.setPc t pc) :=
    fun pc hp hs ht => .single (.plain hw.wait t pc (by rw [hpc]; rfl) hp (by rw [hpc, hs]; rfl) ht)
  have hret : ∀ v, Effects σ (σ.ret t v) := fun v => hmove _ rfl rfl trivial
  cases c with
  | msgsnd msqid mtype mtext msgflg space =>
      simp only [enter]
      repeat' split
      all_goals first
        | exact hret _
        | exact .single (.newMsg t _ _ (by rw [hpc]; rfl) (by rw [hpc]; rfl) rfl)
  | msgrcv msqid msgsz msgtyp msgflg space =>
      simp only [enter]
      split
      · exact hret _
      · exact hmove _ rfl rfl trivial
  | msgctl msqid cmd buf space =>
      simp only [enter]
      repeat' split
      all_goals first
        | exact hret _
        | exact hmove _ rfl rfl trivial
  | msgget key msgflg => exact hmove _ rfl rfl trivial

/-- The next stretch of a task. -/
theorem exec_effects {σ σ' : State} (hw : Wf σ) {t : Tid} {e : Env}
    (h : exec σ t e = some σ') : Effects σ σ' := by
  -- `down` blocks or takes the free semaphore
  have hdown : ∀ pc, (σ.tasks t).pc.plain = true → pc.plain = true → pc.holdsSem = true →
      σ.TableOk pc → down σ t pc = some σ' → Effects σ σ' := by
    intro pc hold hnew hs htab hd
    unfold down at hd
    split at hd
    · cases hd
      exact .single (.down t pc (by simpa using ‹σ.sem.isNone = true›) hold hnew hs htab)
    · cases hd
  unfold exec at h
  split at h
  all_goals rename_i hpc
  · cases h
  · cases h
  · cases h
  · split at h <;> cases h
    · have hmss := hw.wait.mss_none (show (σ.tasks t).pc.sndWaiting = none by rw [hpc]; rfl)
      exact .single (.sender t _ (by rw [hpc]; rfl) hmss (.inl rfl) rfl)
    · exact sndRetry_effects hw e hpc ‹_›
  · cases h
    exact sndRelock_effects hw e hpc
  · cases h
    rename_i err m
    refine .head (.freeMsg (σ.hist.freed ++ [m])) (.single ?_)
    exact .sender t (.idle _) (by rw [State.log_tasks, hpc]; rfl)
      (hw.wait.mss_none (by rw [hpc]; rfl)) (.inr ⟨_, rfl⟩) rfl
  · split at h <;> cases h
    · exact .single (.plain hw.wait t (.idle _) (by rw [hpc]; rfl) rfl (by rw [hpc]; rfl) trivial)
    · exact rcvRetry_effects hw e hpc ‹_›
  · cases h
    exact rcvRelock_effects hw e hpc
  · cases h
    exact rcvNull_effects hw hpc
  · cases h
    exact .single (.handed t e _ _ hpc)
  · exact hdown (.ctlLock _) (by rw [hpc]; rfl) rfl rfl trivial h
  · cases h
    exact ctlBody_effects hw e hpc
  · cases h
    exact freeStep_effects hw hpc
  · cases h
    exact statBody_effects hw e hpc
  · exact hdown (.infoRead _ _) (by rw [hpc]; rfl) rfl rfl trivial h
  · cases h
    exact .single (.plain hw.wait t (.semUp _) (by rw [hpc]; rfl) rfl (by rw [hpc]; rfl) trivial)
  · exact hdown (.getFind _ _) (by rw [hpc]; rfl) rfl rfl trivial h
  · cases h
    exact getFind_effects hw hpc
  · have htab := hw.tab.table t
    rw [hpc] at htab
    split at h <;> cases h
    · exact .single (.plain hw.wait t (.semUp _) (by rw [hpc]; rfl) rfl (by rw [hpc]; rfl) trivial)
    · exact .single (.plain hw.wait t (.getGrow _ _) (by rw [hpc]; rfl) rfl (by rw [hpc]; rfl) htab)
  · cases h
    exact .single (.grow t _ _ e.alloc hpc)
  · cases h
    exact newque_effects hw e hpc
  · cases h
    exact getLock_effects hw hpc
  · cases h
    exact .single (.up t (.idle _) (by rw [hpc]; rfl) (by rw [hpc]; rfl) rfl rfl trivial)

/-- Return from `schedule`. -/
theorem resume_effects {σ σ' : State} {t : Tid} (h : resume σ t = some σ') : Effects σ σ' := by
  unfold resume at h
  split at h
  · rename_i a m hpc
    cases h
    refine .single (.quiet t _ ?_ (fun _ hn => by cases hn) (.inr (by rw [hpc]; rfl))
      (.inr (by rw [hpc]; rfl)) ?_ (by rw [hpc]; rfl) (by rw [hpc]; rfl) trivial rfl (.inl rfl))
    · simp [Task.rcvLinked, hpc, Pc.rcvWaiting]
    · simp [Task.held, hpc]
  · rename_i a q hpc
    cases h
    refine .single (.quiet t _ ?_ (fun _ hn => by cases hn) (.inr (by rw [hpc]; rfl))
      (.inl rfl) ?_ (by rw [hpc]; rfl) (by rw [hpc]; rfl) trivial rfl (.inr (by rw [hpc]; rfl)))
    · simp [Task.rcvLinked, hpc, Pc.rcvWaiting]
    · simp [Task.held, hpc]
  · cases h

/-- **Simulation.** Every step of the code is a sequence of effects. -/
theorem step_effects (P : Params) {σ σ' : State} {l : Label} (hw : Wf σ)
    (h : step P σ l = some σ') : Effects σ σ' := by
  unfold step at h
  rw [hw.ok] at h
  simp only [Option.isSome_none, Bool.false_eq_true, if_false] at h
  cases l with
  | call t c e =>
      simp only at h
      split at h
      · rename_i r hpc
        cases h
        have hstart : Effect σ (σ.modT t fun k => { k with calls := k.calls + 1 }) :=
          .touch t _ rfl rfl rfl (fun hk => hk)
        exact .head hstart (enter_effects P (hstart.wf hw) e c (by simpa using hpc))
      · cases h
  | exec t e => exact exec_effects hw h
  | resume t => exact resume_effects h
  | signal t pending =>
      cases h
      exact .single (.touch t _ rfl rfl rfl (fun hk => hk))

/-! ## Reachable states -/

theorem initState_wf (P : Params) (cred : Tid → Cred) : Wf (initState P cred) := by
  have hent : ∀ i, (initState P cred).ids.entry i = none := by
    intro i
    exact (ipc_init_ids_ok MSGMNI P.tableAlloc).above i (by simp [ipc_init_ids]; omega)
  have hlive : ∀ q, ¬ (initState P cred).Live q := by
    rintro q ⟨i, hi⟩
    rw [hent] at hi
    cases hi
  refine ⟨⟨ipc_init_ids_ok _ _, ?_, ?_, rfl, ?_, fun _ _ => rfl, ?_, ?_, ?_, ?_, ?_⟩,
    ⟨?_, ?_, ?_, ?_, ?_, ?_, ?_⟩, rfl⟩
  · simp only [IpcIds.size, initState, ipc_init_ids]
    split <;> simp [MSGMNI, IPCMNI]
  · rfl
  · intro i q hi
    rw [hent] at hi
    cases hi
  · intro q hq
    cases hq
  · intro t q rest ht
    cases ht
  · intro t
    simp [initState, Pc.holdsSem]
  · exact fun t => trivial
  · exact fun q _ _ _ hq => absurd hq (hlive q)
  · exact fun q _ hq => absurd hq (hlive q)
  · intro t a q ht
    cases ht
  · exact fun q _ hq => absurd hq (hlive q)
  · intro t a ht
    cases ht
  · exact fun q _ hq => absurd hq (hlive q)
  · intro t q ht
    cases ht
  · exact fun q _ hq => absurd hq (hlive q)

/-- Every reachable state is well-formed. -/
theorem wf_invariant (P : Params) : (machine P).Invariant Wf := by
  refine TSys.Invariant.of_inductive ?_ ?_
  · rintro σ ⟨cred, rfl⟩
    exact initState_wf P cred
  · intro σ σ' l hw hs
    exact (step_effects P hw hs).wf hw

/-- What every effect preserves, a sequence of effects preserves. -/
theorem Effects.preserve {I : State → Prop}
    (heff : ∀ σ σ', Wf σ → I σ → Effect σ σ' → I σ') {σ σ' : State} (hw : Wf σ) (hi : I σ)
    (h : Effects σ σ') : I σ' := by
  induction h with
  | refl => exact hi
  | tail hto he ih => exact heff _ _ (Effects.wf hw hto) ih he

/-- The invariant rule of the development: what every effect preserves holds
in every reachable state. -/
theorem invariant_of_effects (P : Params) {I : State → Prop}
    (hinit : ∀ cred, I (initState P cred))
    (heff : ∀ σ σ', Wf σ → I σ → Effect σ σ' → I σ') : (machine P).Invariant I := by
  refine TSys.Invariant.of_inductive_with (wf_invariant P) ?_ ?_
  · rintro σ ⟨cred, rfl⟩
    exact hinit cred
  · intro σ σ' l hw hi hs
    exact (step_effects P hw hs).preserve heff hw hi

end RtaiDemos.Sysvmsg
