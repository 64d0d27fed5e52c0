import RtaiDemos.Sysvmsg.Logic.Outcome
import RtaiDemos.Sysvmsg.Theorems.Accounting

/-!
# The calls take effect at once

Between its invocation and its return each call of the module does at one
moment what the message boxes say. A message handed to a sleeping receiver
never was on the queue; it is as if it had been put there and taken at once,
since nothing on the queue passes the receiver's `testmsg` (`RcvAlert`).
-/

namespace RtaiDemos.Sysvmsg

variable {P : Params} {t : Tid} {c : Call}

/-! ## Moves of one task -/

theorem Call.does_meet {what : Obstacle} (h : c.meets P what) : c.does P (.meet what) := by
  cases c with
  | msgctl i cmd => cases cmd <;> exact h
  | _ => exact h

theorem Call.fits_meet (P : Params) (c : Call) {what : Obstacle} {e : Errno} (he : e ∈ what.errnos) :
    c.fits P (some (.meet what)) (.err e) := by
  cases c <;> exact he

theorem Call.fits_fails {e : Errno} (h : c.fails P e) : c.fits P none (.err e) := by
  cases c with
  | msgctl i cmd => cases cmd <;> exact h
  | _ => exact h

/-- A call that may send is a call of `_rt_msgsnd`. -/
theorem Call.sender {id : Nat} {m : Msg} (h : c.does P (.send id m)) :
    c.does P (.meet (.gone id)) ∧ (∀ v, c.fits P (some (.send id m)) (.ok v) ↔ v = 0) ∧
      ∀ e ∈ [Errno.EACCES, .EAGAIN, .EINTR], c.fits P none (.err e) := by
  cases c with
  | msgsnd msqid mtype mtext msgflg space =>
      refine ⟨h.1, fun _ => Iff.rfl, fun e he => .inr ?_⟩
      exact List.mem_cons_of_mem _ (List.mem_cons_of_mem _ he)
  | msgrcv => exact h.elim
  | msgget => exact h.elim
  | msgctl i cmd => cases cmd <;> exact h.elim

theorem Call.Receives.fails {a : RcvArgs} (h : c.Receives P a) {e : Errno}
    (he : e ∈ [Errno.EACCES, .E2BIG, .EINTR]) : c.fits P none (.err e) := by
  obtain ⟨msqid, msgtyp, rfl, -, -⟩ := h
  exact .inr he

theorem State.ret_pc (σ : State) (t : Tid) (r : Ret) :
    ((σ.ret t r).tasks t).pc = .idle (some r) := by
  simp

theorem Outcome.move {σ τ : State} {o : Option BoxOp} (hboxes : τ.boxes = σ.boxes)
    (htasks : ∀ v, v ≠ t → (σ.tasks v).Alike (τ.tasks v)) {pc : Pc}
    (h : ({ τ.tasks t with pc := pc } : Task).Within P σ.boxes c o) :
    Outcome P t c o σ (τ.setPc t pc) := by
  refine .silent hboxes ?_ (.inl ?_)
  · intro v hv
    rw [State.setPc_tasks, if_neg hv]
    exact htasks v hv
  · rw [State.setPc_tasks, if_pos rfl, State.boxes_setPc, hboxes]
    exact h

theorem Outcome.ret {σ τ : State} {o : Option BoxOp} (hboxes : τ.boxes = σ.boxes)
    (htasks : ∀ v, v ≠ t → (σ.tasks v).Alike (τ.tasks v)) {r : Ret} (h : c.fits P o r) :
    Outcome P t c o σ (τ.ret t r) := by
  refine .silent hboxes ?_ (.inr ⟨r, τ.ret_pc t r, h⟩)
  intro v hv
  rw [State.ret_eq, State.setPc_tasks, if_neg hv]
  exact htasks v hv

/-- The task itself moves, and touches nothing that others know. -/
theorem Outcome.own (σ : State) {o : Option BoxOp} {pc : Pc}
    (h : ({ σ.tasks t with pc := pc } : Task).Within P σ.boxes c o) :
    Outcome P t c o σ (σ.setPc t pc) :=
  .move rfl (fun _ _ => .of_eq rfl) h

theorem Outcome.back (σ : State) {o : Option BoxOp} {r : Ret} (h : c.fits P o r) :
    Outcome P t c o σ (σ.ret t r) :=
  .ret rfl (fun _ _ => .of_eq rfl) h

/-- The task gives up under `ids->sem`. -/
theorem Outcome.failed (σ : State) {e : Errno} (h : c.fails P e) :
    Outcome P t c none σ (σ.setPc t (.semUp (.err e))) :=
  .own σ (show c.fits P none (.err e) from Call.fits_fails h)

/-- The task meets an obstacle and goes on to say so. -/
theorem Outcome.meets (σ : State) (what : Obstacle) {pc : Pc} (hdoes : c.does P (.meet what))
    (hhas : σ.boxes.Has what)
    (h : ({ σ.tasks t with pc := pc } : Task).Within P σ.boxes c (some (.meet what))) :
    Outcome P t c none σ (σ.setPc t pc) := by
  refine .acts (.meet what) rfl hdoes ?_ (.inl (.refl _)) ?_ (.inl ?_)
  · exact Boxes.next_meet hhas
  · intro v hv
    rw [State.setPc_tasks, if_neg hv]
    exact .of_eq rfl
  · rw [State.setPc_tasks, if_pos rfl]
    exact h

/-- The task meets an obstacle and returns. -/
theorem Outcome.refused (σ : State) (what : Obstacle) {e : Errno} (hdoes : c.does P (.meet what))
    (hhas : σ.boxes.Has what) (he : e ∈ what.errnos) :
    Outcome P t c none σ (σ.ret t (.err e)) := by
  refine .acts (.meet what) rfl hdoes ?_ (.inl (.refl _)) ?_ (.inr ⟨_, σ.ret_pc t _, ?_⟩)
  · exact Boxes.next_meet hhas
  · intro v hv
    rw [State.ret_eq, State.setPc_tasks, if_neg hv]
    exact .of_eq rfl
  · exact c.fits_meet P he

/-- What comes after a step that nobody notices. -/
theorem Outcome.after {σ τ σ' : State} {o : Option BoxOp} (h : Outcome P t c o τ σ')
    (hboxes : τ.boxes = σ.boxes) (htasks : ∀ v, v ≠ t → τ.tasks v = σ.tasks v)
    (hsem : (τ.tasks t).pc.holdsSem = (σ.tasks t).pc.holdsSem) : Outcome P t c o σ σ' := by
  have hback : ∀ v, v ≠ t → (τ.tasks v).Alike (σ'.tasks v) → (σ.tasks v).Alike (σ'.tasks v) := by
    intro v hv ha
    rw [← htasks v hv]
    exact ha
  cases h with
  | silent boxes others ends =>
      exact .silent (boxes.trans hboxes) (fun v hv => hback v hv (others v hv)) ends
  | acts x before does next keys others ends =>
      rw [hboxes] at next keys
      rw [hsem] at keys
      exact .acts x before does next keys (fun v hv => hback v hv (others v hv)) ends
  | hands u a q m b before does boxes box refused accepts fits other linked told others ends =>
      rw [hboxes] at box
      rw [htasks u other] at refused accepts fits linked told
      exact .hands u a q m b before does (boxes.trans hboxes) box refused accepts fits other linked
        told (fun v hv hvu => hback v hv (others v hv hvu)) ends
  | removes id l before does next holds nodup notin linked told others ends =>
      have hsame : ∀ u ∈ l, τ.tasks u = σ.tasks u := fun u hu => htasks u fun h => notin (h ▸ hu)
      rw [hboxes] at next
      rw [hsem] at holds
      refine .removes id l before does next holds nodup notin ?_ ?_
        (fun v hv hvl => hback v hv (others v hv hvl)) ends
      · intro u hu
        rw [← hsame u hu]
        exact linked u hu
      · intro u hu
        rw [← hsame u hu]
        exact told u hu

/-! ## `_rt_msgsnd` -/

/-- A receiver that `pipelined_send` has passed by, or told that it is too small. -/
def Passed (l : List Tid) (v : Tid) (k k' : Task) : Prop :=
  k' = k ∨ v ∈ l ∧ k' = k.notified (.err .E2BIG)

/-- What `pipelined_send` does: it stops at the first receiver that accepts the
message and is large enough. -/
theorem pipelined_send_cases (q : QId) (m : Msg) (e : Env) (l : List Tid) :
    ∀ σ : State, l.Nodup → σ.SameBoxes (pipelined_send q m e l σ).1 ∧
      ((pipelined_send q m e l σ).2 = false ∧
          (∀ v, Passed l v (σ.tasks v) ((pipelined_send q m e l σ).1.tasks v)) ∨
        (pipelined_send q m e l σ).2 = true ∧ ∃ u ∈ l, (σ.tasks u).msr_d.accepts m = true ∧
          m.m_ts ≤ (σ.tasks u).msr_d.r_maxsize ∧
          (pipelined_send q m e l σ).1.tasks u = (σ.tasks u).notified (.msg m) ∧
          ∀ v, v ≠ u → Passed l v (σ.tasks v) ((pipelined_send q m e l σ).1.tasks v)) := by
  induction l with
  | nil => exact fun σ _ => ⟨.refl σ, .inl ⟨rfl, fun v => .inl rfl⟩⟩
  | cons u rest ih =>
      intro σ hnd
      obtain ⟨hu, hrest⟩ := List.nodup_cons.mp hnd
      have hmore : ∀ {v k k'}, Passed rest v k k' → Passed (u :: rest) v k k' := by
        rintro v k k' (h | ⟨hv, h⟩)
        · exact .inl h
        · exact .inr ⟨List.mem_cons_of_mem u hv, h⟩
      simp only [pipelined_send]
      split
      · rename_i hacc
        have hdel : ∀ r, σ.SameBoxes (notify (r_list_del σ q u) u r) := by
          intro r
          rw [notify_r_list_del]
          exact ⟨fun _ => rfl, State.modQ_view MsgQueue.boxView (σ.modT u _) q _ fun _ => rfl⟩
        split
        · -- too small: told so, and the loop goes on
          rename_i hsmall
          have htasks : ∀ v, v ≠ u →
              (notify (r_list_del σ q u) u (.err .E2BIG)).tasks v = σ.tasks v := by
            intro v hv
            rw [notify_tasks, if_neg hv]
            rfl
          have hself : (notify (r_list_del σ q u) u (.err .E2BIG)).tasks u =
              (σ.tasks u).notified (.err .E2BIG) := by
            rw [notify_tasks, if_pos rfl]
            rfl
          have hback : ∀ v k', Passed rest v
              ((notify (r_list_del σ q u) u (.err .E2BIG)).tasks v) k' →
              Passed (u :: rest) v (σ.tasks v) k' := by
            intro v k' hp
            by_cases hv : v = u
            · subst hv
              rw [hself] at hp
              rcases hp with hp | ⟨hin, -⟩
              · exact .inr ⟨List.mem_cons_self, hp⟩
              · exact absurd hin hu
            · rw [htasks v hv] at hp
              exact hmore hp
          obtain ⟨hsame, hcase⟩ := ih (notify (r_list_del σ q u) u (.err .E2BIG)) hrest
          refine ⟨(hdel _).trans hsame, ?_⟩
          rcases hcase with ⟨hno, hall⟩ | ⟨hyes, w, hw, hwacc, hwmax, hwtold, hall⟩
          · exact .inl ⟨hno, fun v => hback v _ (hall v)⟩
          · have hwu : w ≠ u := fun h => hu (h ▸ hw)
            rw [htasks w hwu] at hwacc hwmax hwtold
            exact .inr ⟨hyes, w, List.mem_cons_of_mem u hw, hwacc, hwmax, hwtold,
              fun v hv => hback v _ (hall v hv)⟩
        · rename_i hfits
          have hstamp := State.SameBoxes.modQ (notify (r_list_del σ q u) u (.msg m)) q
            (f := fun msq =>
              { msq with
                q_lrpid := ((notify (r_list_del σ q u) u (.msg m)).tasks u).cred.pid
                q_rtime := e.now }) fun _ => rfl
          refine ⟨(hdel (.msg m)).trans ⟨hstamp.ids, hstamp.queues⟩,
            .inr ⟨rfl, u, List.mem_cons_self, hacc, Nat.le_of_not_lt hfits, ?_, ?_⟩⟩
          · show (notify (r_list_del σ q u) u (.msg m)).tasks u = _
            rw [notify_tasks, if_pos rfl]
            rfl
          · intro v hv
            refine .inl ?_
            show (notify (r_list_del σ q u) u (.msg m)).tasks v = _
            rw [notify_tasks, if_neg hv]
            rfl
      · obtain ⟨hsame, hcase⟩ := ih σ hrest
        refine ⟨hsame, ?_⟩
        rcases hcase with ⟨hno, hall⟩ | ⟨hyes, w, hw, hrestw⟩
        · exact .inl ⟨hno, fun v => hmore (hall v)⟩
        · exact .inr ⟨hyes, w, List.mem_cons_of_mem u hw, hrestw.1, hrestw.2.1, hrestw.2.2.1,
            fun v hv => hmore (hrestw.2.2.2 v hv)⟩

/-- A receiver on the list of a live queue waits there. -/
theorem WaitWf.linked {σ : State} (h : WaitWf σ) {q : QId} {msq : MsgQueue} (hl : σ.Live q)
    (hq : σ.queues q = some msq) {u : Tid} (hu : u ∈ msq.q_receivers) :
    ∃ a, (σ.tasks u).rcvLinked = some (a, q) :=
  (h.rcv_linked q msq hl hq u).mp hu

theorem Passed.alike {σ : State} (h : WaitWf σ) {q : QId} {msq : MsgQueue} (hl : σ.Live q)
    (hq : σ.queues q = some msq) {v : Tid} {k' : Task}
    (hp : Passed msq.q_receivers v (σ.tasks v) k') : (σ.tasks v).Alike k' := by
  rcases hp with hp | ⟨hin, hp⟩
  · exact .of_eq hp
  · obtain ⟨a, ha⟩ := h.linked hl hq hin
    rw [hp]
    exact .told ha (.inr rfl)

/-- The final part of `_rt_msgsnd`. -/
theorem deliver_outcome {σ : State} (hw : Wf σ) (hr : RcvAlert σ) {e : Env} {a : SndArgs} {m : Msg}
    {q : QId} {msq : MsgQueue} (hpc : (σ.tasks t).pc = .sndLock a m) (hn : σ.Names a.msqid q)
    (hq : σ.queues q = some msq) (hc : c.does P (.send a.msqid m)) :
    Outcome P t c none σ ((deliver σ t e m q msq.q_receivers).ret t (.ok 0)) := by
  have hlive := hn.live
  have hnd := hw.wait.rcv_nodup q msq hlive hq
  have hfits : c.fits P (some (.send a.msqid m)) (.ok 0) := (Call.sender hc).2.1 0 |>.mpr rfl
  have hself : ∀ u ∈ msq.q_receivers, u ≠ t := by
    rintro u hu rfl
    obtain ⟨b, hb⟩ := hw.wait.linked hlive hq hu
    unfold Task.rcvLinked at hb
    rw [hpc] at hb
    split at hb <;> cases hb
  let σ₁ := σ.modQ q fun msq => { msq with q_lspid := (σ.tasks t).cred.pid, q_stime := e.now }
  have hstamp : σ.SameBoxes σ₁ := .modQ σ q fun _ => rfl
  obtain ⟨hsame, hcase⟩ := pipelined_send_cases q m e msq.q_receivers σ₁ hnd
  unfold deliver
  simp only
  generalize hr₁ : pipelined_send q m e msq.q_receivers _ = r
  rw [hr₁] at hsame hcase
  obtain ⟨σ₂, sent⟩ := r
  rcases hcase with ⟨hno, hall⟩ | ⟨hyes, u, hu, hacc, hmax, htold, hall⟩
  · -- nobody takes it
    cases hno
    have hboxes : (enqueue σ₂ q m).boxes = Function.update σ.boxes a.msqid
        (some { msq.box with messages := msq.box.messages ++ [m] }) := by
      let f := fun msq : MsgQueue =>
        { msq with
          q_messages := msq.q_messages ++ [m]
          q_cbytes := msq.q_cbytes + m.m_ts
          q_qnum := msq.q_qnum + 1 }
      have hf : ∀ x y : MsgQueue, x.boxView = y.boxView → (f x).boxView = (f y).boxView := by
        intro x y hxy
        simp only [MsgQueue.boxView, MsgQueue.box, Prod.mk.injEq, MsgBox.mk.injEq] at hxy
        obtain ⟨h₁, h₂, h₃⟩ := hxy
        simp [f, MsgQueue.boxView, MsgQueue.box, h₁, h₂, h₃]
      exact ((hstamp.trans hsame).modQ_both q hf).boxes.trans (State.boxes_modQ hw.tab hn hq rfl)
    refine .acts (.send a.msqid m) rfl hc ?_ (.inl ?_) ?_ (.inr ⟨_, State.ret_pc _ t _, hfits⟩)
    · rw [Boxes.next_send (hn.box hw.tab hq)]
      exact congrArg some hboxes.symm
    · have hkeys : σ.boxes.KeepsKeys (enqueue σ₂ q m).boxes := by
        rw [hboxes]
        exact .update (hn.box hw.tab hq) rfl
      exact hkeys
    · intro v hv
      rw [State.ret_eq, State.setPc_tasks, if_neg hv]
      exact (hall v).alike hw.wait hlive hq
  · -- a receiver takes it
    cases hyes
    obtain ⟨b, hb⟩ := hw.wait.linked hlive hq hu
    have hid : b.msqid = a.msqid := (hw.wait.rcv_names u b q hb).unique hw.tab hn
    rw [← hid] at hc hfits
    refine .hands u b q m msq.box rfl hc ?_ ?_ ?_ hacc hmax (hself u hu) hb ?_ ?_
      (.inr ⟨_, State.ret_pc _ t _, hfits⟩)
    · exact (hstamp.trans hsame).boxes
    · rw [hid]
      exact hn.box hw.tab hq
    · intro x hx
      exact hr q msq hlive hq x hx u hu
    · rw [State.ret_eq, State.setPc_tasks, if_neg (hself u hu)]
      exact htold
    · intro v hv hvu
      rw [State.ret_eq, State.setPc_tasks, if_neg hv]
      exact (hall v hvu).alike hw.wait hlive hq

/-- `_rt_msgsnd` from `retry` on. -/
theorem sndRetry_outcome {σ : State} (hw : Wf σ) (hr : RcvAlert σ) {e : Env} {a : SndArgs} {m : Msg}
    {q : QId} (hpc : (σ.tasks t).pc = .sndLock a m) (hl : ipc_lock σ.ids a.msqid = some q)
    (hc : c.does P (.send a.msqid m)) : Outcome P t c none σ (sndRetry σ t e a m q) := by
  obtain ⟨msq, hq, _⟩ := (ipc_lock_live hl).perm_isSome hw.tab
  obtain ⟨hgone, -, hfails⟩ := Call.sender hc
  simp only [sndRetry, hq]
  split
  · rename_i hid
    exact .meets σ _ hgone (State.boxes_checkid hl hq hid) (c.fits_meet P (by simp [Obstacle.errnos]))
  · rename_i hid
    have hn := State.Names.of_checkid hw.tab hl hq hid
    split
    · exact .own σ (hfails .EACCES (by simp))
    · split
      · split
        · exact .own σ (hfails .EAGAIN (by simp))
        · refine .move ?_ ?_ ⟨hc, rfl⟩
          · exact State.boxes_modQ_same _ q fun _ => rfl
          · intro v hv
            refine .of_eq ?_
            simp [ss_add, hv]
      · exact deliver_outcome hw hr hpc hn hq hc

/-- The second `msg_lock` of `_rt_msgsnd`. -/
theorem sndRelock_outcome {σ : State} (hw : Wf σ) (hr : RcvAlert σ) {e : Env} {a : SndArgs}
    {m : Msg} (hpc : (σ.tasks t).pc = .sndRelock a m) (hc : c.does P (.send a.msqid m)) :
    Outcome P t c none σ (sndRelock σ t e a m) := by
  obtain ⟨hgone, -, hfails⟩ := Call.sender hc
  unfold sndRelock
  cases hl : ipc_lock σ.ids a.msqid with
  | none =>
      exact .meets σ _ hgone (State.boxes_no_lock hl) (c.fits_meet P (by simp [Obstacle.errnos]))
  | some q =>
      obtain ⟨hdel, hids⟩ := ss_del_effects hw hpc
      have hboxes : (ss_del σ t).boxes = σ.boxes := by
        rcases ss_del_cases σ t with ⟨o, heq⟩ | ⟨p, heq⟩
        · rw [heq]
          rfl
        · rw [heq]
          exact State.boxes_modQ_same _ p fun _ => rfl
      have htasks : ∀ v, v ≠ t → (ss_del σ t).tasks v = σ.tasks v := fun v hv => ss_del_tasks σ t v hv
      have hτ := hdel.wf hw
      have hrτ := Effect.rcvAlert hw hr hdel
      simp only
      split
      · exact .move hboxes (fun v hv => .of_eq (htasks v hv)) (hfails .EINTR (by simp))
      · have hpc' : (((ss_del σ t).setPc t (.sndLock a m)).tasks t).pc = .sndLock a m := by simp
        have hl' : ipc_lock ((ss_del σ t).setPc t (.sndLock a m)).ids a.msqid = some q := by
          rw [State.setPc_ids, hids]
          exact hl
        obtain ⟨msq, hq, _⟩ := (ipc_lock_live hl').perm_isSome hτ.tab
        rw [← sndRetry_setPc (ss_del σ t) t e a m q (.sndLock a m) (Option.isSome_of_eq_some hq)]
        refine (sndRetry_outcome hτ hrτ hpc' hl' hc).after hboxes ?_ ?_
        · intro v hv
          rw [State.setPc_tasks, if_neg hv]
          exact htasks v hv
        · rw [hpc', hpc]
          rfl

/-! ## `_rt_msgrcv` -/

/-- IPC_NOWAIT, and nothing on the queue that the selector picks. -/
theorem Call.Receives.nothing {a : RcvArgs} (h : c.Receives P a)
    (hflag : hasFlag a.msgflg IPC_NOWAIT = true) :
    c.does P (.meet (.nothing a.msqid a.mode a.msgtyp)) := by
  obtain ⟨msqid, msgtyp, rfl, hid, hconv⟩ := h
  exact ⟨hid, hconv, hflag⟩

/-- `_rt_msgrcv` from `retry` on. -/
theorem rcvRetry_outcome {σ : State} (hw : Wf σ) {e : Env} {a : RcvArgs} {q : QId}
    (hl : ipc_lock σ.ids a.msqid = some q) (hc : c.Receives P a) :
    Outcome P t c none σ (rcvRetry σ t e a q) := by
  obtain ⟨msq, hq, _⟩ := (ipc_lock_live hl).perm_isSome hw.tab
  simp only [rcvRetry, hq]
  split
  · rename_i hid
    exact .refused σ _ hc.gone (State.boxes_checkid hl hq hid) (by simp [Obstacle.errnos])
  · rename_i hid
    have hn := State.Names.of_checkid hw.tab hl hq hid
    split
    · exact .back σ (hc.fails (by simp))
    · split
      · rename_i m hm
        split
        · exact .back σ (hc.fails (by simp))
        · -- the message is taken off the queue
          rename_i hsize
          have htakes : a.Takes m := by
            unfold RcvArgs.Takes
            by_contra hno
            obtain ⟨hbig, hflag⟩ := not_or.mp hno
            exact hsize ⟨Nat.lt_of_not_le hbig, by simpa using hflag⟩
          have hboxes : (unlink σ t e q m msq.q_senders).boxes = Function.update σ.boxes a.msqid
              (some { msq.box with messages := msq.box.messages.erase m }) := by
            unfold unlink
            rw [State.boxes_log, ss_wakeup_boxes]
            exact State.boxes_modQ hw.tab hn hq rfl
          have htasks : ∀ v, (σ.tasks v).Alike ((unlink σ t e q m msq.q_senders).tasks v) := by
            intro v
            unfold unlink
            rw [State.log_tasks, ss_wakeup_eq]
            simp only [State.modQ_tasks]
            split
            · exact .roused _ _
            · exact .of_eq rfl
          refine .acts (a.op m) rfl (hc.does htakes) ?_ (.inl ?_) ?_ (.inl ?_)
          · rw [State.boxes_setPc, hboxes]
            exact Boxes.next_recv (hn.box hw.tab hq) hm
          · rw [State.boxes_setPc, hboxes]
            exact .update (hn.box hw.tab hq) rfl
          · intro v hv
            rw [State.setPc_tasks, if_neg hv]
            exact htasks v
          · rw [State.setPc_tasks, if_pos rfl]
            exact ⟨hc, rfl⟩
      · rename_i hscan
        split
        · rename_i hflag
          exact .refused σ _ (hc.nothing hflag) ⟨msq.box, hn.box hw.tab hq, hscan⟩
            (by simp [Obstacle.errnos])
        · refine .move ?_ ?_ ?_
          · exact State.boxes_modQ_same _ q fun _ => rfl
          · intro v hv
            refine .of_eq ?_
            simp [rcvLink, hv]
          · simp only [rcvLink, State.modQ_tasks, State.modT_tasks, if_true]
            exact ⟨hc, ⟨rfl, rfl, rfl⟩, .inr ⟨.inl rfl, rfl⟩⟩

/-- A receiver that was handed a message has taken it. -/
theorem RcvArgs.Told.msg {a : RcvArgs} {r : RMsg} {o : Option BoxOp} (h : a.Told r o) {m : Msg}
    (hr : r = .msg m) : o = some (a.op m) := by
  subst hr
  exact h

/-- One that reads `-EAGAIN` has come to nothing yet. -/
theorem RcvArgs.Told.again {a : RcvArgs} {r : RMsg} {o : Option BoxOp} (h : a.Told r o)
    (hr : r = .err .EAGAIN) : o = none := by
  subst hr
  rcases h with ⟨hno, -⟩ | ⟨-, ho⟩
  · cases hno
  · exact ho

/-- An error that a receiver was told while it slept is one that its call may return. -/
theorem RcvArgs.Told.fits {a : RcvArgs} {r : RMsg} {o : Option BoxOp} (h : a.Told r o)
    (hc : c.Receives P a) {e : Errno} (hr : r = .err e) (hne : e ≠ .EAGAIN) :
    c.fits P o (.err e) := by
  subst hr
  rcases h with ⟨rfl, rfl⟩ | ⟨he, rfl⟩
  · exact c.fits_meet P (by simp [Obstacle.errnos])
  · rcases he with rfl | rfl
    · exact absurd rfl hne
    · exact hc.fails (by simp)

/-- The second `msg_lock` of `_rt_msgrcv`. -/
theorem rcvRelock_outcome {σ : State} (hw : Wf σ) {e : Env} {a : RcvArgs} {q : QId}
    {o : Option BoxOp} (hpc : (σ.tasks t).pc = .rcvRelock a q) (hc : c.Receives P a)
    (hasks : a.Asks (σ.tasks t).msr_d) (ho : a.Told (σ.tasks t).msr_d.r_msg o) :
    Outcome P t c o σ (rcvRelock σ t e a q) := by
  unfold rcvRelock
  split
  · exact .own σ ⟨hc, hasks, ho⟩
  · split
    · rename_i m hr
      exact .own σ ⟨hc, ho.msg hr⟩
    · -- still `-EAGAIN`: unlink, and look again
      rename_i hr
      obtain rfl := ho.again hr
      have hn : σ.Names a.msqid q := by
        refine hw.wait.rcv_names t a q ?_
        simp [Task.rcvLinked, hr, hpc, Pc.rcvWaiting]
      obtain ⟨msq, hq, _⟩ := hn.live.perm_isSome hw.tab
      have hin : t ∈ msq.q_receivers := by
        refine (hw.wait.rcv_linked q msq hn.live hq t).mpr ⟨a, ?_⟩
        simp [Task.rcvLinked, hr, hpc, Pc.rcvWaiting]
      have hdel : Effect σ ((r_list_del σ q t).setPc t (.rcvLock a)) := .unlinkRcv q t a hpc hr
      have hboxes : (r_list_del σ q t).boxes = σ.boxes := State.boxes_modQ_same σ q fun _ => rfl
      simp only [hq, if_pos hin]
      split
      · exact .ret hboxes (fun _ _ => .of_eq rfl) (hc.fails (by simp))
      · have hsome : ((r_list_del σ q t).queues q).isSome := by simp [r_list_del, hq]
        rw [← rcvRetry_setPc _ t e a q (.rcvLock a) hsome]
        refine (rcvRetry_outcome (hdel.wf hw) hn.lock hc).after hboxes ?_ ?_
        · intro v hv
          rw [State.setPc_tasks, if_neg hv]
          rfl
        · rw [State.setPc_tasks, if_pos rfl, hpc]
          rfl
    · rename_i err hne hr
      exact .back σ (ho.fits hc hr fun h => hne (by rw [h]))

/-- `_rt_msgrcv` after a second `msg_lock` that returned NULL. -/
theorem rcvNull_outcome {σ : State} (hw : Wf σ) {a : RcvArgs} {o : Option BoxOp}
    (hpc : (σ.tasks t).pc = .rcvNull a) (hc : c.Receives P a)
    (ho : a.Told (σ.tasks t).msr_d.r_msg o) : Outcome P t c o σ (rcvNull σ t a) := by
  unfold rcvNull
  split
  · rename_i m hr
    exact .own σ ⟨hc, ho.msg hr⟩
  · rename_i hr
    exact absurd hr (hw.wait.rcv_null t a hpc)
  · rename_i err hne hr
    exact .back σ (ho.fits hc hr fun h => hne (by rw [h]))

/-- `out_success`. -/
theorem copyOut_outcome {σ : State} {e : Env} {a : RcvArgs} {m : Msg} (hc : c.Receives P a) :
    Outcome P t c (some (a.op m)) σ (copyOut σ t e a m) := by
  obtain ⟨msqid, msgtyp, rfl, -, -⟩ := hc
  simp only [copyOut]
  refine .ret ?_ (fun _ _ => .of_eq ?_) ?_
  · rfl
  · rfl
  split
  · rename_i hfault
    exact ⟨(Bool.and_eq_true_iff.mp hfault).1, rfl⟩
  · refine ⟨?_, rfl, rfl⟩
    split <;> omega

/-! ## `_rt_msgctl` -/

/-- The two loops over the waiters of a live queue. -/
theorem expunged_alike {σ : State} (hw : Wf σ) {q : QId} {msq : MsgQueue} (hl : σ.Live q)
    (hq : σ.queues q = some msq) (res : Errno) (kill : Bool) (τ : State) (hτ : τ.tasks = σ.tasks)
    {v : Tid} (hv : res = .EAGAIN ∨ v ∉ msq.q_receivers) : (σ.tasks v).Alike
      ((ss_wakeup kill msq.q_senders (expunge_all res msq.q_receivers τ)).tasks v) := by
  rw [ss_wakeup_eq, expunge_all_eq]
  simp only [hτ]
  have htold : (σ.tasks v).Alike
      (if v ∈ msq.q_receivers then (σ.tasks v).notified (.err res) else σ.tasks v) := by
    split
    · rename_i hin
      obtain ⟨a, ha⟩ := hw.wait.linked hl hq hin
      exact .told ha (.inl (hv.resolve_right (not_not_intro hin)))
    · exact .of_eq rfl
  split
  · exact htold
  · exact htold

/-- What the receivers learn. -/
theorem expunged_told {σ : State} {msq : MsgQueue} (res : Errno) (kill : Bool) (τ : State)
    (hτ : τ.tasks = σ.tasks) {v : Tid} (hv : v ∈ msq.q_receivers) :
    ((ss_wakeup kill msq.q_senders (expunge_all res msq.q_receivers τ)).tasks v).pc =
        (σ.tasks v).pc ∧
      ((ss_wakeup kill msq.q_senders (expunge_all res msq.q_receivers τ)).tasks v).msr_d =
        { (σ.tasks v).msr_d with r_msg := .err res } := by
  rw [ss_wakeup_eq, expunge_all_eq]
  simp only [hτ, if_pos hv]
  split <;> exact ⟨rfl, rfl⟩

theorem Call.Controls.gone {a : CtlArgs} (h : c.Controls a) :
    c.does P (.meet (.gone a.msqid)) := by
  obtain ⟨msqid, buf, space, rfl, hid, hcmd⟩ := h
  exact Call.does_meet ⟨hid, .inr hcmd⟩

theorem Call.Controls.fails {a : CtlArgs} (h : c.Controls a) {e : Errno}
    (he : e ∈ [Errno.EFAULT, .EACCES, .EPERM]) : c.fails P e := by
  obtain ⟨msqid, buf, space, rfl, -, -⟩ := h
  exact .inr he

/-- `_rt_msgctl` under `ids->sem`: IPC_SET and IPC_RMID. -/
theorem ctlBody_outcome {σ : State} (hw : Wf σ) {e : Env} {a : CtlArgs}
    (hpc : (σ.tasks t).pc = .ctlLock a) (hc : c.Controls a) :
    Outcome P t c none σ (ctlBody σ t e a) := by
  have hperm : Outcome P t c none σ (σ.setPc t (.semUp (.err .EPERM))) :=
    .failed σ (hc.fails (by simp))
  have hgone : ∀ err ∈ (Obstacle.gone a.msqid).errnos, σ.boxes a.msqid = none →
      Outcome P t c none σ (σ.setPc t (.semUp (.err err))) :=
    fun err he hnone => .meets σ _ hc.gone hnone (c.fits_meet P he)
  unfold ctlBody
  cases hl : ipc_lock σ.ids a.msqid with
  | none => exact hgone .EINVAL (by simp [Obstacle.errnos]) (State.boxes_no_lock hl)
  | some q =>
      have hlive := ipc_lock_live hl
      obtain ⟨msq, hq, _⟩ := hlive.perm_isSome hw.tab
      simp only [hq]
      split
      · rename_i hid
        exact hgone .EIDRM (by simp [Obstacle.errnos]) (State.boxes_checkid hl hq hid)
      · rename_i hid
        have hn := State.Names.of_checkid hw.tab hl hq hid
        split
        · exact hperm
        · obtain ⟨msqid, buf, space, rfl, hmsqid, hcmd⟩ := hc
          split
          · rename_i hset
            split
            · exact hperm
            · refine .move ?_ ?_ ?_
              · unfold ipcSet
                rw [ss_wakeup_boxes, expunge_all_boxes]
                exact State.boxes_modQ_same σ q fun _ => rfl
              · exact fun v _ => expunged_alike hw hlive hq .EAGAIN false (σ.modQ q _) rfl (.inl rfl)
              · rw [hset]
                rfl
          · rename_i hset
            have hrm : a.cmd = .ipcRmid := hcmd.resolve_left hset
            obtain ⟨ids, hrmid⟩ := ipc_rmid_isSome hn.1
            obtain ⟨_, _, _, _, hent⟩ := ipc_rmid_spec hrmid
            have hboxes : (ss_wakeup true msq.q_senders (expunge_all .EIDRM msq.q_receivers
                { σ with ids := ids })).boxes = Function.update σ.boxes a.msqid none := by
              rw [ss_wakeup_boxes, expunge_all_boxes]
              exact State.boxes_remove hw.tab hn rfl hent
            have hself : ∀ u ∈ msq.q_receivers, u ≠ t := by
              rintro u hu rfl
              obtain ⟨b, hb⟩ := hw.wait.linked hlive hq hu
              have hwaits := (Task.rcvLinked_again hb).2
              rw [hpc] at hwaits
              cases hwaits
            simp only [freeque, hrmid, hq]
            refine .removes a.msqid msq.q_receivers rfl ?_ ?_ (by rw [hpc]; rfl)
              (hw.wait.rcv_nodup q msq hlive hq) (fun ht => hself t ht rfl) ?_ ?_ ?_ (.inl ?_)
            · rw [hrm]
              exact hmsqid
            · rw [State.boxes_setPc, hboxes]
              simp [Boxes.next, hn.box hw.tab hq]
            · intro u hu
              obtain ⟨b, hb⟩ := hw.wait.linked hlive hq hu
              exact ⟨b, q, hb, (hw.wait.rcv_names u b q hb).unique hw.tab hn⟩
            · intro u hu
              rw [State.setPc_tasks, if_neg (hself u hu)]
              exact expunged_told .EIDRM true { σ with ids := ids } rfl hu
            · intro v hv hvl
              rw [State.setPc_tasks, if_neg hv]
              exact expunged_alike hw hlive hq .EIDRM true { σ with ids := ids } rfl (.inr hvl)
            · rw [State.setPc_tasks, if_pos rfl, hrm]
              exact rfl

/-- A round of the loop of `freeque`, or what follows it. -/
theorem freeStep_outcome {σ : State} (hw : Wf σ) {q : QId} {rest : List Msg} {o : Option BoxOp}
    (hpc : (σ.tasks t).pc = .ctlFree q rest) (hc : c.fits P o (.ok 0)) :
    Outcome P t c o σ (freeStep σ t q rest) := by
  obtain ⟨hdead, hsome⟩ := hw.tab.freeing t q rest hpc
  cases rest with
  | cons m rest =>
      simp only [freeStep]
      refine .move ?_ (fun _ _ => .of_eq ?_) ?_
      · rfl
      · rfl
      · exact hc
  | nil =>
      obtain ⟨msq, hq⟩ := Option.isSome_iff_exists.mp hsome
      simp only [freeStep, hq]
      refine .move ?_ (fun _ _ => .of_eq ?_) ?_
      · exact State.boxes_free hdead rfl rfl
      · rfl
      · exact hc

/-- IPC_STAT and MSG_STAT. -/
theorem statBody_outcome {σ : State} (hw : Wf σ) (ha : Accounts σ) {e : Env} {msqid : Nat}
    {cmd : Cmd} {space : Bool}
    (hc : ∃ i buf, c = .msgctl i cmd buf space ∧ (msqid : Int) = i)
    (hcmd : cmd = .ipcStat ∨ cmd = .msgStat ∧ msqid < SEQ_MULTIPLIER) :
    Outcome P t c none σ (statBody σ t e msqid cmd space) := by
  obtain ⟨i, buf, rfl, hi⟩ := hc
  have hfail : ∀ err ∈ [Errno.EFAULT, .EACCES, .EPERM],
      Outcome P t (.msgctl i cmd buf space) none σ (σ.ret t (.err err)) :=
    fun err he => .back σ (Call.fits_fails (.inr he))
  unfold statBody
  cases hl : ipc_lock σ.ids msqid with
  | none =>
      rcases hcmd with rfl | ⟨rfl, hlt⟩
      · exact .refused σ (.gone msqid) ⟨hi, .inl rfl⟩ (State.boxes_no_lock hl)
          (by simp [Obstacle.errnos])
      · rw [ipc_lock_eq, Nat.mod_eq_of_lt hlt] at hl
        exact .refused σ (.vacant msqid) hi (State.boxes_vacant hl)
          (by simp [Obstacle.errnos])
  | some q =>
      obtain ⟨msq, hq, hseq⟩ := (ipc_lock_live hl).perm_isSome hw.tab
      obtain ⟨hbytes, hnum⟩ := ha.queue q msq hq
      simp only [hq]
      split
      · rename_i hid
        obtain ⟨hne, hck⟩ := hid
        rcases hcmd with rfl | ⟨rfl, -⟩
        · exact .refused σ (.gone msqid) ⟨hi, .inl rfl⟩ (State.boxes_checkid hl hq hck)
            (by simp [Obstacle.errnos])
        · exact absurd rfl hne
      · rename_i hid
        split
        · exact hfail _ (by simp)
        · split
          · exact hfail _ (by simp)
          · rw [ipc_lock_eq] at hl
            -- the identifier that is looked at
            let id := if cmd = .msgStat then ipc_buildid msqid msq.q_perm.seq else msqid
            have hname : σ.Names id q := by
              rcases hcmd with rfl | ⟨rfl, hlt⟩
              · refine ⟨hl, ?_⟩
                have hck : ipc_checkid msq.q_perm msqid = false := by simpa using hid
                rw [← hseq]
                simpa [ipc_checkid, id] using hck
              · have hmod : ipc_buildid msqid msq.q_perm.seq % SEQ_MULTIPLIER = msqid := by
                  unfold ipc_buildid
                  rw [Nat.mul_add_mod, Nat.mod_eq_of_lt hlt]
                refine ⟨?_, ?_⟩
                · show σ.ids.entry (ipc_buildid msqid msq.q_perm.seq % SEQ_MULTIPLIER) = some q
                  rw [hmod, ← hl, Nat.mod_eq_of_lt hlt]
                · show ipc_buildid msqid msq.q_perm.seq / SEQ_MULTIPLIER = q % 65536
                  unfold ipc_buildid
                  rw [Nat.mul_add_div (by decide), Nat.div_eq_of_lt hlt, Nat.add_zero, hseq]
            refine .acts (.stat id msq.q_perm.key msq.q_qnum msq.q_cbytes) rfl ?_ ?_
              (.inl (.refl _)) (fun v hv => .of_eq (by simp [hv])) (.inr ⟨_, σ.ret_pc t _, ?_⟩)
            · rcases hcmd with rfl | ⟨rfl, hlt⟩
              · exact hi
              · show ((ipc_buildid msqid msq.q_perm.seq % SEQ_MULTIPLIER : Nat) : Int) = i
                unfold ipc_buildid
                rw [Nat.mul_add_mod, Nat.mod_eq_of_lt hlt]
                exact hi
            · simp only [Boxes.next, hname.box hw.tab hq, Option.bind_some]
              rw [if_pos ⟨rfl, hnum.symm, hbytes.symm⟩]
              rfl
            · rcases hcmd with rfl | ⟨rfl, hlt⟩
              · exact ⟨rfl, rfl, rfl, rfl⟩
              · exact ⟨rfl, rfl, rfl, rfl⟩

/-! ## `rt_msgget` -/

/-- `rt_msgget` after `down`. -/
theorem getFind_outcome {σ : State} (hw : Wf σ) {key : Int} {msgflg : BitVec 32}
    (hc : c = .msgget key msgflg) : Outcome P t c none σ (getFind σ t key msgflg) := by
  unfold getFind
  split
  · rename_i hkey
    exact .own σ ⟨hc, .inl hkey, rfl⟩
  · rename_i hkey
    split
    · rename_i hnone
      split
      · rename_i hflag
        refine .meets σ (.unknown key) ?_ ?_ (c.fits_meet P (by simp [Obstacle.errnos]))
        · rw [hc]
          exact ⟨rfl, hkey, by simpa using hflag⟩
        · intro id b hb
          obtain ⟨q, msq, hent, hq, -, rfl⟩ := State.boxes_eq_some.mp hb
          exact ipc_findkey_none hw.tab.ids hnone hent (by unfold State.perm; rw [hq]; rfl)
      · rename_i hflag
        exact .own σ ⟨hc, .inr (by simpa using hflag), rfl⟩
    · rename_i id hfind
      obtain ⟨q, p, hent, hp, hk⟩ := ipc_findkey_some hfind
      obtain ⟨msq, hq, rfl⟩ := Option.map_eq_some_iff.mp hp
      obtain ⟨i, hbox, hmod⟩ := State.boxes_entry hw.tab hent hq
      split
      · rename_i hflag
        refine .meets σ (.inUse key) ?_ ⟨i, msq.box, hbox, hk⟩
          (c.fits_meet P (by simp [Obstacle.errnos]))
        rw [hc]
        exact ⟨rfl, hkey, hflag⟩
      · rename_i hflag
        exact .own σ ⟨⟨key, hc, hkey, by simpa using hflag, i, msq.box, hbox, hk, hmod⟩, rfl⟩

/-- `rt_msgget` on a queue that exists. -/
theorem getLock_outcome {σ : State} {id : Nat} {msgflg : BitVec 32}
    (hc : c.Found σ.boxes id msgflg) : Outcome P t c none σ (getLock σ t id msgflg) := by
  obtain ⟨key, rfl, hkey, hflag, i, b, hb, hbk, hi⟩ := hc
  obtain ⟨q, msq, hent, hq, hdiv, rfl⟩ := State.boxes_eq_some.mp hb
  rw [hi] at hent
  have hlt : id < SEQ_MULTIPLIER := by
    rw [← hi]
    exact Nat.mod_lt i (by decide)
  have hbuild : ipc_buildid id msq.q_perm.seq = i := by
    unfold ipc_buildid
    rw [← hdiv, ← hi]
    exact Nat.div_add_mod i SEQ_MULTIPLIER
  have hl : ipc_lock σ.ids id = some q := by
    rw [ipc_lock_eq, Nat.mod_eq_of_lt hlt]
    exact hent
  simp only [getLock, hl, hq]
  split
  · exact .failed σ (by simp [Call.fails])
  · refine .acts (.find i key) rfl ⟨rfl, hkey, hflag⟩ ?_ (.inl (.refl _))
      (fun v hv => .of_eq (by simp [hv])) (.inl ?_)
    · simp only [Boxes.next, hb, Option.bind_some]
      rw [if_pos hbk]
      rfl
    · rw [State.setPc_tasks, if_pos rfl]
      exact hbuild

/-- `newque`. -/
theorem newque_outcome {σ : State} (hw : Wf σ) {e : Env} {key : Int} {msgflg : BitVec 32}
    {size : Nat} (hpc : (σ.tasks t).pc = .getAdd key msgflg size) (hc : c = .msgget key msgflg)
    (hflag : key = IPC_PRIVATE ∨ hasFlag msgflg IPC_CREAT = true) :
    Outcome P t c none σ (newque σ t e key msgflg size) := by
  have htable := hw.tab.table t
  rw [hpc] at htable
  obtain ⟨hsize, hkeys⟩ := htable
  unfold newque
  simp only
  split
  · rw [hc]
    exact .failed σ (by simp [Call.fails])
  · rename_i ids id seq hadd
    obtain ⟨hlt, hempty, -, -, -, -, hent⟩ := ipc_addid_spec hadd (Nat.le_of_eq hsize)
    have hid : id < SEQ_MULTIPLIER := by
      have h₂ := hw.tab.size_le
      have h₃ : MSGMNI < SEQ_MULTIPLIER := by decide
      omega
    let msq := newMsq (σ.tasks t).cred e key msgflg seq
    have hfresh : ∀ i, σ.ids.entry i ≠ some σ.hist.slots.length :=
      fun i hi => Nat.lt_irrefl _ (hw.tab.live_lt ⟨i, hi⟩)
    let τ : State :=
      { σ with
        ids := ids
        queues := Function.update σ.queues σ.hist.slots.length (some msq) }
    have hqueues : τ.queues = Function.update σ.queues σ.hist.slots.length (some msq) := rfl
    obtain ⟨hnone, hboxes⟩ := State.boxes_create hid hempty hfresh hqueues hent
    refine .acts (.create (ipc_buildid id seq) key) rfl ?_ ?_ (.inr (by rw [hpc]; rfl))
      (fun v hv => .of_eq (by simp [hv])) (.inl ?_)
    · rw [hc]
      exact ⟨rfl, hflag⟩
    · have huse : key = IPC_PRIVATE ∨ ∀ i b, σ.boxes i = some b → b.key ≠ key := by
        by_cases hp : key = IPC_PRIVATE
        · exact .inl hp
        · refine .inr ?_
          intro i b hb
          obtain ⟨q, msq', hq, hq', -, rfl⟩ := State.boxes_eq_some.mp hb
          exact hkeys hp q _ ⟨_, hq⟩ (by unfold State.perm; rw [hq']; rfl)
      simp only [Boxes.next]
      rw [if_pos ⟨hnone, huse⟩]
      exact congrArg some hboxes.symm
    · rw [State.setPc_tasks, if_pos rfl, hc]
      exact rfl

/-! ## Steps -/

/-- The code of a call before its first lock. -/
theorem enter_outcome (P : Params) {σ : State} (hw : Wf σ) (t : Tid) (e : Env) (c : Call) :
    Outcome P t c none σ (enter P σ t e c) := by
  unfold enter
  cases c with
  | msgsnd msqid mtype mtext msgflg space =>
      simp only
      split
      · rename_i hargs
        exact .back σ (.inl ⟨rfl, hargs.imp_right .inl⟩)
      · rename_i hargs
        split
        · rename_i htype
          exact .back σ (.inl ⟨rfl, .inr (.inr htype)⟩)
        · rename_i htype
          split
          · exact .back σ (.inr (by simp))
          · split
            · exact .back σ (.inr (by simp))
            · refine .move ?_ (fun _ _ => .of_eq ?_) ?_
              · rfl
              · rfl
              · refine ⟨⟨?_, by omega, rfl, rfl, rfl⟩, rfl⟩
                exact Int.toNat_of_nonneg (by omega)
  | msgrcv msqid msgsz msgtyp msgflg space =>
      simp only
      split
      · rename_i hargs
        exact .back σ (.inl ⟨rfl, hargs⟩)
      · refine .own σ ⟨⟨msqid, msgtyp, rfl, ?_, rfl⟩, rfl⟩
        exact Int.toNat_of_nonneg (by omega)
  | msgctl msqid cmd buf space =>
      have hfault : Outcome P t (.msgctl msqid cmd buf space) none σ (σ.ret t (.err .EFAULT)) :=
        .back σ (Call.fits_fails (.inr (by simp)))
      simp only
      split
      · rename_i hid
        exact .back σ (Call.fits_fails (.inl ⟨rfl, .inl hid⟩))
      · rename_i hid
        have hnat : (msqid.toNat : Int) = msqid := Int.toNat_of_nonneg (by omega)
        cases cmd with
        | other => cases buf <;> exact .back σ (.inl ⟨rfl, .inr rfl⟩)
        | ipcRmid => cases buf <;> exact .own σ ⟨⟨msqid, _, space, rfl, hnat, .inr rfl⟩, rfl⟩
        | ipcSet =>
            cases buf with
            | none => exact hfault
            | some setbuf =>
                simp only
                split
                · exact hfault
                · exact .own σ ⟨⟨msqid, _, space, rfl, hnat, .inl rfl⟩, rfl⟩
        | ipcInfo =>
            cases buf with
            | none => exact hfault
            | some setbuf => exact .own σ ⟨⟨msqid, _, rfl⟩, .inl rfl, rfl⟩
        | msgInfo =>
            cases buf with
            | none => exact hfault
            | some setbuf => exact .own σ ⟨⟨msqid, _, rfl⟩, .inr rfl, rfl⟩
        | ipcStat =>
            cases buf with
            | none => exact hfault
            | some setbuf => exact .own σ ⟨⟨msqid, _, rfl, hnat⟩, .inl rfl, rfl⟩
        | msgStat =>
            cases buf with
            | none => exact hfault
            | some setbuf =>
                simp only
                split
                · rename_i hsize
                  have hempty : σ.ids.entry msqid.toNat = none := by
                    cases he : σ.ids.entry msqid.toNat with
                    | none => rfl
                    | some q => exact absurd (IpcIds.entry_lt he) (Nat.not_lt.mpr hsize)
                  exact .refused σ (.vacant msqid.toNat) hnat (State.boxes_vacant hempty)
                    (by simp [Obstacle.errnos])
                · rename_i hsize
                  have hlt : msqid.toNat < SEQ_MULTIPLIER := by
                    have h₂ := hw.tab.size_le
                    have h₃ : MSGMNI < SEQ_MULTIPLIER := by decide
                    omega
                  exact .own σ ⟨⟨msqid, _, rfl, hnat⟩, .inr ⟨rfl, hlt⟩, rfl⟩
  | msgget key msgflg => exact .own σ ⟨rfl, rfl⟩

/-- `down` on the semaphore. -/
theorem down_outcome {σ σ' : State} {pc : Pc} {o : Option BoxOp} (h : down σ t pc = some σ')
    (hin : ({ σ.tasks t with pc := pc } : Task).Within P σ.boxes c o) : Outcome P t c o σ σ' := by
  unfold down at h
  split at h
  · cases h
    refine .move ?_ (fun _ _ => .of_eq ?_) hin
    · rfl
    · rfl
  · cases h

/-- Every stretch of code of a task inside a call. -/
theorem exec_outcome {σ σ' : State} (hw : Wf σ) (hr : RcvAlert σ) (ha : Accounts σ) {e : Env}
    {o : Option BoxOp} (hin : (σ.tasks t).Within P σ.boxes c o) (h : exec σ t e = some σ') :
    Outcome P t c o σ σ' := by
  unfold exec at h
  unfold Task.Within at hin
  cases hpc : (σ.tasks t).pc with
  | idle r => rw [hpc] at h; cases h
  | sndSleep a m => rw [hpc] at h; cases h
  | rcvSleep a q => rw [hpc] at h; cases h
  | sndLock a m =>
      rw [hpc] at h hin
      obtain ⟨hc, rfl⟩ := hin
      cases hl : ipc_lock σ.ids a.msqid with
      | none =>
          simp only [hl] at h
          cases h
          exact .meets σ _ (Call.sender hc).1 (State.boxes_no_lock hl)
            (c.fits_meet P (by simp [Obstacle.errnos]))
      | some q =>
          simp only [hl] at h
          cases h
          exact sndRetry_outcome hw hr hpc hl hc
  | sndRelock a m =>
      rw [hpc] at h hin
      obtain ⟨hc, rfl⟩ := hin
      cases h
      exact sndRelock_outcome hw hr hpc hc
  | sndFree err m =>
      rw [hpc] at h hin
      cases h
      refine .ret ?_ (fun _ _ => .of_eq ?_) hin
      · rfl
      · rfl
  | rcvLock a =>
      rw [hpc] at h hin
      obtain ⟨hc, rfl⟩ := hin
      cases hl : ipc_lock σ.ids a.msqid with
      | none =>
          simp only [hl] at h
          cases h
          exact .refused σ _ hc.gone (State.boxes_no_lock hl) (by simp [Obstacle.errnos])
      | some q =>
          simp only [hl] at h
          cases h
          exact rcvRetry_outcome hw hl hc
  | rcvRelock a q =>
      rw [hpc] at h hin
      obtain ⟨hc, hasks, ho⟩ := hin
      cases h
      exact rcvRelock_outcome hw hpc hc hasks ho
  | rcvNull a =>
      rw [hpc] at h hin
      obtain ⟨hc, -, ho⟩ := hin
      cases h
      exact rcvNull_outcome hw hpc hc ho
  | rcvCopy a m =>
      rw [hpc] at h hin
      obtain ⟨hc, rfl⟩ := hin
      cases h
      exact copyOut_outcome hc
  | ctlDown a =>
      rw [hpc] at h hin
      exact down_outcome h hin
  | ctlLock a =>
      rw [hpc] at h hin
      obtain ⟨hc, rfl⟩ := hin
      cases h
      exact ctlBody_outcome hw hpc hc
  | ctlFree q rest =>
      rw [hpc] at h hin
      cases h
      exact freeStep_outcome hw hpc hin
  | statLock msqid cmd space =>
      rw [hpc] at h hin
      obtain ⟨hc, hcmd, rfl⟩ := hin
      cases h
      exact statBody_outcome hw ha hc hcmd
  | infoDown cmd space =>
      rw [hpc] at h hin
      exact down_outcome h hin
  | infoRead cmd space =>
      rw [hpc] at h hin
      obtain ⟨⟨i, buf, rfl⟩, hcmd, rfl⟩ := hin
      cases h
      refine .own σ ?_
      show Call.fits P _ none (if _ then _ else _)
      split
      · exact Call.fits_fails (.inr (by simp))
      · rcases hcmd with rfl | rfl <;> trivial
  | getDown key msgflg =>
      rw [hpc] at h hin
      exact down_outcome h hin
  | getFind key msgflg =>
      rw [hpc] at h hin
      obtain ⟨hc, rfl⟩ := hin
      cases h
      exact getFind_outcome hw hc
  | getNew key msgflg =>
      rw [hpc] at h hin
      obtain ⟨hc, hflag, rfl⟩ := hin
      simp only at h
      split at h
      · cases h
        rw [hc]
        exact .failed σ (by simp [Call.fails])
      · cases h
        exact .own σ ⟨hc, hflag, rfl⟩
  | getGrow key msgflg =>
      rw [hpc] at h hin
      cases h
      refine .move ?_ (fun _ _ => .of_eq ?_) ?_
      · exact State.boxes_congr (grow_ary_spec σ.ids MSGMNI e.alloc).1 fun _ => rfl
      · rfl
      · exact hin
  | getAdd key msgflg size =>
      rw [hpc] at h hin
      obtain ⟨hc, hflag, rfl⟩ := hin
      cases h
      exact newque_outcome hw hpc hc hflag
  | getLock id msgflg =>
      rw [hpc] at h hin
      obtain ⟨hc, rfl⟩ := hin
      cases h
      exact getLock_outcome hc
  | semUp r =>
      rw [hpc] at h hin
      cases h
      refine .ret ?_ (fun _ _ => .of_eq ?_) hin
      · rfl
      · rfl

/-- A step of a task inside a call that is not code: it returns from `schedule`. -/
theorem resume_outcome {σ σ' : State} {o : Option BoxOp}
    (hin : (σ.tasks t).Within P σ.boxes c o) (h : resume σ t = some σ') :
    Outcome P t c o σ σ' ∧ returned σ' t = [] := by
  unfold resume at h
  unfold Task.Within at hin
  split at h
  · rename_i a m hpc
    rw [hpc] at hin
    cases h
    exact ⟨.own σ hin, by simp [returned]⟩
  · rename_i a q hpc
    rw [hpc] at hin
    cases h
    exact ⟨.own σ hin, by simp [returned]⟩
  · cases h

/-! ## Linearizability -/

/-- One step, and the events that answer it. -/
theorem step_answer {σ σ' : State} {l : Label} {at_ : Tid → Option (Call × Option BoxOp)}
    (hr : (machine P).Reachable σ) (hat : ∀ v, (σ.tasks v).At P σ.boxes (at_ v))
    (h : step P σ l = some σ') :
    ∃ es at', ((service P).atomic Tid).run (σ.boxes, at_) es = some (σ'.boxes, at') ∧
      es.filter Event.shown = observed σ l σ' ∧ ∀ v, (σ'.tasks v).At P σ'.boxes (at' v) := by
  have hw := wf_invariant P σ hr
  have hsem : ∀ t v, v ≠ t → (σ.tasks t).pc.holdsSem = true → (σ.tasks v).pc.holdsSem = false := by
    intro t v hv ht
    cases hh : (σ.tasks v).pc.holdsSem with
    | false => rfl
    | true => exact absurd (hw.tab.sem_unique hh ht) hv
  have hinside : ∀ t, (∀ r, (σ.tasks t).pc ≠ .idle r) →
      ∃ c o, at_ t = some (c, o) ∧ (σ.tasks t).Within P σ.boxes c o := by
    intro t hnot
    have ht := hat t
    cases hc : at_ t with
    | none =>
        rw [hc] at ht
        obtain ⟨r, hidle⟩ := ht
        exact absurd hidle (hnot r)
    | some co =>
        rw [hc] at ht
        exact ⟨co.1, co.2, rfl, ht⟩
  rcases step_cases h with ⟨t, c, e, r, rfl, hpc, rfl⟩ | ⟨t, e, rfl, hx⟩ | ⟨t, rfl, hx⟩ |
    ⟨t, b, rfl, rfl⟩
  · -- the invocation, and the code up to the first lock
    have hout : at_ t = none := by
      have ht := hat t
      cases hc : at_ t with
      | none => rfl
      | some co =>
          rw [hc] at ht
          unfold Task.At Task.Within at ht
          rw [hpc] at ht
          exact absurd ht id
    let τ := σ.modT t fun k => { k with calls := k.calls + 1 }
    have htouch : Effect σ τ := .touch t _ rfl rfl rfl id
    have hτ : Wf τ := htouch.wf hw
    have hτsem : (τ.tasks t).pc.holdsSem = true → False := by
      intro hh
      have hpc' : (τ.tasks t).pc = .idle r := by simp [τ, hpc]
      rw [hpc'] at hh
      cases hh
    let at₁ := Function.update at_ t (some (c, none))
    have hat₁ : ∀ v, v ≠ t → (τ.tasks v).At P τ.boxes (at₁ v) := by
      intro v hv
      have hsame : τ.tasks v = σ.tasks v := by simp [τ, hv]
      have hplace : at₁ v = at_ v := Function.update_of_ne hv _ _
      rw [hsame, hplace]
      exact hat v
    obtain ⟨es, at', hrun, hshown, hafter⟩ := (enter_outcome P hτ t e c).answer
      (fun v _ hh => (hτsem hh).elim) (Function.update_self ..) hat₁
    refine ⟨.inv t c :: es, at', ?_, ?_, hafter⟩
    · rw [TSys.run, Service.atomic_inv hout]
      exact hrun
    · rw [List.filter_cons_of_pos rfl, hshown]
      rfl
  · obtain ⟨c, o, hc, hin⟩ := hinside t (by
      intro r hr
      unfold exec at hx
      rw [hr] at hx
      cases hx)
    exact (exec_outcome hw (alert_invariant P σ hr).1 (accounts_invariant P σ hr) hin hx).answer
      (hsem t) hc fun v _ => hat v
  · obtain ⟨c, o, hc, hin⟩ := hinside t (by
      intro r hr
      unfold resume at hx
      rw [hr] at hx
      cases hx)
    obtain ⟨hout, hnone⟩ := resume_outcome hin hx
    obtain ⟨es, at', hrun, hshown, hafter⟩ := hout.answer (hsem t) hc fun v _ => hat v
    exact ⟨es, at', hrun, hshown.trans hnone, hafter⟩
  · refine ⟨[], at_, rfl, rfl, ?_⟩
    intro v
    refine (hat v).alike ?_ (.inl (.refl _))
    by_cases hv : v = t
    · subst hv
      exact ⟨by simp, .inl (by simp)⟩
    · exact .of_eq (by simp [hv])

/-- The callers stand inside their calls as the atomic system has them. -/
def Answered (P : Params) (σ : State) (at_ : Tid → Option (Call × Option BoxOp)) : Prop :=
  (machine P).Reachable σ ∧ ∀ v, (σ.tasks v).At P σ.boxes (at_ v)

theorem answered_init (P : Params) (σ : State) (hinit : (machine P).init σ) :
    (service P).object.init σ.boxes ∧ Answered P σ fun _ => none := by
  obtain ⟨cred, rfl⟩ := hinit
  have hr : (machine P).Reachable (initState P cred) := .init ⟨cred, rfl⟩
  refine ⟨?_, hr, fun v => ⟨none, rfl⟩⟩
  intro id
  cases hb : (initState P cred).boxes id with
  | none => rfl
  | some b =>
      obtain ⟨q, msq, -, hq, -⟩ := State.boxes_eq_some.mp hb
      cases hq

theorem answered_step (P : Params) (σ : State) (l : Label) (σ' : State)
    (at_ : Tid → Option (Call × Option BoxOp)) (hat : Answered P σ at_)
    (hnext : (machine P).next σ l = some σ') :
    ∃ es at', ((service P).atomic Tid).run (σ.boxes, at_) es = some (σ'.boxes, at') ∧
      es.filter Event.shown = observed σ l σ' ∧ Answered P σ' at' := by
  obtain ⟨hr, hat⟩ := hat
  obtain ⟨es, at', hrun, hshown, hafter⟩ := step_answer hr hat hnext
  exact ⟨es, at', hrun, hshown, step_reachable hr hnext, hafter⟩

/-- Every run of the module shows the invocations and returns of a run in which
each call takes effect at one moment between the two, as the message boxes say:
a send puts its message at the end of the box that the identifier names, a
receive takes the message that its selector picks, a removal takes the box away,
`rt_msgget` makes a box for a key not in use or finds the one that is, and a
failed call does nothing. A call fails for what is in the boxes only if it is so at
that moment: no box has the identifier (-EINVAL, -EIDRM), the box has no message that
is picked (-ENOMSG), no box has the key (-ENOENT), one has it (-EEXIST). The boxes it
ends with are those of the queues. -/
theorem calls_linearizable (P : Params) :
    (machine P).Linearizable observed State.boxes (service P) :=
  .of_simulation (Answered P) (answered_init P) (answered_step P)

end RtaiDemos.Sysvmsg
