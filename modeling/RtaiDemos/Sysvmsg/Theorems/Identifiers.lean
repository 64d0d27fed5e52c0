import RtaiDemos.Sysvmsg.Logic.Stale
import RtaiDemos.Sysvmsg.Theorems.Delivery

/-!
# Identifiers are not confused after removal

A call with the identifier of a removed queue returns an error of its own or
what a sender gave it before the removal, and neither looks at nor touches the
queue that has its slot now, except for the sequence number `msg_checkid`
compares.
-/

namespace RtaiDemos.Sysvmsg

/-! ## Reading and writing a queue -/

/-- The state with another content of the queue at `p`. -/
def State.setQ (σ : State) (p : QId) (msq : MsgQueue) : State :=
  { σ with queues := Function.update σ.queues p (some msq) }

/-- No step of `t` from here reads or writes the queue at `p`, apart from its
sequence number, or the records of another task: with any other content of
the queue the step is the same step, and it leaves that content alone. -/
def State.Untouched (P : Params) (σ : State) (t : Tid) (p : QId) : Prop :=
  ∀ msq msq' l, σ.queues p = some msq → msq'.q_perm.seq = msq.q_perm.seq → l.task = t →
    step P (σ.setQ p msq') l = (step P σ l).map (·.setQ p msq') ∧
    ∀ σ', step P σ l = some σ' → ∀ u, u ≠ t → σ'.tasks u = σ.tasks u

theorem enter_setQ (P : Params) (σ : State) (p : QId) (msq : MsgQueue) (t : Tid) (e : Env)
    (c : Call) : enter P (σ.setQ p msq) t e c = (enter P σ t e c).setQ p msq := by
  have hids : (σ.setQ p msq).ids = σ.ids := rfl
  unfold enter
  rw [hids]
  split
  · split_ifs
    all_goals rfl
  · split
    · rfl
    · rfl
  · split
    · rfl
    · split
      all_goals first | rfl | (split <;> rfl)
  · rfl

theorem down_setQ (σ : State) (p : QId) (msq : MsgQueue) (t : Tid) (pc : Pc) :
    down (σ.setQ p msq) t pc = (down σ t pc).map (·.setQ p msq) := by
  have hsem : (σ.setQ p msq).sem = σ.sem := rfl
  unfold down
  rw [hsem]
  split
  · rfl
  · rfl

theorem resume_setQ (σ : State) (p : QId) (msq : MsgQueue) (t : Tid) :
    resume (σ.setQ p msq) t = (resume σ t).map (·.setQ p msq) := by
  unfold resume
  have htask : (σ.setQ p msq).tasks = σ.tasks := rfl
  rw [htask]
  cases (σ.tasks t).pc <;> rfl

theorem staleExec_setQ (σ : State) (p : QId) (msq : MsgQueue) (t : Tid) :
    staleExec (σ.setQ p msq) t = (staleExec σ t).map (·.setQ p msq) := by
  unfold staleExec
  have htask : (σ.setQ p msq).tasks = σ.tasks := rfl
  rw [htask]
  cases hpc : (σ.tasks t).pc <;> first | rfl | exact down_setQ σ p msq t _

/-- Another content with the same sequence number fails `msg_checkid` too. -/
theorem State.Useless.setQ {σ : State} {t : Tid} {i : Nat} (h : σ.Useless t i) {p : QId}
    {msq msq' : MsgQueue} (hq : σ.queues p = some msq)
    (hseq : msq'.q_perm.seq = msq.q_perm.seq) : (σ.setQ p msq').Useless t i := by
  refine ⟨?_, h.snd, h.rcv⟩
  intro p' hp'
  obtain ⟨msq₁, hm, hc⟩ := h.slot p' hp'
  by_cases hpp : p' = p
  · subst hpp
    rw [hq] at hm
    cases hm
    refine ⟨msq', by simp [State.setQ], ?_⟩
    unfold ipc_checkid at hc ⊢
    rw [hseq]
    exact hc
  · exact ⟨msq₁, by simp [State.setQ, hpp, hm], hc⟩

/-- The last stretch of a call looks at no queue. -/
theorem exec_last_setQ {σ : State} {t : Tid} (h : (σ.tasks t).pc.last = true) (p : QId)
    (msq : MsgQueue) (e : Env) :
    exec (σ.setQ p msq) t e = (exec σ t e).map (·.setQ p msq) := by
  unfold exec
  have htask : (σ.setQ p msq).tasks = σ.tasks := rfl
  rw [htask]
  cases hpc : (σ.tasks t).pc with
  | idle r => rfl
  | sndFree err m => rfl
  | rcvCopy a m => rfl
  | semUp r => rfl
  | _ => rw [hpc] at h; cases h

/-- The stretches of a call with a useless identifier change no other task. -/
theorem staleExec_other {σ σ' : State} {t : Tid} (h : staleExec σ t = some σ') (u : Tid)
    (hu : u ≠ t) : σ'.tasks u = σ.tasks u := by
  unfold staleExec at h
  split at h
  · cases h
  · cases h
  · unfold down at h
    split at h
    · cases h
      simp [hu]
    · cases h
  · cases h
    simp [hu]

theorem exec_last_other {σ σ' : State} {t : Tid} {e : Env} (hl : (σ.tasks t).pc.last = true)
    (h : exec σ t e = some σ') (u : Tid) (hu : u ≠ t) : σ'.tasks u = σ.tasks u := by
  unfold exec at h
  cases hpc : (σ.tasks t).pc with
  | idle r => rw [hpc] at h; cases h
  | sndFree err m => rw [hpc] at h; cases h; simp [hu]
  | rcvCopy a m => rw [hpc] at h; cases h; simp [copyOut, hu]
  | semUp r => rw [hpc] at h; cases h; simp [hu]
  | _ => rw [hpc] at hl; cases hl

theorem untouched (P : Params) {σ : State} (hw : Wf σ) {i : Nat} (hs : σ.Stale i) {t : Tid}
    (ht : (σ.tasks t).pc.ident = some i ∨ (σ.tasks t).pc.last = true) (p : QId) :
    σ.Untouched P t p := by
  intro msq msq' l hq hseq hl
  have hexec : ∀ e, exec (σ.setQ p msq') t e = (exec σ t e).map (·.setQ p msq') ∧
      ∀ σ', exec σ t e = some σ' → ∀ u, u ≠ t → σ'.tasks u = σ.tasks u := by
    intro e
    rcases ht with hi | hlast
    · have hu := hs.useless hw hi
      rw [exec_stale (hu.setQ hq hseq) hi e, exec_stale hu hi e]
      exact ⟨staleExec_setQ σ p msq' t, fun σ' h u => staleExec_other h u⟩
    · exact ⟨exec_last_setQ hlast p msq' e, fun σ' h u => exec_last_other hlast h u⟩
  have hoops : (σ.setQ p msq').oops = σ.oops := rfl
  unfold step
  rw [hoops]
  simp only [hw.ok, Option.isSome_none, Bool.false_eq_true, if_false]
  cases l with
  | call u c e =>
      have hut : u = t := hl
      subst hut
      have htask : (σ.setQ p msq').tasks u = σ.tasks u := rfl
      simp only [htask]
      cases (σ.tasks u).pc with
      | idle r =>
          refine ⟨congrArg some (enter_setQ P (σ.modT u fun k => { k with calls := k.calls + 1 })
            p msq' u e c), ?_⟩
          intro σ' h v hv
          cases h
          exact (call_tasks P σ u e c).1 v hv
      | _ => exact ⟨rfl, fun σ' h => by cases h⟩
  | exec u e =>
      have hut : u = t := hl
      subst hut
      exact hexec e
  | resume u =>
      have hut : u = t := hl
      subst hut
      refine ⟨resume_setQ σ p msq' u, ?_⟩
      intro σ' h v hv
      simp only [resume] at h
      split at h
      · cases h
        simp [hv]
      · cases h
        simp [hv]
      · cases h
  | signal u b =>
      have hut : u = t := hl
      subst hut
      refine ⟨rfl, ?_⟩
      intro σ' h v hv
      cases h
      simp [hv]

/-! ## The answers of a call -/

/-- What a receiver returns for what is in its `r_msg`: the error, or the
message, unless the copy to user space fails. -/
def RcvArgs.Returns (a : RcvArgs) : RMsg → Ret → Prop
  | .err err, r => r = .err err
  | .msg m, r =>
    (a.space = true ∧ r = .err .EFAULT) ∨
      r = .rcv (min a.msgsz m.m_ts) m.m_type (m.m_text.take (min a.msgsz m.m_ts))

/-- A task in a call with the stale identifier `i` that can only return what
`A` allows. -/
def CallPc (i : Nat) (A : Ret → Prop) (k : Task) : Prop :=
  match k.pc with
  | .sndLock a _ => a.msqid = i ∧ A (.err .EINVAL) ∧ A (.err .EIDRM)
  | .sndSleep a _ | .sndRelock a _ => a.msqid = i ∧ A (.err .EIDRM) ∧ A (.err .EINTR)
  | .sndFree err _ => A (.err err)
  | .rcvLock a => a.msqid = i ∧ A (.err .EINVAL) ∧ A (.err .EIDRM)
  | .rcvSleep a _ | .rcvRelock a _ | .rcvNull a =>
    a.msqid = i ∧ ∀ r, a.Returns k.msr_d.r_msg r → A r
  | .rcvCopy a m => ∀ r, a.Returns (.msg m) r → A r
  | .ctlDown a | .ctlLock a => a.msqid = i ∧ A (.err .EINVAL) ∧ A (.err .EIDRM)
  | .statLock j cmd _ => j = i ∧ cmd ≠ .msgStat ∧ A (.err .EINVAL) ∧ A (.err .EIDRM)
  | .semUp r => A r
  | .idle (some r) => A r
  | _ => False

theorem CallPc.ident {i : Nat} {A : Ret → Prop} {k : Task} (h : CallPc i A k) :
    k.pc.ident = some i ∨ k.pc.last = true := by
  unfold CallPc at h
  cases hpc : k.pc with
  | sndFree err m => exact .inr rfl
  | rcvCopy a m => exact .inr rfl
  | semUp r => exact .inr rfl
  | idle r => exact .inr rfl
  | statLock j cmd space =>
      rw [hpc] at h
      refine .inl ?_
      unfold Pc.ident
      simp only
      rw [if_neg h.2.1, h.1]
  | sndLock a m => rw [hpc] at h; exact .inl (congrArg some h.1)
  | sndSleep a m => rw [hpc] at h; exact .inl (congrArg some h.1)
  | sndRelock a m => rw [hpc] at h; exact .inl (congrArg some h.1)
  | rcvLock a => rw [hpc] at h; exact .inl (congrArg some h.1)
  | rcvSleep a q => rw [hpc] at h; exact .inl (congrArg some h.1)
  | rcvRelock a q => rw [hpc] at h; exact .inl (congrArg some h.1)
  | rcvNull a => rw [hpc] at h; exact .inl (congrArg some h.1)
  | ctlDown a => rw [hpc] at h; exact .inl (congrArg some h.1)
  | ctlLock a => rw [hpc] at h; exact .inl (congrArg some h.1)
  | _ => rw [hpc] at h; exact absurd h (by simp)

/-- Both answers to a failed lookup are allowed. -/
theorem refusal_allowed {A : Ret → Prop} (ids : IpcIds) (i : Nat)
    (h : A (.err .EINVAL) ∧ A (.err .EIDRM)) : A (.err (refusal ids i)) := by
  unfold refusal
  split
  · exact h.1
  · exact h.2

/-- Reading `r_msg` stays within what it allows. -/
theorem readResult_allowed {i : Nat} {A : Ret → Prop} {a : RcvArgs} (k : Task)
    (h : ∀ r, a.Returns k.msr_d.r_msg r → A r) :
    CallPc i A { k with pc := readResult a k.msr_d.r_msg } := by
  cases hr : k.msr_d.r_msg with
  | msg m =>
      rw [hr] at h
      exact h
  | err err =>
      rw [hr] at h
      exact h _ rfl

/-- A stretch of the call. -/
theorem CallPc.next {i : Nat} {A : Ret → Prop} {k : Task} (h : CallPc i A k)
    (hi : k.pc.ident = some i) (ids : IpcIds) (hawake : k.pc.asleep = false)
    (hdown : ∀ a, k.pc ≠ .ctlDown a) : CallPc i A { k with pc := staleNext ids k } := by
  unfold CallPc at h
  unfold staleNext
  cases hpc : k.pc with
  | sndLock a m =>
      rw [hpc] at h
      exact refusal_allowed ids _ h.2
  | sndRelock a m =>
      rw [hpc] at h
      show A (.err (if _ then _ else _))
      split
      · exact h.2.2
      · exact h.2.1
  | rcvLock a =>
      rw [hpc] at h
      exact refusal_allowed ids _ h.2
  | rcvRelock a q =>
      rw [hpc] at h
      simp only
      split
      · exact h
      · exact readResult_allowed k h.2
  | rcvNull a =>
      rw [hpc] at h
      exact readResult_allowed k h.2
  | ctlLock a =>
      rw [hpc] at h
      exact refusal_allowed ids _ h.2
  | statLock j cmd space =>
      rw [hpc] at h
      exact refusal_allowed ids _ h.2.2
  | sndSleep a m => rw [hpc] at hawake; cases hawake
  | rcvSleep a q => rw [hpc] at hawake; cases hawake
  | ctlDown a => exact absurd hpc (hdown a)
  | _ => rw [hpc] at hi; cases hi

theorem copyOut_allowed {A : Ret → Prop} {a : RcvArgs} {m : Msg} {e : Env}
    (h : ∀ r, a.Returns (.msg m) r → A r) :
    A (if a.space && !e.copy then .err .EFAULT
      else .rcv (if a.msgsz > m.m_ts then m.m_ts else a.msgsz) m.m_type
        (m.m_text.take (if a.msgsz > m.m_ts then m.m_ts else a.msgsz))) := by
  have hmin : (if a.msgsz > m.m_ts then m.m_ts else a.msgsz) = min a.msgsz m.m_ts := by
    split <;> omega
  rw [hmin]
  apply h
  split
  · rename_i hs
    exact .inl ⟨by simp_all, rfl⟩
  · exact .inr rfl

/-- Every turn of the task keeps it within the answers allowed. -/
theorem CallPc.turn {σ σ' : State} {t : Tid} {i : Nat} {A : Ret → Prop} (hw : Wf σ)
    (hs : σ.Stale i) (h : CallPc i A (σ.tasks t)) (hturn : Turn t σ σ') :
    CallPc i A (σ'.tasks t) := by
  cases hturn with
  | foreign poked _ =>
      have hmsr : ∀ a q, (σ.tasks t).pc.rcvWaiting = some (a, q) → a.msqid = i →
          (σ'.tasks t).msr_d = (σ.tasks t).msr_d := by
        intro a q hwait hi
        apply poked.msr
        unfold Task.rcvLinked
        rw [if_neg (hs.not_linked hw hwait hi)]
      unfold CallPc at h ⊢
      rw [poked.pc]
      cases hpc : (σ.tasks t).pc with
      | rcvSleep a q =>
          rw [hpc] at h
          simp only [hmsr a q (by rw [hpc]; rfl) h.1]
          exact h
      | rcvRelock a q =>
          rw [hpc] at h
          simp only [hmsr a q (by rw [hpc]; rfl) h.1]
          exact h
      | rcvNull a =>
          rw [hpc] at h
          have hnone : (σ.tasks t).rcvLinked = none := Task.rcvLinked_none (by rw [hpc]; rfl)
          simp only [poked.msr hnone]
          exact h
      | idle r =>
          rw [hpc] at h
          cases r <;> exact h
      | _ => rw [hpc] at h; exact h
  | code e hx =>
      rcases h.ident with hi | hlast
      · rw [exec_stale (hs.useless hw hi) hi e] at hx
        unfold staleExec at hx
        split at hx
        · cases hx
        · cases hx
        · rename_i a hpc
          unfold down at hx
          split at hx
          · cases hx
            unfold CallPc at h ⊢
            rw [hpc] at h
            rw [State.setPc_tasks, if_pos rfl]
            exact h
          · cases hx
        · rename_i hsnd hrcv hdown
          cases hx
          rw [State.setPc_tasks, if_pos rfl]
          refine h.next hi σ.ids ?_ hdown
          cases hpc : (σ.tasks t).pc <;> first
            | rfl
            | exact absurd hpc (hsnd _ _)
            | exact absurd hpc (hrcv _ _)
      · unfold exec at hx
        unfold CallPc at h ⊢
        cases hpc : (σ.tasks t).pc with
        | idle r => rw [hpc] at hx; cases hx
        | sndFree err m =>
            rw [hpc] at h hx
            cases hx
            rw [State.ret_eq, State.setPc_tasks, if_pos rfl]
            exact h
        | rcvCopy a m =>
            rw [hpc] at h hx
            cases hx
            unfold copyOut
            rw [State.ret_eq, State.setPc_tasks, if_pos rfl]
            exact copyOut_allowed h
        | semUp r =>
            rw [hpc] at h hx
            cases hx
            rw [State.ret_eq, State.setPc_tasks, if_pos rfl]
            exact h
        | _ => rw [hpc] at hlast; cases hlast
  | back hx =>
      unfold resume at hx
      split at hx
      · rename_i a m hpc
        cases hx
        unfold CallPc at h ⊢
        rw [hpc] at h
        rw [State.setPc_tasks, if_pos rfl]
        exact h
      · rename_i a q hpc
        cases hx
        unfold CallPc at h ⊢
        rw [hpc] at h
        rw [State.setPc_tasks, if_pos rfl]
        exact h
      · cases hx
  | signal b he =>
      rw [he, State.modT_tasks, if_pos rfl]
      exact h

/-! ## The call comes to its end -/

/-- How many stretches a call with a stale identifier has left. -/
def Pc.togo : Pc → Nat
  | .sndFree _ _ | .semUp _ | .rcvCopy _ _ | .statLock _ _ _ | .rcvLock _ => 1
  | .rcvNull _ | .sndLock _ _ | .sndRelock _ _ | .ctlLock _ => 2
  | .ctlDown _ | .sndSleep _ _ | .rcvRelock _ _ => 3
  | .rcvSleep _ _ => 4
  | _ => 0

/-- The call of `t` is on its way to return: each of its stretches brings it
nearer, it is awake if it is still in `schedule`, and nothing holds it up but
`ids->sem`. -/
structure State.Returning (σ : State) (t : Tid) : Prop where
  exec : ∀ e σ', exec σ t e = some σ' → (σ'.tasks t).pc.togo < (σ.tasks t).pc.togo
  resume : ∀ σ', resume σ t = some σ' → (σ'.tasks t).pc.togo < (σ.tasks t).pc.togo
  free : (∃ r, (σ.tasks t).pc = .idle (some r)) ∨
    ((σ.tasks t).woken = true ∧ (Sysvmsg.resume σ t).isSome) ∨
    (∀ e, (Sysvmsg.exec σ t e).isSome) ∨
    ((∃ a, (σ.tasks t).pc = .ctlDown a) ∧ σ.sem.isSome)

theorem staleNext_togo (ids : IpcIds) {k : Task} {i : Nat} (hi : k.pc.ident = some i)
    (hawake : k.pc.asleep = false) (hdown : ∀ a, k.pc ≠ .ctlDown a) :
    (staleNext ids k).togo < k.pc.togo := by
  have hread : ∀ a, (readResult a k.msr_d.r_msg).togo < 2 := by
    intro a
    cases k.msr_d.r_msg with
    | msg m => exact Nat.lt_succ_self 1
    | err err => exact Nat.zero_lt_succ 1
  unfold staleNext
  cases hpc : k.pc with
  | sndLock a m => exact Nat.lt_succ_self 1
  | sndRelock a m => exact Nat.lt_succ_self 1
  | rcvLock a => exact Nat.zero_lt_one
  | rcvRelock a q =>
      simp only
      split
      · exact Nat.lt_succ_self 2
      · exact Nat.lt_trans (hread a) (Nat.lt_succ_self 2)
  | rcvNull a => exact hread a
  | ctlLock a => exact Nat.lt_succ_self 1
  | statLock j cmd space => exact Nat.zero_lt_one
  | sndSleep a m => rw [hpc] at hawake; cases hawake
  | rcvSleep a q => rw [hpc] at hawake; cases hawake
  | ctlDown a => exact absurd hpc (hdown a)
  | _ => rw [hpc] at hi; cases hi

theorem CallPc.returning {σ : State} {t : Tid} {i : Nat} {A : Ret → Prop} (hw : Wf σ)
    (ht : Told σ) (hs : σ.Stale i) (h : CallPc i A (σ.tasks t)) : σ.Returning t := by
  refine ⟨?_, ?_, ?_⟩
  · intro e σ' hx
    rcases h.ident with hi | hlast
    · rw [exec_stale (hs.useless hw hi) hi e] at hx
      unfold staleExec at hx
      split at hx
      · cases hx
      · cases hx
      · rename_i a hpc
        unfold down at hx
        split at hx
        · cases hx
          rw [State.setPc_tasks, if_pos rfl, hpc]
          exact Nat.lt_succ_self 2
        · cases hx
      · rename_i hsnd hrcv hdown
        cases hx
        rw [State.setPc_tasks, if_pos rfl]
        refine staleNext_togo σ.ids hi ?_ hdown
        cases hpc : (σ.tasks t).pc <;> first
          | rfl
          | exact absurd hpc (hsnd _ _)
          | exact absurd hpc (hrcv _ _)
    · unfold Sysvmsg.exec at hx
      cases hpc : (σ.tasks t).pc with
      | idle r => rw [hpc] at hx; cases hx
      | sndFree err m =>
          rw [hpc] at hx
          cases hx
          rw [State.ret_eq, State.setPc_tasks, if_pos rfl]
          exact Nat.zero_lt_one
      | rcvCopy a m =>
          rw [hpc] at hx
          cases hx
          unfold copyOut
          rw [State.ret_eq, State.setPc_tasks, if_pos rfl]
          exact Nat.zero_lt_one
      | semUp r =>
          rw [hpc] at hx
          cases hx
          rw [State.ret_eq, State.setPc_tasks, if_pos rfl]
          exact Nat.zero_lt_one
      | _ => rw [hpc] at hlast; cases hlast
  · intro σ' hx
    unfold Sysvmsg.resume at hx
    split at hx
    · rename_i a m hpc
      cases hx
      rw [State.setPc_tasks, if_pos rfl, hpc]
      exact Nat.lt_succ_self 2
    · rename_i a q hpc
      cases hx
      rw [State.setPc_tasks, if_pos rfl, hpc]
      exact Nat.lt_succ_self 3
    · cases hx
  · have hident := h.ident
    unfold CallPc at h
    cases hpc : (σ.tasks t).pc with
    | idle r =>
        rw [hpc] at h
        cases r with
        | none => exact absurd h (by simp)
        | some r => exact .inl ⟨r, rfl⟩
    | sndSleep a m =>
        refine .inr (.inl ⟨?_, by simp [Sysvmsg.resume, hpc]⟩)
        rw [hpc] at h
        have hnone := hs.not_linked_snd hw (by rw [hpc]; exact congrArg some h.1)
        exact (ht t).snd a m hpc hnone
    | rcvSleep a q =>
        refine .inr (.inl ⟨?_, by simp [Sysvmsg.resume, hpc]⟩)
        rw [hpc] at h
        exact (ht t).rcv a q hpc (hs.not_linked hw (by rw [hpc]; rfl) h.1)
    | ctlDown a =>
        cases hsem : σ.sem with
        | none =>
            refine .inr (.inr (.inl ?_))
            intro e
            simp [Sysvmsg.exec, hpc, down, hsem]
        | some u => exact .inr (.inr (.inr ⟨⟨a, rfl⟩, rfl⟩))
    | sndLock a m =>
        refine .inr (.inr (.inl fun e => ?_))
        simp only [Sysvmsg.exec, hpc]
        split <;> rfl
    | rcvLock a =>
        refine .inr (.inr (.inl fun e => ?_))
        simp only [Sysvmsg.exec, hpc]
        split <;> rfl
    | sndRelock a m => exact .inr (.inr (.inl fun e => by simp [Sysvmsg.exec, hpc]))
    | sndFree err m => exact .inr (.inr (.inl fun e => by simp [Sysvmsg.exec, hpc]))
    | rcvRelock a q => exact .inr (.inr (.inl fun e => by simp [Sysvmsg.exec, hpc]))
    | rcvNull a => exact .inr (.inr (.inl fun e => by simp [Sysvmsg.exec, hpc]))
    | rcvCopy a m => exact .inr (.inr (.inl fun e => by simp [Sysvmsg.exec, hpc]))
    | ctlLock a => exact .inr (.inr (.inl fun e => by simp [Sysvmsg.exec, hpc]))
    | statLock j cmd space => exact .inr (.inr (.inl fun e => by simp [Sysvmsg.exec, hpc]))
    | semUp r => exact .inr (.inr (.inl fun e => by simp [Sysvmsg.exec, hpc]))
    | _ => rw [hpc] at h; exact absurd h (by simp)

/-- What is said of a call with the identifier of a removed queue, at any
moment of the call: it returns an answer in `A`, it does return, and it does
not touch any live queue. -/
structure State.Refused (P : Params) (σ : State) (t : Tid) (A : Ret → Prop) : Prop where
  answer : ∀ r, (σ.tasks t).pc = .idle (some r) → A r
  returning : σ.Returning t
  untouched : ∀ p, σ.Live p → σ.Untouched P t p

/-- From a state in which the identifier is retired, to the end of the call. -/
theorem refused {P : Params} {σ σ₁ : State} {t : Tid} {i : Nat} {q : QId} {A : Ret → Prop}
    (hr : (machine P).Reachable σ) (hq : σ.Retired i q) (h : CallPc i A (σ.tasks t))
    (hsteps : (machine P).Steps σ σ₁) (hcalls : (σ₁.tasks t).calls = (σ.tasks t).calls)
    (hbound : σ₁.hist.slots.length ≤ q + 65536) : σ₁.Refused P t A := by
  have hend : σ₁.Retired i q ∧ (σ₁.hist.slots.length ≤ q + 65536 → CallPc i A (σ₁.tasks t)) := by
    refine incall_induct (I := fun τ => τ.Retired i q ∧
      (τ.hist.slots.length ≤ q + 65536 → CallPc i A (τ.tasks t))) ?_ hr ⟨hq, fun _ => h⟩ hsteps
      hcalls
    rintro τ τ' hrτ ⟨hret, hcall⟩ ⟨l, hl⟩ hturn
    have hwτ := wf_invariant P τ hrτ
    have hnew := step_onlyNew hwτ hl
    refine ⟨hret.onlyNew hnew, ?_⟩
    intro hb
    have hb : τ.hist.slots.length ≤ q + 65536 := Nat.le_trans hnew.1 hb
    exact (hcall hb).turn hwτ (hret.stale hwτ hb) hturn
  have hr₁ := hr.steps hsteps
  have hw := wf_invariant P σ₁ hr₁
  have hcall := hend.2 hbound
  have hstale := hend.1.stale hw hbound
  refine ⟨?_, hcall.returning hw (told_invariant P σ₁ hr₁) hstale,
    fun p _ => untouched P hw hstale hcall.ident p⟩
  intro r hpc
  unfold CallPc at hcall
  rw [hpc] at hcall
  exact hcall

/-! ## Identifiers fit an `int` -/

/-- A value the call returns, if it does, is an `int`. -/
def Pc.Fits : Pc → Prop
  | .semUp (.ok v) | .idle (some (.ok v)) => v ≤ INT_MAX
  | _ => True

theorem ipc_buildid_le {id seq : Nat} (hid : id < SEQ_MULTIPLIER) (hseq : seq < 65536) :
    ipc_buildid id seq ≤ INT_MAX := by
  unfold ipc_buildid SEQ_MULTIPLIER IPCMNI INT_MAX at *
  omega

theorem fits_setPc (σ : State) (t : Tid) {pc : Pc} (h : pc.Fits) :
    ((σ.setPc t pc).tasks t).pc.Fits := by
  rw [State.setPc_tasks, if_pos rfl]
  exact h

theorem sndRetry_fits {σ : State} {t : Tid} (e : Env) (a : SndArgs) (m : Msg) (q : QId)
    (h : (σ.tasks t).pc.Fits) : ((sndRetry σ t e a m q).tasks t).pc.Fits := by
  unfold sndRetry
  split
  · exact h
  · split
    · exact fits_setPc _ _ trivial
    · split
      · exact fits_setPc _ _ trivial
      · split
        · split
          · exact fits_setPc _ _ trivial
          · exact fits_setPc _ _ trivial
        · exact fits_setPc _ _ (Nat.zero_le _)

theorem rcvRetry_fits {σ : State} {t : Tid} (e : Env) (a : RcvArgs) (q : QId)
    (h : (σ.tasks t).pc.Fits) : ((rcvRetry σ t e a q).tasks t).pc.Fits := by
  unfold rcvRetry
  split
  · exact h
  · split
    · exact fits_setPc _ _ trivial
    · split
      · exact fits_setPc _ _ trivial
      · split
        · split
          · exact fits_setPc _ _ trivial
          · exact fits_setPc _ _ trivial
        · split
          · exact fits_setPc _ _ trivial
          · exact fits_setPc _ _ trivial

theorem ctlBody_fits {σ : State} {t : Tid} (e : Env) (a : CtlArgs)
    (h : (σ.tasks t).pc.Fits) : ((ctlBody σ t e a).tasks t).pc.Fits := by
  unfold ctlBody
  split
  · exact fits_setPc _ _ trivial
  · split
    · exact h
    · simp only
      split
      · exact fits_setPc _ _ trivial
      · split
        · exact fits_setPc _ _ trivial
        · split
          · split
            · exact fits_setPc _ _ trivial
            · exact fits_setPc _ _ (Nat.zero_le _)
          · unfold freeque
            split
            · exact h
            · split
              · exact h
              · exact fits_setPc _ _ trivial

/-- `newque` and the lookup of `rt_msgget` build their identifiers from a slot
of the table and a sequence number. -/
theorem newque_fits {σ : State} (hw : Wf σ) {t : Tid} (e : Env) {key : Int} {msgflg : BitVec 32}
    {size : Nat} (hpc : (σ.tasks t).pc = .getAdd key msgflg size) :
    ((newque σ t e key msgflg size).tasks t).pc.Fits := by
  have hsize : size = σ.ids.size := by
    have htab := hw.tab.table t
    rw [hpc] at htab
    exact htab.1
  unfold newque
  simp only
  split
  · exact fits_setPc _ _ trivial
  · rename_i ids id seq hadd
    obtain ⟨hlt, _, hseq, _⟩ := ipc_addid_spec hadd (Nat.le_of_eq hsize)
    refine fits_setPc _ _ (ipc_buildid_le ?_ ?_)
    · have hle := hw.tab.size_le
      unfold SEQ_MULTIPLIER IPCMNI
      unfold MSGMNI at hle
      omega
    · rw [hseq, hw.tab.seq]
      exact Nat.mod_lt _ (by omega)

theorem getLock_fits {σ : State} (hw : Wf σ) {t : Tid} {id : Nat} {msgflg : BitVec 32}
    (hpc : (σ.tasks t).pc = .getLock id msgflg) :
    ((getLock σ t id msgflg).tasks t).pc.Fits := by
  have htab := hw.tab.table t
  rw [hpc] at htab
  unfold getLock
  split
  · rw [State.bug, hpc]
    trivial
  · rename_i q hlock
    split
    · rw [State.bug, hpc]
      trivial
    · rename_i msq hm
      split
      · exact fits_setPc _ _ trivial
      · refine fits_setPc _ _ (ipc_buildid_le htab.1 ?_)
        obtain ⟨msq', hm', hseq⟩ := (ipc_lock_live hlock).perm_isSome hw.tab
        rw [hm] at hm'
        cases hm'
        rw [hseq]
        exact Nat.mod_lt _ (by omega)

theorem exec_fits {σ σ' : State} (hw : Wf σ) {t : Tid} {e : Env} (h : exec σ t e = some σ')
    (hfit : (σ.tasks t).pc.Fits) : (σ'.tasks t).pc.Fits := by
  have hdown : ∀ pc, down σ t pc = some σ' → pc.Fits → (σ'.tasks t).pc.Fits := by
    intro pc hd hpc
    unfold down at hd
    split at hd
    · cases hd
      exact fits_setPc _ _ hpc
    · cases hd
  unfold exec at h
  split at h
  · cases h
  · cases h
  · cases h
  · split at h
    · cases h
      exact fits_setPc _ _ trivial
    · cases h
      exact sndRetry_fits _ _ _ _ hfit
  · cases h
    unfold sndRelock
    split
    · exact fits_setPc _ _ trivial
    · simp only
      split
      · exact fits_setPc _ _ trivial
      · refine sndRetry_fits _ _ _ _ ?_
        rcases ss_del_cases σ t with ⟨o, heq⟩ | ⟨q, heq⟩
        · rw [heq]
          exact hfit
        · rw [heq]
          simpa using hfit
  · cases h
    exact fits_setPc _ _ trivial
  · split at h
    · cases h
      exact fits_setPc _ _ trivial
    · cases h
      exact rcvRetry_fits _ _ _ hfit
  · cases h
    unfold rcvRelock
    split
    · exact fits_setPc _ _ trivial
    · split
      · exact fits_setPc _ _ trivial
      · split
        · exact hfit
        · split
          · simp only
            split
            · exact fits_setPc _ _ trivial
            · exact rcvRetry_fits _ _ _ hfit
          · exact hfit
      · exact fits_setPc _ _ trivial
  · cases h
    unfold rcvNull
    split
    · exact fits_setPc _ _ trivial
    · exact hfit
    · exact fits_setPc _ _ trivial
  · cases h
    unfold copyOut
    simp only
    split
    · exact fits_setPc _ _ trivial
    · exact fits_setPc _ _ trivial
  · exact hdown _ h trivial
  · cases h
    exact ctlBody_fits _ _ hfit
  · cases h
    unfold freeStep
    split
    · exact fits_setPc _ _ trivial
    · split
      · exact hfit
      · exact fits_setPc _ _ (Nat.zero_le _)
  · cases h
    unfold statBody
    split
    · exact fits_setPc _ _ trivial
    · split
      · exact hfit
      · split
        · exact fits_setPc _ _ trivial
        · split
          · exact fits_setPc _ _ trivial
          · split
            · exact fits_setPc _ _ trivial
            · exact fits_setPc _ _ trivial
  · exact hdown _ h trivial
  · cases h
    unfold infoBody
    split
    · exact fits_setPc _ _ trivial
    · exact fits_setPc _ _ trivial
  · exact hdown _ h trivial
  · cases h
    unfold getFind
    split
    · exact fits_setPc _ _ trivial
    · split
      · split
        · exact fits_setPc _ _ trivial
        · exact fits_setPc _ _ trivial
      · split
        · exact fits_setPc _ _ trivial
        · exact fits_setPc _ _ trivial
  · split at h
    · cases h
      exact fits_setPc _ _ trivial
    · cases h
      exact fits_setPc _ _ trivial
  · cases h
    exact fits_setPc _ _ trivial
  · rename_i hpc
    cases h
    exact newque_fits hw e hpc
  · rename_i hpc
    cases h
    exact getLock_fits hw hpc
  · rename_i r hpc
    cases h
    rw [hpc] at hfit
    refine fits_setPc _ _ ?_
    cases r <;> exact hfit

theorem enter_fits (P : Params) (σ : State) (t : Tid) (e : Env) (c : Call) :
    ((enter P σ t e c).tasks t).pc.Fits := by
  unfold enter
  split
  · split_ifs
    all_goals exact fits_setPc _ _ trivial
  · split
    · exact fits_setPc _ _ trivial
    · exact fits_setPc _ _ trivial
  · split
    · exact fits_setPc _ _ trivial
    · split
      all_goals first
        | exact fits_setPc _ _ trivial
        | (split <;> exact fits_setPc _ _ trivial)
  · exact fits_setPc _ _ trivial

theorem fits_invariant (P : Params) : (machine P).Invariant fun σ => ∀ t, (σ.tasks t).pc.Fits := by
  refine TSys.Invariant.of_inductive_with (wf_invariant P) ?_ ?_
  · rintro σ ⟨cred, rfl⟩ t
    trivial
  · intro σ σ' l hw hi hstep t
    by_cases ht : l.task = t
    · rcases step_cases hstep with ⟨u, c, e, r, rfl, -, rfl⟩ | ⟨u, e, rfl, hx⟩ | ⟨u, rfl, hx⟩ |
        ⟨u, b, rfl, rfl⟩
      · have hut : u = t := ht
        subst hut
        exact enter_fits P _ u e c
      · have hut : u = t := ht
        subst hut
        exact exec_fits hw hx (hi u)
      · have hut : u = t := ht
        subst hut
        unfold resume at hx
        split at hx
        · cases hx
          exact fits_setPc _ _ trivial
        · cases hx
          exact fits_setPc _ _ trivial
        · cases hx
      · have hut : u = t := ht
        subst hut
        rw [State.modT_tasks, if_pos rfl]
        exact hi u
    · rw [(step_other hw hstep ht).pc]
      exact hi t

/-! ## The removal -/

/-- The step that takes a queue out of the table is IPC_RMID, and it expels the
tasks linked on the queue. -/
theorem step_removes {P : Params} {σ σ' : State} {l : Label} (hw : Wf σ)
    (h : step P σ l = some σ') {q : QId} (hq : σ.Live q) (hgone : ¬ σ'.Live q) :
    (∃ a, (σ.tasks l.task).pc = .ctlLock a) ∧ ∃ msq, σ.queues q = some msq ∧
      ∀ u, u ≠ l.task →
        σ'.tasks u = (σ.tasks u).expelled (u ∈ msq.q_receivers) (u ∈ msq.q_senders) := by
  obtain ⟨j, hj⟩ := hq
  have hentry : ¬ (∀ k, σ'.ids.entry k = σ.ids.entry k) := by
    intro hsame
    exact hgone ⟨j, (hsame j).trans hj⟩
  have hids : σ'.ids ≠ σ.ids := by
    intro hsame
    exact hentry (fun k => by rw [hsame])
  rcases step_cases h with ⟨t, c, e, r, rfl, hpc, -⟩ | ⟨t, e, rfl, hx⟩ | ⟨t, rfl, hx⟩ |
    ⟨t, b, rfl, rfl⟩
  · refine absurd (congrArg Prod.fst (step_table h ?_)) hids
    show (σ.tasks t).pc.holdsSem = false
    rw [hpc]
    rfl
  · unfold exec at hx
    cases hpc : (σ.tasks t).pc with
    | ctlLock a =>
        refine ⟨⟨a, hpc⟩, ?_⟩
        rw [hpc] at hx
        simp only [Option.some.injEq] at hx
        unfold ctlBody at hx
        split at hx
        · subst hx
          exact absurd rfl hids
        · split at hx
          · subst hx
            exact absurd rfl hids
          · simp only at hx
            split at hx
            · subst hx
              exact absurd rfl hids
            · split at hx
              · subst hx
                exact absurd rfl hids
              · split at hx
                · split at hx
                  · subst hx
                    exact absurd rfl hids
                  · subst hx
                    refine absurd ?_ hids
                    unfold ipcSet
                    rw [State.setPc_ids, ss_wakeup_eq, expunge_all_eq]
                    rfl
                · unfold freeque at hx
                  split at hx
                  · subst hx
                    exact absurd rfl hids
                  · rename_i ids p hrm
                    obtain ⟨hp, _, _, _, hent⟩ := ipc_rmid_spec hrm
                    split at hx
                    · subst hx
                      exact absurd rfl hids
                    · rename_i msq hm
                      have hqp : p = q := by
                        by_contra hne
                        refine hgone ⟨j, ?_⟩
                        rw [← hx]
                        show (State.setPc _ _ _).ids.entry j = some q
                        rw [State.setPc_ids, expel_eq]
                        show ids.entry j = some q
                        rw [hent j]
                        split
                        · rename_i hjj
                          rw [hjj, hp] at hj
                          exact absurd (Option.some.inj hj) hne
                        · exact hj
                      subst hqp
                      refine ⟨msq, hm, ?_⟩
                      intro u hu
                      rw [← hx]
                      show (State.setPc _ _ _).tasks u = _
                      have hu : u ≠ t := hu
                      rw [expel_eq, State.setPc_tasks, if_neg hu]
    | getGrow key flg =>
        rw [hpc] at hx
        simp only [Option.some.injEq] at hx
        refine absurd ?_ hentry
        intro k
        rw [← hx]
        exact (grow_ary_spec σ.ids MSGMNI e.alloc).1 k
    | getAdd key flg size =>
        rw [hpc] at hx
        simp only [Option.some.injEq] at hx
        unfold newque at hx
        simp only at hx
        split at hx
        · subst hx
          exact absurd rfl hids
        · rename_i ids id seq hadd
          have hsize : size = σ.ids.size := by
            have htab := hw.tab.table t
            rw [hpc] at htab
            exact htab.1
          obtain ⟨_, hnone, _, _, _, _, hent⟩ := ipc_addid_spec hadd (Nat.le_of_eq hsize)
          refine absurd ⟨j, ?_⟩ hgone
          rw [← hx]
          show ids.entry j = some q
          rw [hent j, if_neg]
          · exact hj
          · intro hji
            rw [hji, hnone] at hj
            cases hj
    | getFind key flg =>
        rw [hpc] at hx
        simp only [Option.some.injEq] at hx
        refine absurd ?_ hids
        rw [← hx]
        unfold getFind
        split
        · rfl
        · split
          · split <;> rfl
          · split <;> rfl
    | getNew key flg =>
        rw [hpc] at hx
        simp only at hx
        split at hx
        · cases hx
          exact absurd rfl hids
        · cases hx
          exact absurd rfl hids
    | getLock id flg =>
        rw [hpc] at hx
        simp only [Option.some.injEq] at hx
        refine absurd ?_ hids
        rw [← hx]
        unfold getLock
        split
        · rfl
        · split
          · rfl
          · split <;> rfl
    | ctlFree p rest =>
        rw [hpc] at hx
        simp only [Option.some.injEq] at hx
        refine absurd ?_ hids
        rw [← hx]
        unfold freeStep
        split
        · rfl
        · split <;> rfl
    | infoRead cmd space =>
        rw [hpc] at hx
        cases hx
        exact absurd rfl hids
    | semUp r =>
        rw [hpc] at hx
        cases hx
        exact absurd rfl hids
    | _ =>
        refine absurd (congrArg Prod.fst (step_table h ?_)) hids
        show (σ.tasks t).pc.holdsSem = false
        rw [hpc]
        rfl
  · refine absurd (congrArg Prod.fst (step_table h ?_)) hids
    show (σ.tasks t).pc.holdsSem = false
    unfold resume at hx
    split at hx
    · rename_i hpc
      rw [hpc]
      rfl
    · rename_i hpc
      rw [hpc]
      rfl
    · cases hx
  · exact absurd rfl hids

/-! ## The identifier of a removed queue -/

/-- The identifier a call looks up: `_rt_msgsnd`, `_rt_msgrcv`, and the
commands IPC_STAT, IPC_SET and IPC_RMID of `_rt_msgctl`. -/
def Call.ident : Call → Option Int
  | .msgsnd msqid _ _ _ _ | .msgrcv msqid _ _ _ _ => some msqid
  | .msgctl msqid cmd _ _ =>
    if cmd = .ipcStat ∨ cmd = .ipcSet ∨ cmd = .ipcRmid then some msqid else none
  | .msgget _ _ => none

/-- The answers to a call made after the removal, where `k` is the caller when
the arguments have been checked: -EINVAL or -EIDRM, or an error of `load_msg`
or of the user-space copy that ended the call before any lookup. -/
def NewAnswer (k : Task) (r : Ret) : Prop :=
  r = .err .EINVAL ∨ r = .err .EIDRM ∨
    ((r = .err .ENOMEM ∨ r = .err .EFAULT) ∧ k.pc = .idle (some r))

theorem callPc_idle {i : Nat} {k : Task} {r : Ret} (hpc : k.pc = .idle (some r))
    (hr : r = .err .EINVAL ∨ r = .err .ENOMEM ∨ r = .err .EFAULT) :
    CallPc i (NewAnswer k) k := by
  unfold CallPc
  rw [hpc]
  rcases hr with hr | hr | hr
  · exact .inl hr
  · exact .inr (.inr ⟨.inl hr, hpc⟩)
  · exact .inr (.inr ⟨.inr hr, hpc⟩)

/-- The argument checks let the identifier through unchanged. -/
theorem enter_callPc (P : Params) (σ : State) (t : Tid) (e : Env) {c : Call} {i : Nat}
    (hc : c.ident = some (i : Int)) :
    CallPc i (NewAnswer ((enter P σ t e c).tasks t)) ((enter P σ t e c).tasks t) := by
  have hpc : ∀ (τ : State) (pc : Pc), ((τ.setPc t pc).tasks t).pc = pc := by
    intro τ pc
    rw [State.setPc_tasks, if_pos rfl]
  have hnew : ∀ k : Task, NewAnswer k (.err .EINVAL) ∧ NewAnswer k (.err .EIDRM) :=
    fun k => ⟨.inl rfl, .inr (.inl rfl)⟩
  cases c with
  | msgsnd msqid mtype mtext msgflg space =>
      cases hc
      simp only [enter]
      split
      · exact callPc_idle (hpc _ _) (.inl rfl)
      · split
        · exact callPc_idle (hpc _ _) (.inl rfl)
        · split
          · exact callPc_idle (hpc _ _) (.inr (.inl rfl))
          · split
            · exact callPc_idle (hpc _ _) (.inr (.inr rfl))
            · unfold CallPc
              rw [hpc]
              exact ⟨Int.toNat_natCast i, hnew _⟩
  | msgrcv msqid msgsz msgtyp msgflg space =>
      cases hc
      simp only [enter]
      split
      · exact callPc_idle (hpc _ _) (.inl rfl)
      · unfold CallPc
        rw [hpc]
        exact ⟨Int.toNat_natCast i, hnew _⟩
  | msgctl msqid cmd buf space =>
      unfold Call.ident at hc
      simp only at hc
      split at hc
      · rename_i hcmd
        cases hc
        have hnn : ¬ ((i : Int) < 0) := by omega
        simp only [enter, if_neg hnn]
        rcases hcmd with rfl | rfl | rfl
        · cases buf with
          | none => exact callPc_idle (hpc _ _) (.inr (.inr rfl))
          | some b =>
              unfold CallPc
              rw [hpc]
              exact ⟨Int.toNat_natCast i, by simp, hnew _⟩
        · cases buf with
          | none => exact callPc_idle (hpc _ _) (.inr (.inr rfl))
          | some b =>
              simp only
              split
              · exact callPc_idle (hpc _ _) (.inr (.inr rfl))
              · unfold CallPc
                rw [hpc]
                exact ⟨Int.toNat_natCast i, hnew _⟩
        · unfold CallPc
          rw [hpc]
          exact ⟨Int.toNat_natCast i, hnew _⟩
      · cases hc
  | msgget key msgflg => cases hc

/-- What a waiting receiver has after the removal of its queue: -EIDRM, unless
it had been told something else. -/
def RMsg.afterRemoval (r : RMsg) : RMsg := if r = .err .EAGAIN then .err .EIDRM else r

/-- The removal as a waiting receiver sees it. -/
theorem removal_receiver {P : Params} {σ σ' : State} {l : Label} (hw : Wf σ)
    (h : step P σ l = some σ') {i : Nat} {q : QId} (hq : σ.Names i q) (hgone : ¬ σ'.Live q)
    {t : Tid} {a : RcvArgs} {q' : QId} (hwait : (σ.tasks t).pc.rcvWaiting = some (a, q'))
    (ha : a.msqid = i) :
    (σ'.tasks t).pc = (σ.tasks t).pc ∧ (σ'.tasks t).calls = (σ.tasks t).calls ∧
      (σ'.tasks t).msr_d.r_msg = (σ.tasks t).msr_d.r_msg.afterRemoval := by
  obtain ⟨⟨b, hb⟩, msq, hm, hexp⟩ := step_removes hw h hq.live hgone
  have hne : t ≠ l.task := by
    intro he
    rw [he, hb] at hwait
    cases hwait
  rw [hexp t hne]
  refine ⟨rfl, rfl, ?_⟩
  have hmem := hw.wait.rcv_linked q msq hq.live hm t
  unfold Task.expelled RMsg.afterRemoval
  by_cases hr : (σ.tasks t).msr_d.r_msg = .err .EAGAIN
  · have hlinked : (σ.tasks t).rcvLinked = some (a, q') := by
      unfold Task.rcvLinked
      rw [if_pos hr]
      exact hwait
    have hqq : q' = q := by
      have hn := (hw.wait.rcv_names t a q' hlinked).1
      rw [ha, hq.1] at hn
      exact (Option.some.inj hn).symm
    subst hqq
    rw [if_pos (hmem.mpr ⟨a, hlinked⟩), if_pos hr]
  · have hnot : t ∉ msq.q_receivers := by
      intro hin
      obtain ⟨b', hb'⟩ := hmem.mp hin
      unfold Task.rcvLinked at hb'
      rw [if_neg hr] at hb'
      cases hb'
    rw [if_neg hnot, if_neg hr]

/-- The identifier of a call that has checked its arguments and not yet looked it up. -/
def Pc.entered : Pc → Option Nat
  | .sndLock a _ => some a.msqid
  | .rcvLock a => some a.msqid
  | .ctlDown a | .ctlLock a => some a.msqid
  | .statLock msqid cmd _ => if cmd = .msgStat then none else some msqid
  | _ => none

/-- Such a call can only fail its lookup. -/
theorem entered_callPc {i : Nat} {k : Task} (h : k.pc.entered = some i) :
    CallPc i (fun r => r = .err .EINVAL ∨ r = .err .EIDRM) k := by
  unfold CallPc
  cases hpc : k.pc with
  | statLock j cmd space =>
      rw [hpc] at h
      unfold Pc.entered at h
      simp only at h
      split at h
      · cases h
      · rename_i hcmd
        exact ⟨Option.some.inj h, hcmd, .inl rfl, .inr rfl⟩
  | sndLock a m => rw [hpc] at h; exact ⟨Option.some.inj h, .inl rfl, .inr rfl⟩
  | rcvLock a => rw [hpc] at h; exact ⟨Option.some.inj h, .inl rfl, .inr rfl⟩
  | ctlDown a => rw [hpc] at h; exact ⟨Option.some.inj h, .inl rfl, .inr rfl⟩
  | ctlLock a => rw [hpc] at h; exact ⟨Option.some.inj h, .inl rfl, .inr rfl⟩
  | _ => rw [hpc] at h; cases h

/-- No kernel failure is reachable and every identifier fits an `int`. When a
step removes the queue `q` with identifier `i`, then until 65536 more queues
have been created: a call made with `i` is answered as `NewAnswer` says, one
that had been made but had not looked `i` up returns -EINVAL or -EIDRM, a
sender waiting with `i` returns -EIDRM or -EINTR, and a receiver waiting with
`i` returns -EIDRM or what it had been told before; and none of them touches a
live queue. -/
theorem removed_identifier_refused (P : Params) :
    ((machine P).Invariant fun σ => σ.oops = none ∧ ∀ t, (σ.tasks t).pc.Fits) ∧
    ∀ σ σ' l q i, (machine P).Reachable σ → step P σ l = some σ' → σ.Names i q → ¬ σ'.Live q →
      (∀ σ₂ σ₃ σ₁ t c e, (machine P).Steps σ' σ₂ → step P σ₂ (.call t c e) = some σ₃ →
        c.ident = some (i : Int) → (machine P).Steps σ₃ σ₁ →
        (σ₁.tasks t).calls = (σ₃.tasks t).calls → σ₁.hist.slots.length ≤ q + 65536 →
        σ₁.Refused P t (NewAnswer (σ₃.tasks t))) ∧
      (∀ σ₁ t, (σ.tasks t).pc.entered = some i → t ≠ l.task →
        (machine P).Steps σ' σ₁ → (σ₁.tasks t).calls = (σ.tasks t).calls →
        σ₁.hist.slots.length ≤ q + 65536 →
        σ₁.Refused P t fun r => r = .err .EINVAL ∨ r = .err .EIDRM) ∧
      (∀ σ₁ t a m, (σ.tasks t).pc.sndWaiting = some (a, m) → a.msqid = i →
        (machine P).Steps σ' σ₁ → (σ₁.tasks t).calls = (σ.tasks t).calls →
        σ₁.hist.slots.length ≤ q + 65536 →
        σ₁.Refused P t fun r => r = .err .EIDRM ∨ r = .err .EINTR) ∧
      (∀ σ₁ t a q', (σ.tasks t).pc.rcvWaiting = some (a, q') → a.msqid = i →
        (machine P).Steps σ' σ₁ → (σ₁.tasks t).calls = (σ.tasks t).calls →
        σ₁.hist.slots.length ≤ q + 65536 →
        σ₁.Refused P t (a.Returns (σ.tasks t).msr_d.r_msg.afterRemoval) ∧
        (∀ m, (σ.tasks t).msr_d.r_msg = .msg m → (q', m) ∈ σ.hist.taken) ∧
        ∀ x, (σ.tasks t).msr_d.r_msg = .err x → x = .EAGAIN ∨ x = .E2BIG ∨ x = .EIDRM) := by
  refine ⟨fun σ hr => ⟨(wf_invariant P σ hr).ok, fits_invariant P σ hr⟩, ?_⟩
  intro σ σ' l q i hr hstep hq hgone
  have hw := wf_invariant P σ hr
  have hr' := step_reachable hr hstep
  have hret : σ'.Retired i q := .of_removed hw (step_onlyNew hw hstep) hq hgone
  obtain ⟨⟨b, hb⟩, msq, hm, hexp⟩ := step_removes hw hstep hq.live hgone
  refine ⟨?_, ?_, ?_, ?_⟩
  · intro σ₂ σ₃ σ₁ t c e hs₂ hcall hc hs₁ hcalls hbound
    have hr₂ := hr'.steps hs₂
    have hret₃ : σ₃.Retired i q :=
      (hret.onlyNew (steps_onlyNew hr' hs₂)).onlyNew (step_onlyNew (wf_invariant P σ₂ hr₂) hcall)
    refine refused (step_reachable hr₂ hcall) hret₃ ?_ hs₁ hcalls hbound
    rcases step_cases hcall with ⟨u, c', e', r, hl, -, rfl⟩ | ⟨u, e', hl, -⟩ | ⟨u, hl, -⟩ |
      ⟨u, b, hl, -⟩
    · cases hl
      exact enter_callPc P _ t e hc
    · cases hl
    · cases hl
    · cases hl
  · intro σ₁ t hent hne hs₁ hcalls hbound
    have htask := hexp t hne
    have hpc : (σ'.tasks t).pc = (σ.tasks t).pc := by rw [htask]; rfl
    rw [← hpc] at hent
    exact refused hr' hret (entered_callPc hent) hs₁ (by rw [hcalls, htask]; rfl) hbound
  · intro σ₁ t a m hwait ha hs₁ hcalls hbound
    have hne : t ≠ l.task := by
      intro he
      rw [he, hb] at hwait
      cases hwait
    have htask := hexp t hne
    refine refused hr' hret ?_ hs₁ (by rw [hcalls, htask]; rfl) hbound
    have hpc : (σ'.tasks t).pc = (σ.tasks t).pc := by rw [htask]; rfl
    unfold CallPc
    rw [hpc]
    cases hpc' : (σ.tasks t).pc <;> rw [hpc'] at hwait <;> cases hwait
    · exact ⟨ha, .inl rfl, .inr rfl⟩
    · exact ⟨ha, .inl rfl, .inr rfl⟩
  · intro σ₁ t a q' hwait ha hs₁ hcalls hbound
    obtain ⟨hpc, hcalls', hmsg⟩ := removal_receiver hw hstep hq hgone hwait ha
    have htold := told_invariant P σ hr t
    refine ⟨?_, fun m hm => htold.msg a q' m hwait hm, fun x hx => htold.err a q' x hwait hx⟩
    refine refused hr' hret ?_ hs₁ (hcalls.trans hcalls'.symm) hbound
    unfold CallPc
    rw [hpc, hmsg]
    cases hpc' : (σ.tasks t).pc <;> rw [hpc'] at hwait <;> cases hwait
    · exact ⟨ha, fun _ hret => hret⟩
    · exact ⟨ha, fun _ hret => hret⟩

/-- A stale identifier is not always answered with -EINVAL or -EIDRM: a send
for which `load_msg` gets no memory returns -ENOMEM before it looks. -/
theorem stale_send_without_memory : ¬ ∀ σ σ' l q i, (machine demoParams).Reachable σ →
    step demoParams σ l = some σ' → σ.Names i q → ¬ σ'.Live q →
    ∀ σ₂ σ₃ t c e r, (machine demoParams).Steps σ' σ₂ →
      step demoParams σ₂ (.call t c e) = some σ₃ → c.ident = some (i : Int) →
      σ₃.hist.slots.length ≤ q + 65536 → (σ₃.tasks t).pc = .idle (some r) →
      r = .err .EINVAL ∨ r = .err .EIDRM := by
  intro hclaim
  have hrun : demoRun (createQueue 0 ++ (startRemoval 0 0).dropLast) (fun σ =>
      match step demoParams σ (.exec 0 demoEnv) with
      | none => false
      | some σ' => decide (σ.ids.entry 0 = some 0 ∧ σ'.ids.entries = List.replicate 16 none) &&
        match step demoParams σ' (.call 1 (.msgsnd 0 1 [7] 0#32 false) ⟨1, false, true⟩) with
        | none => false
        | some σ₃ => decide (σ₃.hist.slots.length = 1 ∧
            (σ₃.tasks 1).pc = .idle (some (.err .ENOMEM)))) = true := by
    decide
  obtain ⟨σ, hr, hask⟩ := demoRun_reachable hrun
  split at hask
  · cases hask
  · rename_i σ' hstep
    obtain ⟨h₁, h₂⟩ := (Bool.and_eq_true _ _).mp hask
    obtain ⟨hentry, hempty⟩ := of_decide_eq_true h₁
    split at h₂
    · cases h₂
    · rename_i σ₃ hcall
      obtain ⟨hslots, hpc⟩ := of_decide_eq_true h₂
      have hgone : ¬ σ'.Live 0 := by
        rintro ⟨j, hj⟩
        rw [IpcIds.entry_eq, hempty, List.getElem?_replicate] at hj
        split at hj
        · cases hj
        · cases hj
      have hanswer := hclaim σ σ' _ 0 0 hr hstep ⟨hentry, rfl⟩ hgone σ' σ₃ 1 _ _ _ .refl hcall rfl
        (by omega) hpc
      rcases hanswer with h | h
      · cases h
      · cases h

end RtaiDemos.Sysvmsg
