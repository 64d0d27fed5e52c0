import RtaiDemos.Sysvmsg.SchedLock
import RtaiDemos.Sysvmsg.Theorems.NoTrace

/-!
# The nesting of the scheduler lock

Every stretch that takes the scheduler lock gives it back, so a call returns at the
depth at which it began. The exception is `out_unlock_free` of `_rt_msgsnd`, whose
`rt_sched_unlock` is also run by the paths that never took the lock: a caller that
holds the lock itself comes back with one level less.
-/

namespace RtaiDemos.Sysvmsg

/-! ## One stretch -/

/-- A stretch that gives the lock back, if it takes it. -/
def Balanced (ops : List SchedOp) : Prop := ops = [] ∨ ops = [.lock, .unlock]

theorem Balanced.nil : Balanced [] := .inl rfl

theorem Balanced.held : Balanced [.lock, .unlock] := .inr rfl

theorem Balanced.ite {c : Prop} [Decidable c] {ops ops' : List SchedOp} (h : Balanced ops)
    (h' : Balanced ops') : Balanced (if c then ops else ops') := by
  split
  · exact h
  · exact h'

theorem Balanced.depth {ops : List SchedOp} (h : Balanced ops) (d : Nat) :
    ops.foldl SchedOp.apply d = d := by
  rcases h with rfl | rfl
  · rfl
  · exact Nat.add_sub_cancel d 1

theorem ss_del_queue (σ : State) (t : Tid) (q : QId) {β : Type} (v : MsgQueue → β)
    (hv : ∀ msq, v { msq with q_senders := msq.q_senders.erase t } = v msq) :
    ((ss_del σ t).queues q).map v = (σ.queues q).map v := by
  rcases ss_del_cases σ t with ⟨o, heq⟩ | ⟨q', heq⟩
  · rw [heq]
  · rw [heq]
    exact State.modQ_view v _ _ _ hv q

theorem ss_del_task (σ : State) (t : Tid) : ((ss_del σ t).tasks t).cred = (σ.tasks t).cred ∧
    ((ss_del σ t).tasks t).signal_pending = (σ.tasks t).signal_pending := by
  rcases ss_del_cases σ t with ⟨o, heq⟩ | ⟨q, heq⟩
  · rw [heq]
    exact ⟨rfl, rfl⟩
  · rw [heq]
    simp

/-- The queue refuses a sender that has just unlinked itself as it refused it before. -/
theorem ss_del_refused (σ : State) (t : Tid) (q : QId) (a : SndArgs) (msg : Msg) :
    ((ss_del σ t).queues q).any (a.refused ((ss_del σ t).tasks t).cred msg) =
      (σ.queues q).any (a.refused (σ.tasks t).cred msg) := by
  have hany : ∀ (o : Option MsgQueue) (v : MsgQueue → Bool), o.any v = (o.map v).getD false := by
    intro o v
    cases o <;> rfl
  rw [(ss_del_task σ t).1, hany, hany, ss_del_queue]
  intro msq
  rfl

theorem rcvRetryOps_balanced (σ : State) (t : Tid) (a : RcvArgs) (q : QId) :
    Balanced (rcvRetryOps σ t a q) := by
  unfold rcvRetryOps
  split
  · exact .nil
  · refine .ite .nil (.ite .nil ?_)
    split
    · exact .ite .nil .held
    · exact .nil

theorem rcvRelockOps_balanced (σ : State) (t : Tid) (a : RcvArgs) (q : QId) :
    Balanced (rcvRelockOps σ t a q) := by
  unfold rcvRelockOps
  split
  · exact .nil
  · split
    · exact .nil
    · split
      · exact .nil
      · exact .ite (.ite .nil (rcvRetryOps_balanced _ t a q)) .nil
    · exact .nil

theorem freequeOps_balanced (σ : State) (msqid : Nat) : Balanced (freequeOps σ msqid) := by
  unfold freequeOps
  split
  · exact .nil
  · split
    · exact .nil
    · exact .held

theorem ctlOps_balanced (σ : State) (t : Tid) (a : CtlArgs) : Balanced (ctlOps σ t a) := by
  unfold ctlOps
  split
  · exact .nil
  · split
    · exact .nil
    · exact .ite .nil (.ite .nil (.ite (.ite .nil .held) (freequeOps_balanced σ a.msqid)))

/-- `_rt_msgsnd` from `retry` on unlocks without having locked exactly if it is refused. -/
theorem sndRetryOps_cases (σ : State) (t : Tid) (a : SndArgs) (msg : Msg) (q : QId) :
    ((σ.queues q).any (a.refused (σ.tasks t).cred msg) = true ∧
        sndRetryOps σ t a msg q = [.unlock]) ∨
      ((σ.queues q).any (a.refused (σ.tasks t).cred msg) = false ∧
        Balanced (sndRetryOps σ t a msg q)) := by
  unfold sndRetryOps SndArgs.refused
  cases σ.queues q with
  | none => exact .inr ⟨rfl, .nil⟩
  | some msq =>
      simp only [Option.any_some]
      cases hid : ipc_checkid msq.q_perm a.msqid with
      | true => exact .inl ⟨rfl, rfl⟩
      | false =>
          cases hperm : ipcperms (σ.tasks t).cred msq.q_perm S_IWUGO with
          | true => exact .inl ⟨rfl, rfl⟩
          | false =>
              cases hfull : msq.full msg.m_ts with
              | false => exact .inr ⟨rfl, .held⟩
              | true =>
                  cases hflag : hasFlag a.msgflg IPC_NOWAIT with
                  | true => exact .inl ⟨rfl, rfl⟩
                  | false => exact .inr ⟨rfl, .nil⟩

/-- A stretch unlocks without having locked exactly if it goes to `out_unlock_free`. -/
theorem schedOps_cases (σ : State) (t : Tid) :
    (σ.bailsOut t = true ∧ schedOps σ t = [.unlock]) ∨
      (σ.bailsOut t = false ∧ Balanced (schedOps σ t)) := by
  unfold State.bailsOut schedOps
  cases (σ.tasks t).pc with
  | sndLock a msg =>
      simp only
      split
      · exact .inr ⟨rfl, .nil⟩
      · exact sndRetryOps_cases σ t a msg _
  | sndRelock a msg =>
      simp only [sndRelockOps]
      split
      · exact .inr ⟨rfl, .nil⟩
      · rename_i q hlock
        rw [(ss_del_task σ t).2, ← ss_del_refused]
        cases (σ.tasks t).signal_pending with
        | true => exact .inl ⟨rfl, rfl⟩
        | false => exact sndRetryOps_cases (ss_del σ t) t a msg q
  | rcvLock a =>
      refine .inr ⟨rfl, ?_⟩
      simp only
      split
      · exact .nil
      · exact rcvRetryOps_balanced σ t a _
  | rcvRelock a q => exact .inr ⟨rfl, rcvRelockOps_balanced σ t a q⟩
  | ctlLock a => exact .inr ⟨rfl, ctlOps_balanced σ t a⟩
  | _ => exact .inr ⟨rfl, .nil⟩

/-! ## Where a stretch leads -/

/-- A refused sender goes to `out_unlock_free`, with its message still to be freed. -/
theorem sndRetry_refused {σ : State} {t : Tid} {e : Env} {a : SndArgs} {msg : Msg} {q : QId}
    (h : (σ.queues q).any (a.refused (σ.tasks t).cred msg) = true) :
    ∃ err, sndRetry σ t e a msg q = σ.setPc t (.sndFree err msg) := by
  unfold sndRetry
  unfold SndArgs.refused at h
  cases hq : σ.queues q with
  | none =>
      rw [hq] at h
      cases h
  | some msq =>
      rw [hq, Option.any_some] at h
      simp only
      split
      · exact ⟨_, rfl⟩
      · rename_i hid
        split
        · exact ⟨_, rfl⟩
        · rename_i hperm
          have hfull : msq.full msg.m_ts = true ∧ hasFlag a.msgflg IPC_NOWAIT = true := by
            simpa [hid, hperm] using h
          rw [if_pos hfull.1, if_pos hfull.2]
          exact ⟨_, rfl⟩

theorem bailsOut_next {σ σ' : State} {t : Tid} (h : σ.bailsOut t = true)
    (hnext : resume σ t = some σ' ∨ ∃ e, exec σ t e = some σ') :
    ∃ err msg, (σ'.tasks t).pc = .sndFree err msg := by
  unfold State.bailsOut at h
  split at h
  · rename_i a msg hpc
    rcases hnext with hres | ⟨e, hexec⟩
    · unfold resume at hres
      rw [hpc] at hres
      cases hres
    · unfold exec at hexec
      rw [hpc] at hexec
      split at h
      · cases h
      · rename_i q hlock
        obtain ⟨err, heq⟩ := sndRetry_refused (e := e) h
        simp only [hlock, heq, Option.some.injEq] at hexec
        rw [← hexec]
        exact ⟨err, msg, by simp⟩
  · rename_i a msg hpc
    rcases hnext with hres | ⟨e, hexec⟩
    · unfold resume at hres
      rw [hpc] at hres
      cases hres
    · unfold exec at hexec
      rw [hpc] at hexec
      simp only [Option.some.injEq] at hexec
      split at h
      · cases h
      · rename_i q hlock
        unfold sndRelock at hexec
        simp only [hlock, (ss_del_task σ t).2] at hexec
        cases hsig : (σ.tasks t).signal_pending with
        | true =>
            rw [if_pos hsig] at hexec
            rw [← hexec]
            exact ⟨.EINTR, msg, by simp⟩
        | false =>
            rw [hsig, Bool.false_or, ← ss_del_refused] at h
            obtain ⟨err, heq⟩ := sndRetry_refused (e := e) h
            rw [if_neg (by simp [hsig]), heq] at hexec
            rw [← hexec]
            exact ⟨err, msg, by simp⟩
  · cases h

/-- At `out_free`, or outside every call. -/
def Pc.leaving : Pc → Bool
  | .sndFree _ _ | .idle _ => true
  | _ => false

theorem leaving_next {σ σ' : State} {t : Tid} (h : (σ.tasks t).pc.leaving = true)
    (hnext : resume σ t = some σ' ∨ ∃ e, exec σ t e = some σ') :
    schedOps σ t = [] ∧ (σ'.tasks t).pc.leaving = true := by
  unfold schedOps
  cases hpc : (σ.tasks t).pc with
  | idle r => exact absurd hnext (idle_step hpc)
  | sndFree err msg =>
      refine ⟨rfl, ?_⟩
      rcases hnext with hres | ⟨e, hexec⟩
      · unfold resume at hres
        rw [hpc] at hres
        cases hres
      · unfold exec at hexec
        rw [hpc] at hexec
        cases hexec
        simp [Pc.leaving]
  | _ => rw [hpc] at h; cases h

/-! ## The run of a call -/

/-- How the lock stands in a call that began at depth `d`. -/
inductive Nesting (t : Tid) (d : Nat) (own : List (State × State)) (σ : State) : Prop
  | kept (none : ∀ s ∈ own, s.1.bailsOut t = false) (depth : schedDepth own t d = d)
  | lost (some : ∃ s ∈ own, s.1.bailsOut t = true) (depth : schedDepth own t d = d - 1)
      (leaving : (σ.tasks t).pc.leaving = true)

theorem schedDepth_append (own : List (State × State)) (s : State × State) (t : Tid) (d : Nat) :
    schedDepth (own ++ [s]) t d = (schedOps s.1 t).foldl SchedOp.apply (schedDepth own t d) := by
  unfold schedDepth
  rw [List.flatMap_append, List.foldl_append, List.flatMap_singleton]

theorem Nesting.next {t : Tid} {d : Nat} {own : List (State × State)} {σ σ' : State}
    (h : Nesting t d own σ) (hnext : resume σ t = some σ' ∨ ∃ e, exec σ t e = some σ') :
    Nesting t d (own ++ [(σ, σ')]) σ' := by
  cases h with
  | kept hnone hdepth =>
      rcases schedOps_cases σ t with ⟨hbail, hops⟩ | ⟨hbail, hops⟩
      · obtain ⟨err, msg, hpc⟩ := bailsOut_next hbail hnext
        refine .lost ⟨(σ, σ'), by simp, hbail⟩ ?_ (by rw [hpc]; rfl)
        rw [schedDepth_append, hdepth, hops]
        rfl
      · refine .kept ?_ ?_
        · intro s hs
          rcases List.mem_append.mp hs with hold | hnew
          · exact hnone s hold
          · rw [List.mem_singleton.mp hnew]
            exact hbail
        · rw [schedDepth_append, hdepth]
          exact hops.depth d
  | lost hsome hdepth hleaving =>
      obtain ⟨s, hs, hbail⟩ := hsome
      obtain ⟨hops, hleaving'⟩ := leaving_next hleaving hnext
      refine .lost ⟨s, List.mem_append_left _ hs, hbail⟩ ?_ hleaving'
      rw [schedDepth_append, hdepth, hops]
      rfl

/-- A task that enters a call has nothing to do with the lock yet. -/
theorem call_quiet {P : Params} {σ σ' : State} {t : Tid} {c : Call} {e : Env}
    (h : step P σ (.call t c e) = some σ') : σ.bailsOut t = false ∧ schedOps σ t = [] := by
  rcases step_cases h with ⟨u, c', e', r, hl, hpc, -⟩ | ⟨u, e', hl, -⟩ | ⟨u, hl, -⟩ |
    ⟨u, b, hl, -⟩
  · cases hl
    unfold State.bailsOut schedOps
    rw [hpc]
    exact ⟨rfl, rfl⟩
  · cases hl
  · cases hl
  · cases hl

theorem Calling.nesting {P : Params} {t : Tid} {c : Call} {own : List (State × State)} {σ : State}
    (h : Calling P t c own σ) (d : Nat) : Nesting t d own σ := by
  induction h with
  | @enters σ σ' e hr hs =>
      obtain ⟨hbail, hops⟩ := call_quiet hs
      refine .kept ?_ ?_
      · intro s hs
        rw [List.mem_singleton.mp hs]
        exact hbail
      · unfold schedDepth
        rw [List.flatMap_singleton, hops]
        rfl
  | runs _ mine hs ih => exact ih.next (own_step mine hs)
  | others hcall hother hs ih =>
      have hpc := other_pc (wf_invariant P _ hcall.reachable) hother hs
      cases ih with
      | kept hnone hdepth => exact .kept hnone hdepth
      | lost hsome hdepth hleaving => exact .lost hsome hdepth (by rw [hpc]; exact hleaving)

/-! ## The other calls -/

/-- The task owns no message that is to be sent. -/
def State.Sendless (σ : State) (t : Tid) : Prop := (σ.tasks t).pc.owned = none

theorem State.Sendless.setPc (σ : State) {t : Tid} {pc : Pc} (h : pc.owned = none) :
    (σ.setPc t pc).Sendless t := by
  unfold State.Sendless
  rw [State.setPc_tasks, if_pos rfl]
  exact h

theorem rcvRetry_sendless {σ : State} {t : Tid} (h : σ.Sendless t) (e : Env) (a : RcvArgs)
    (q : QId) : (rcvRetry σ t e a q).Sendless t := by
  unfold rcvRetry
  repeat' split
  all_goals first | exact h | exact .setPc _ rfl

theorem rcvRelock_sendless {σ : State} {t : Tid} (h : σ.Sendless t) (e : Env) (a : RcvArgs)
    (q : QId) : (rcvRelock σ t e a q).Sendless t := by
  unfold rcvRelock
  split
  · exact .setPc _ rfl
  · split
    · exact .setPc _ rfl
    · split
      · exact h
      · split
        · simp only
          split
          · exact .setPc _ rfl
          · exact rcvRetry_sendless (σ := r_list_del σ q t) h e a q
        · exact h
    · exact .setPc _ rfl

theorem rcvNull_sendless {σ : State} {t : Tid} (h : σ.Sendless t) (a : RcvArgs) :
    (rcvNull σ t a).Sendless t := by
  unfold rcvNull
  repeat' split
  all_goals first | exact h | exact .setPc _ rfl

theorem freeque_sendless {σ : State} {t : Tid} (h : σ.Sendless t) (msqid : Nat) :
    (freeque σ t msqid).Sendless t := by
  unfold freeque
  repeat' split
  all_goals first | exact h | exact .setPc _ rfl

theorem ctlBody_sendless {σ : State} {t : Tid} (h : σ.Sendless t) (e : Env) (a : CtlArgs) :
    (ctlBody σ t e a).Sendless t := by
  unfold ctlBody
  split
  · exact .setPc _ rfl
  · split
    · exact h
    · simp only
      split_ifs
      all_goals first | exact .setPc _ rfl | exact freeque_sendless h a.msqid

theorem freeStep_sendless {σ : State} {t : Tid} (h : σ.Sendless t) (q : QId) (rest : List Msg) :
    (freeStep σ t q rest).Sendless t := by
  unfold freeStep
  repeat' split
  all_goals first | exact h | exact .setPc _ rfl

theorem statBody_sendless {σ : State} {t : Tid} (h : σ.Sendless t) (e : Env) (msqid : Nat)
    (cmd : Cmd) (space : Bool) : (statBody σ t e msqid cmd space).Sendless t := by
  unfold statBody
  repeat' split
  all_goals first | exact h | exact .setPc _ rfl

theorem getFind_sendless {σ : State} {t : Tid} (key : Int) (msgflg : BitVec 32) :
    (getFind σ t key msgflg).Sendless t := by
  unfold getFind
  repeat' split
  all_goals exact .setPc _ rfl

theorem newque_sendless {σ : State} {t : Tid} (e : Env) (key : Int) (msgflg : BitVec 32)
    (size : Nat) : (newque σ t e key msgflg size).Sendless t := by
  unfold newque
  simp only
  split
  all_goals exact .setPc _ rfl

theorem getLock_sendless {σ : State} {t : Tid} (h : σ.Sendless t) (id : Nat)
    (msgflg : BitVec 32) : (getLock σ t id msgflg).Sendless t := by
  unfold getLock
  repeat' split
  all_goals first | exact h | exact .setPc _ rfl

/-- The code of `_rt_msgrcv`, `_rt_msgctl` and `rt_msgget` never comes to that of
`_rt_msgsnd`. -/
theorem exec_sendless {σ σ' : State} {t : Tid} {e : Env} (hown : σ.Sendless t)
    (h : exec σ t e = some σ') : σ'.Sendless t := by
  have hdown : ∀ pc, pc.owned = none → down σ t pc = some σ' → σ'.Sendless t := by
    intro pc hpc hd
    unfold down at hd
    split at hd
    · cases hd
      exact .setPc _ hpc
    · cases hd
  unfold exec at h
  unfold State.Sendless at hown
  cases hpc : (σ.tasks t).pc with
  | idle r => rw [hpc] at h; cases h
  | rcvSleep a q => rw [hpc] at h; cases h
  | sndLock a m => rw [hpc] at hown; cases hown
  | sndSleep a m => rw [hpc] at hown; cases hown
  | sndRelock a m => rw [hpc] at hown; cases hown
  | sndFree err m => rw [hpc] at hown; cases hown
  | rcvLock a =>
      rw [hpc] at h
      simp only at h
      split at h
      · cases h
        exact .setPc _ rfl
      · cases h
        exact rcvRetry_sendless hown e a _
  | rcvRelock a q => rw [hpc] at h; cases h; exact rcvRelock_sendless hown e a q
  | rcvNull a => rw [hpc] at h; cases h; exact rcvNull_sendless hown a
  | rcvCopy a m => rw [hpc] at h; cases h; exact .setPc _ rfl
  | ctlDown a => rw [hpc] at h; exact hdown _ rfl h
  | ctlLock a => rw [hpc] at h; cases h; exact ctlBody_sendless hown e a
  | ctlFree q rest => rw [hpc] at h; cases h; exact freeStep_sendless hown q rest
  | statLock i cmd space => rw [hpc] at h; cases h; exact statBody_sendless hown e i cmd space
  | infoDown cmd space => rw [hpc] at h; exact hdown _ rfl h
  | infoRead cmd space => rw [hpc] at h; cases h; exact .setPc _ rfl
  | getDown key flg => rw [hpc] at h; exact hdown _ rfl h
  | getFind key flg => rw [hpc] at h; cases h; exact getFind_sendless key flg
  | getNew key flg =>
      rw [hpc] at h
      simp only at h
      split at h
      · cases h
        exact .setPc _ rfl
      · cases h
        exact .setPc _ rfl
  | getGrow key flg => rw [hpc] at h; cases h; exact .setPc _ rfl
  | getAdd key flg size => rw [hpc] at h; cases h; exact newque_sendless e key flg size
  | getLock id flg => rw [hpc] at h; cases h; exact getLock_sendless hown id flg
  | semUp r => rw [hpc] at h; cases h; exact .setPc _ rfl

theorem resume_sendless {σ σ' : State} {t : Tid} (hown : σ.Sendless t)
    (h : resume σ t = some σ') : σ'.Sendless t := by
  unfold resume at h
  split at h
  · rename_i a m hpc
    unfold State.Sendless at hown
    rw [hpc] at hown
    cases hown
  · cases h
    exact .setPc _ rfl
  · cases h

/-- The call is one of `_rt_msgsnd`. -/
def Call.sends : Call → Bool
  | .msgsnd _ _ _ _ _ => true
  | .msgrcv _ _ _ _ _ | .msgctl _ _ _ _ | .msgget _ _ => false

theorem enter_sendless {P : Params} {σ : State} {t : Tid} {e : Env} {c : Call}
    (h : c.sends = false) : (enter P σ t e c).Sendless t := by
  unfold enter
  cases c with
  | msgsnd msqid mtype mtext msgflg space => cases h
  | msgrcv msqid msgsz msgtyp msgflg space =>
      simp only
      split
      · exact .setPc _ rfl
      · exact .setPc _ rfl
  | msgctl msqid cmd buf space =>
      simp only
      split
      · exact .setPc _ rfl
      · split
        all_goals first | exact .setPc _ rfl | (split <;> exact .setPc _ rfl)
  | msgget key msgflg => exact .setPc _ rfl

theorem State.Sendless.quiet {σ : State} {t : Tid} (h : σ.Sendless t) : σ.bailsOut t = false := by
  unfold State.Sendless at h
  unfold State.bailsOut
  cases hpc : (σ.tasks t).pc with
  | sndLock a m => rw [hpc] at h; cases h
  | sndRelock a m => rw [hpc] at h; cases h
  | _ => rfl

theorem Calling.sendless {P : Params} {t : Tid} {c : Call} {own : List (State × State)}
    {σ : State} (h : Calling P t c own σ) (hc : c.sends = false) :
    σ.Sendless t ∧ ∀ s ∈ own, s.1.bailsOut t = false := by
  induction h with
  | enters hr hs =>
      refine ⟨?_, ?_⟩
      · rw [call_step hs]
        exact enter_sendless hc
      · intro s hs'
        rw [List.mem_singleton.mp hs']
        exact (call_quiet hs).1
  | runs _ mine hs ih =>
      obtain ⟨hown, hquiet⟩ := ih
      refine ⟨?_, ?_⟩
      · rcases own_step mine hs with hres | ⟨e, hexec⟩
        · exact resume_sendless hown hres
        · exact exec_sendless hown hexec
      · intro s hs'
        rcases List.mem_append.mp hs' with hold | hnew
        · exact hquiet s hold
        · rw [List.mem_singleton.mp hnew]
          exact hown.quiet
  | others hcall hother hs ih =>
      refine ⟨?_, ih.2⟩
      unfold State.Sendless
      rw [other_pc (wf_invariant P _ hcall.reachable) hother hs]
      exact ih.1

/-! ## The depth on return -/

/-- After any number of stretches of a call, and so on return, the caller is at the depth at
which it entered, exactly if that was 0 or no stretch went to `out_unlock_free` of
`_rt_msgsnd` without the lock. The other calls have no such stretch. -/
theorem sched_depth_kept_iff {P : Params} {t : Tid} {c : Call} {own : List (State × State)}
    {σ : State} (h : Calling P t c own σ) (d : Nat) :
    (schedDepth own t d = d ↔ d = 0 ∨ ∀ s ∈ own, s.1.bailsOut t = false) ∧
      (c.sends = false → ∀ s ∈ own, s.1.bailsOut t = false) := by
  refine ⟨?_, fun hc => (h.sendless hc).2⟩
  cases h.nesting d with
  | kept hnone hdepth => exact iff_of_true hdepth (.inr hnone)
  | lost hsome hdepth _ =>
      obtain ⟨s, hs, hbail⟩ := hsome
      rw [hdepth]
      constructor
      · intro heq
        left
        omega
      · rintro (rfl | hall)
        · rfl
        · rw [hall s hs] at hbail
          cases hbail

/-- A queue with no room at all, and a task that sends to it and will not wait. -/
def refusedSend : List Label :=
  createQueue 0 ++ .call 0 (.msgctl 0 .ipcSet (some ⟨0, 500, 500, 0o666#32⟩) false) demoEnv ::
    List.replicate 3 (.exec 0 demoEnv) ++
    [.call 0 (.msgsnd 0 1 [7] IPC_NOWAIT false) demoEnv, .exec 0 demoEnv, .exec 0 demoEnv]

/-- The state after so many of the labels. -/
def refusedAfter (n : Nat) : State :=
  ((machine demoParams).run (initState demoParams demoCred) (refusedSend.take n)).getD
    (initState demoParams demoCred)

theorem refusedAfter_reachable : (machine demoParams).Reachable (refusedAfter 11) := by
  have hrun : (machine demoParams).run (initState demoParams demoCred) (refusedSend.take 11) =
      some (refusedAfter 11) := rfl
  exact .of_run ⟨demoCred, rfl⟩ hrun

/-- The steps of the send. -/
def refusedOwn : List (State × State) :=
  [(refusedAfter 11, refusedAfter 12), (refusedAfter 12, refusedAfter 13),
    (refusedAfter 13, refusedAfter 14)]

theorem refused_calling : Calling demoParams 0 (.msgsnd 0 1 [7] IPC_NOWAIT false) refusedOwn
    (refusedAfter 14) :=
  .runs (l := .exec 0 demoEnv) (.runs (l := .exec 0 demoEnv)
    (.enters (e := demoEnv) refusedAfter_reachable rfl) (.inr ⟨demoEnv, rfl⟩) rfl)
    (.inr ⟨demoEnv, rfl⟩) rfl

theorem sched_depth_kept_refused :
    (schedDepth refusedOwn 0 0 = 0 ↔ 0 = 0 ∨ ∀ s ∈ refusedOwn, s.1.bailsOut 0 = false) ∧
      ((Call.msgsnd 0 1 [7] IPC_NOWAIT false).sends = false →
        ∀ s ∈ refusedOwn, s.1.bailsOut 0 = false) :=
  sched_depth_kept_iff refused_calling 0

/-- A caller that holds the scheduler lock once loses it when `-EAGAIN` is returned. -/
theorem refused_send_unlocks : ¬ ∀ P t c own σ r d, Calling P t c own σ →
    (σ.tasks t).pc = .idle (some r) → schedDepth own t d = d := by
  intro hclaim
  have hkept := hclaim demoParams 0 _ _ (refusedAfter 14) (.err .EAGAIN) 1 refused_calling rfl
  have hlost : schedDepth refusedOwn 0 1 = 0 := rfl
  rw [hlost] at hkept
  cases hkept

end RtaiDemos.Sysvmsg
