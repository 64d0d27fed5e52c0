import RtaiDemos.Sysvmsg.LoadMsg
import RtaiDemos.Sysvmsg.Logic.Freed
import RtaiDemos.Sysvmsg.Theorems.Delivery

/-!
# Failed calls leave no trace

A call of `_rt_msgsnd` that fails, and a call of `_rt_msgrcv` that fails before
it has a message, has done nothing that anybody else can see: whatever it was
in the middle of when another task moved, its own steps have touched the queues
only to link and unlink its waiter record, that record is on no live queue when
it returns, and the message it had loaded has been freed once.
-/

namespace RtaiDemos.Sysvmsg

/-! ## One call in a run -/

/-- Task `t` has begun the call `c`, and the run has come to the last state; the
list has the steps that the task itself has taken for the call. Others move in
between, and go on after it has returned. -/
inductive Calling (P : Params) (t : Tid) (c : Call) : List (State × State) → State → Prop
  | enters {σ σ' : State} {e : Env} (reachable : (machine P).Reachable σ)
      (step : step P σ (.call t c e) = some σ') : Calling P t c [(σ, σ')] σ'
  | runs {own : List (State × State)} {σ σ' : State} {l : Label} (calling : Calling P t c own σ)
      (mine : l = .resume t ∨ ∃ e, l = .exec t e) (step : step P σ l = some σ') :
      Calling P t c (own ++ [(σ, σ')]) σ'
  | others {own : List (State × State)} {σ σ' : State} {l : Label} (calling : Calling P t c own σ)
      (other : l.task ≠ t ∨ ∃ b, l = .signal t b) (step : step P σ l = some σ') :
      Calling P t c own σ'

/-- The message that the call has loaded: its first step is all code up to the
first `msg_lock`. -/
def loaded (own : List (State × State)) (t : Tid) : Option Msg :=
  own.head?.bind fun s => (s.2.tasks t).pc.owned

/-- A queue without the waiter records of a task. -/
def MsgQueue.apart (msq : MsgQueue) (t : Tid) : MsgQueue :=
  { msq with
    q_receivers := msq.q_receivers.filter (· ≠ t)
    q_senders := msq.q_senders.filter (· ≠ t) }

/-- The two states differ in the task `t`, in its waiter records and in the
messages allocated and freed, and in nothing else. -/
structure Unmarked (t : Tid) (σ σ' : State) : Prop where
  ids : σ'.ids = σ.ids
  sem : σ'.sem = σ.sem
  queues : ∀ q, (σ'.queues q).map (·.apart t) = (σ.queues q).map (·.apart t)
  msg_bytes : σ'.msg_bytes = σ.msg_bytes
  msg_hdrs : σ'.msg_hdrs = σ.msg_hdrs
  tasks : ∀ u, u ≠ t → σ'.tasks u = σ.tasks u
  hist : { σ'.hist with freed := σ.hist.freed } = σ.hist

/-- The errors of a call that must have left no trace. -/
def Call.traceless (e : Errno) : Call → Bool
  | .msgsnd _ _ _ _ _ => true
  | .msgrcv _ _ _ _ _ => e ≠ .EFAULT
  | .msgctl _ _ _ _ | .msgget _ _ => false

theorem Calling.reachable {P : Params} {t : Tid} {c : Call} {own : List (State × State)}
    {σ : State} (h : Calling P t c own σ) : (machine P).Reachable σ := by
  induction h with
  | enters hr hs => exact step_reachable hr hs
  | runs _ _ hs ih => exact step_reachable ih hs
  | others _ _ hs ih => exact step_reachable ih hs

/-- Every run in which the task enters the call, and enters no other, is one. -/
theorem Calling.of_run {P : Params} {t : Tid} {c : Call} {own : List (State × State)}
    {σ σ' : State} {as : List Label} (h : Calling P t c own σ)
    (has : ∀ c' e, .call t c' e ∉ as) (hrun : (machine P).run σ as = some σ') :
    ∃ own', Calling P t c own' σ' := by
  induction as generalizing own σ with
  | nil =>
      cases hrun
      exact ⟨own, h⟩
  | cons l rest ih =>
      obtain ⟨σ₁, hstep, hrest⟩ := Option.bind_eq_some_iff.mp hrun
      have hnot : ∀ c' e, .call t c' e ∉ rest := fun c' e hm => has c' e (List.mem_cons_of_mem _ hm)
      by_cases ht : l.task = t
      · cases l with
        | call u c' e =>
            cases ht
            exact absurd List.mem_cons_self (has c' e)
        | exec u e =>
            cases ht
            exact ih (.runs h (.inr ⟨e, rfl⟩) hstep) hnot hrest
        | resume u =>
            cases ht
            exact ih (.runs h (.inl rfl) hstep) hnot hrest
        | signal u b =>
            cases ht
            exact ih (.others h (.inr ⟨b, rfl⟩) hstep) hnot hrest
      · exact ih (.others h (.inl ht) hstep) hnot hrest

/-- The same, for a run from the start of the demonstration machine. -/
theorem Calling.of_demoRun {as bs : List Label} {t : Tid} {c : Call} {e : Env} {ask : State → Bool}
    (h : demoRun (as ++ .call t c e :: bs) ask = true) (hbs : ∀ c' e', .call t c' e' ∉ bs) :
    ∃ own σ, Calling demoParams t c own σ ∧ ask σ = true := by
  obtain ⟨σ, hrun, hask⟩ := TSys.run_of_leadsTo h
  obtain ⟨σ₀, has, hrest⟩ := Option.bind_eq_some_iff.mp ((TSys.run_append _ as _ _).symm.trans hrun)
  obtain ⟨σ₁, hstep, hbs'⟩ := Option.bind_eq_some_iff.mp hrest
  have hr : (machine demoParams).Reachable σ₀ := .of_run ⟨demoCred, rfl⟩ has
  obtain ⟨own, hcall⟩ := (Calling.enters hr hstep).of_run hbs hbs'
  exact ⟨own, σ, hcall, hask⟩

/-! ## What touches nobody else -/

theorem Unmarked.refl (t : Tid) (σ : State) : Unmarked t σ σ :=
  ⟨rfl, rfl, fun _ => rfl, rfl, rfl, fun _ _ => rfl, rfl⟩

theorem Unmarked.free (t : Tid) (σ : State) (l : List Msg) :
    Unmarked t σ (σ.log fun h => { h with freed := l }) :=
  ⟨rfl, rfl, fun _ => rfl, rfl, rfl, fun _ _ => rfl, rfl⟩

theorem Unmarked.alloc {t : Tid} {σ τ : State} (h : Unmarked t σ τ) (n : Nat) :
    Unmarked t σ { τ with nextMsg := n } :=
  ⟨h.ids, h.sem, h.queues, h.msg_bytes, h.msg_hdrs, h.tasks, h.hist⟩

theorem Unmarked.modT {t : Tid} {σ τ : State} (h : Unmarked t σ τ) (f : Task → Task) :
    Unmarked t σ (τ.modT t f) := by
  refine ⟨h.ids, h.sem, h.queues, h.msg_bytes, h.msg_hdrs, ?_, h.hist⟩
  intro u hu
  rw [State.modT_tasks, if_neg hu]
  exact h.tasks u hu

theorem Unmarked.setPc {t : Tid} {σ τ : State} (h : Unmarked t σ τ) (pc : Pc) :
    Unmarked t σ (τ.setPc t pc) := h.modT _

/-- A change of the waiter records of `t` on one queue. -/
theorem Unmarked.modQ {t : Tid} {σ τ : State} (h : Unmarked t σ τ) (q : QId)
    {f : MsgQueue → MsgQueue} (hf : ∀ msq, (f msq).apart t = msq.apart t) :
    Unmarked t σ (τ.modQ q f) := by
  refine ⟨h.ids, h.sem, ?_, h.msg_bytes, h.msg_hdrs, h.tasks, h.hist⟩
  intro p
  rw [State.modQ_view (fun msq => msq.apart t) τ q f hf p]
  exact h.queues p

theorem filter_append_self (l : List Tid) (t : Tid) :
    (l ++ [t]).filter (· ≠ t) = l.filter (· ≠ t) := by
  simp

theorem filter_erase_self (l : List Tid) (t : Tid) :
    (l.erase t).filter (· ≠ t) = l.filter (· ≠ t) := by
  induction l with
  | nil => rfl
  | cons u rest ih =>
      by_cases hu : u = t
      · subst hu
        simp
      · rw [List.erase_cons_tail (by simpa using hu), List.filter_cons, List.filter_cons, ih]

theorem r_list_del_unmarked (σ : State) (q : QId) (t : Tid) : Unmarked t σ (r_list_del σ q t) := by
  refine (Unmarked.refl t σ).modQ q ?_
  intro msq
  simp only [MsgQueue.apart, filter_erase_self]

/-- `ss_del` finds the record where its list node says, or finds it struck off. -/
theorem ss_del_unmarked {σ : State} (hw : Wf σ) (t : Tid) : Unmarked t σ (ss_del σ t) := by
  unfold ss_del
  split
  · exact .refl t σ
  · rename_i q hlist
    obtain ⟨a, m, _, hnames⟩ := hw.wait.snd_names t q hlist
    obtain ⟨msq, hq, _⟩ := hnames.live.perm_isSome hw.tab
    have hmem := (hw.wait.snd_linked q msq hnames.live hq t).mpr hlist
    simp only [hq, if_pos hmem]
    refine ((Unmarked.refl t σ).modT _).modQ q ?_
    intro msq
    simp only [MsgQueue.apart, filter_erase_self]

/-! ## The steps of `_rt_msgsnd` -/

/-- What a step of a sender that has its message comes to: it goes on with it,
it frees it and returns an error, or it sends it. -/
inductive SndStep (t : Tid) (m : Msg) (σ σ' : State) : Prop
  | goesOn (unmarked : Unmarked t σ σ') (owned : (σ'.tasks t).pc.owned = some m)
  | fails (e : Errno) (unmarked : Unmarked t σ σ') (pc : (σ'.tasks t).pc = .idle (some (.err e)))
      (freed : m ∈ σ'.hist.freed)
  | sends (pc : (σ'.tasks t).pc = .idle (some (.ok 0)))

theorem SndStep.setPc {t : Tid} {m : Msg} {σ τ : State} (h : Unmarked t σ τ) {pc : Pc}
    (hpc : pc.owned = some m) : SndStep t m σ (τ.setPc t pc) := by
  refine .goesOn (h.setPc pc) ?_
  rw [State.setPc_tasks, if_pos rfl]
  exact hpc

theorem sndRetry_step {σ₀ σ : State} {t : Tid} {e : Env} {a : SndArgs} {m : Msg} {q : QId}
    (h : Unmarked t σ₀ σ) (hok : (sndRetry σ t e a m q).oops = none) :
    SndStep t m σ₀ (sndRetry σ t e a m q) := by
  unfold sndRetry at hok ⊢
  split
  · rename_i hq
    rw [hq] at hok
    cases hok
  · split
    · exact .setPc h rfl
    · split
      · exact .setPc h rfl
      · split
        · split
          · exact .setPc h rfl
          · refine .setPc ((h.modT _).modQ q ?_) rfl
            intro msq
            simp only [MsgQueue.apart, filter_append_self]
        · refine .sends ?_
          simp

theorem sndRelock_step {σ : State} (hw : Wf σ) {t : Tid} {e : Env} {a : SndArgs} {m : Msg}
    (hok : (sndRelock σ t e a m).oops = none) : SndStep t m σ (sndRelock σ t e a m) := by
  have hdel := ss_del_unmarked hw t
  unfold sndRelock at hok ⊢
  split
  · exact .setPc (.refl t σ) rfl
  · rename_i q hlock
    rw [hlock] at hok
    simp only at hok ⊢
    split
    · exact .setPc hdel rfl
    · rename_i hsig
      rw [if_neg hsig] at hok
      exact sndRetry_step hdel hok

/-- Every step of a sender that has its message. -/
theorem snd_step {σ σ' : State} (hw : Wf σ) {t : Tid} {m : Msg}
    (howned : (σ.tasks t).pc.owned = some m) (hok : σ'.oops = none)
    (h : resume σ t = some σ' ∨ ∃ e, exec σ t e = some σ') : SndStep t m σ σ' := by
  rcases h with h | ⟨e, h⟩
  · unfold resume at h
    split at h
    · rename_i a m' hpc
      rw [hpc] at howned
      cases howned
      cases h
      exact .setPc (.refl t σ) rfl
    · rename_i a q hpc
      rw [hpc] at howned
      cases howned
    · cases h
  · unfold exec at h
    cases hpc : (σ.tasks t).pc with
    | sndLock a m' =>
        rw [hpc] at h howned
        cases howned
        simp only at h
        split at h
        · cases h
          exact .setPc (.refl t σ) rfl
        · cases h
          exact sndRetry_step (.refl t σ) hok
    | sndSleep a m' => rw [hpc] at h; cases h
    | sndRelock a m' =>
        rw [hpc] at h howned
        cases howned
        cases h
        exact sndRelock_step hw hok
    | sndFree err m' =>
        rw [hpc] at h howned
        cases howned
        cases h
        exact .fails err ((Unmarked.free t σ (σ.hist.freed ++ [m])).setPc _) (by simp) (by simp)
    | _ => rw [hpc] at howned; cases howned

/-! ## The steps of `_rt_msgrcv` -/

/-- A receiver that has no message. -/
def Pc.receiving : Pc → Bool
  | .rcvLock _ | .rcvSleep _ _ | .rcvRelock _ _ | .rcvNull _ => true
  | _ => false

/-- What a step of a receiver without a message comes to: it goes on, it returns
an error, or it has got a message. -/
inductive RcvStep (t : Tid) (σ σ' : State) : Prop
  | goesOn (unmarked : Unmarked t σ σ') (receiving : (σ'.tasks t).pc.receiving = true)
  | fails (e : Errno) (unmarked : Unmarked t σ σ') (pc : (σ'.tasks t).pc = .idle (some (.err e)))
  | takes (a : RcvArgs) (m : Msg) (pc : (σ'.tasks t).pc = .rcvCopy a m)

theorem RcvStep.setPc {t : Tid} {σ τ : State} (h : Unmarked t σ τ) {pc : Pc}
    (hpc : pc.receiving = true) : RcvStep t σ (τ.setPc t pc) := by
  refine .goesOn (h.setPc pc) ?_
  rw [State.setPc_tasks, if_pos rfl]
  exact hpc

theorem RcvStep.ret {t : Tid} {σ τ : State} (h : Unmarked t σ τ) (e : Errno) :
    RcvStep t σ (τ.ret t (.err e)) := by
  refine .fails e (h.setPc _) ?_
  simp

theorem RcvStep.copy {t : Tid} (σ τ : State) (a : RcvArgs) (m : Msg) :
    RcvStep t σ (τ.setPc t (.rcvCopy a m)) := by
  refine .takes a m ?_
  simp

theorem rcvRetry_step {σ₀ σ : State} {t : Tid} {e : Env} {a : RcvArgs} {q : QId}
    (h : Unmarked t σ₀ σ) (hok : (rcvRetry σ t e a q).oops = none) :
    RcvStep t σ₀ (rcvRetry σ t e a q) := by
  unfold rcvRetry at hok ⊢
  split
  · rename_i hq
    rw [hq] at hok
    cases hok
  · split
    · exact .ret h _
    · split
      · exact .ret h _
      · split
        · split
          · exact .ret h _
          · exact .copy _ _ _ _
        · split
          · exact .ret h _
          · refine .setPc ((h.modT _).modQ q ?_) rfl
            intro msq
            simp only [MsgQueue.apart, filter_append_self]

theorem rcvRelock_step {σ : State} {t : Tid} {e : Env} {a : RcvArgs} {q : QId}
    (hok : (rcvRelock σ t e a q).oops = none) : RcvStep t σ (rcvRelock σ t e a q) := by
  have hdel := r_list_del_unmarked σ q t
  unfold rcvRelock at hok ⊢
  split
  · exact .setPc (.refl t σ) rfl
  · rename_i q' hlock
    rw [hlock] at hok
    simp only at hok
    split
    · exact .copy _ _ _ _
    · rename_i hmsg
      rw [hmsg] at hok
      simp only at hok
      split
      · rename_i hq
        rw [hq] at hok
        cases hok
      · rename_i msq hq
        rw [hq] at hok
        simp only at hok ⊢
        split
        · rename_i hmem
          rw [if_pos hmem] at hok
          split
          · exact .ret hdel _
          · rename_i hsig
            rw [if_neg hsig] at hok
            exact rcvRetry_step hdel hok
        · rename_i hmem
          rw [if_neg hmem] at hok
          cases hok
    · exact .ret (.refl t σ) _

theorem rcvNull_step {σ : State} {t : Tid} {a : RcvArgs} (hok : (rcvNull σ t a).oops = none) :
    RcvStep t σ (rcvNull σ t a) := by
  unfold rcvNull at hok ⊢
  split
  · exact .copy _ _ _ _
  · rename_i hmsg
    rw [hmsg] at hok
    cases hok
  · exact .ret (.refl t σ) _

/-- Every step of a receiver that has no message. -/
theorem rcv_step {σ σ' : State} {t : Tid} (hrcv : (σ.tasks t).pc.receiving = true)
    (hok : σ'.oops = none) (h : resume σ t = some σ' ∨ ∃ e, exec σ t e = some σ') :
    RcvStep t σ σ' := by
  rcases h with h | ⟨e, h⟩
  · unfold resume at h
    split at h
    · rename_i a m hpc
      rw [hpc] at hrcv
      cases hrcv
    · cases h
      exact .setPc (.refl t σ) rfl
    · cases h
  · unfold exec at h
    cases hpc : (σ.tasks t).pc with
    | rcvLock a =>
        rw [hpc] at h
        simp only at h
        split at h
        · cases h
          exact .ret (.refl t σ) _
        · cases h
          exact rcvRetry_step (.refl t σ) hok
    | rcvSleep a q => rw [hpc] at h; cases h
    | rcvRelock a q =>
        rw [hpc] at h
        cases h
        exact rcvRelock_step hok
    | rcvNull a =>
        rw [hpc] at h
        cases h
        exact rcvNull_step hok
    | _ => rw [hpc] at hrcv; cases hrcv

/-- `out_success` ends the call: with the message copied out, or with `-EFAULT`. -/
theorem copy_step {σ σ' : State} {t : Tid} {a : RcvArgs} {m : Msg}
    (hpc : (σ.tasks t).pc = .rcvCopy a m)
    (h : resume σ t = some σ' ∨ ∃ e, exec σ t e = some σ') :
    ∃ r, (σ'.tasks t).pc = .idle (some r) ∧ ∀ e, r = .err e → e = .EFAULT := by
  rcases h with h | ⟨e, h⟩
  · unfold resume at h
    rw [hpc] at h
    cases h
  · unfold exec at h
    rw [hpc] at h
    cases h
    unfold copyOut
    simp only [State.ret_eq, State.setPc_tasks, if_true]
    refine ⟨_, rfl, ?_⟩
    intro err hr
    split at hr
    · cases hr
      rfl
    · cases hr

/-! ## The course of a call -/

/-- None of the steps has touched anybody else. -/
def Untouched (t : Tid) (own : List (State × State)) : Prop := ∀ s ∈ own, Unmarked t s.1 s.2

theorem Untouched.single {t : Tid} {σ σ' : State} (h : Unmarked t σ σ') :
    Untouched t [(σ, σ')] := by
  intro s hs
  rw [List.mem_singleton.mp hs]
  exact h

theorem Untouched.concat {t : Tid} {own : List (State × State)} {σ σ' : State}
    (h : Untouched t own) (hs : Unmarked t σ σ') : Untouched t (own ++ [(σ, σ')]) := by
  intro s hmem
  rcases List.mem_append.mp hmem with hold | hnew
  · exact h s hold
  · rw [List.mem_singleton.mp hnew]
    exact hs

/-- How a `_rt_msgsnd` stands: refused before anything was loaded, under way
with its message, failed with its message freed, or done. -/
inductive SndCourse (t : Tid) (own : List (State × State)) (σ : State) : Prop
  | refused (loads : loaded own t = none) (untouched : Untouched t own)
      (idle : ∃ r, (σ.tasks t).pc = .idle r)
  | underWay (m : Msg) (loads : loaded own t = some m) (untouched : Untouched t own)
      (owned : (σ.tasks t).pc.owned = some m)
  | failed (m : Msg) (loads : loaded own t = some m) (untouched : Untouched t own)
      (idle : ∃ r, (σ.tasks t).pc = .idle r) (freed : m ∈ σ.hist.freed)
  | sent (pc : (σ.tasks t).pc = .idle (some (.ok 0)))

/-- How a `_rt_msgrcv` stands: under way, failed, or with a message that it may
have returned. -/
inductive RcvCourse (t : Tid) (own : List (State × State)) (σ : State) : Prop
  | underWay (untouched : Untouched t own) (receiving : (σ.tasks t).pc.receiving = true)
  | failed (untouched : Untouched t own) (idle : ∃ r, (σ.tasks t).pc = .idle r)
  | got (a : RcvArgs) (m : Msg) (pc : (σ.tasks t).pc = .rcvCopy a m)
  | done (r : Ret) (pc : (σ.tasks t).pc = .idle (some r)) (fault : ∀ e, r = .err e → e = .EFAULT)

/-- A step that the task takes for its call. -/
theorem own_step {P : Params} {t : Tid} {σ σ' : State} {l : Label}
    (mine : l = .resume t ∨ ∃ e, l = .exec t e) (h : step P σ l = some σ') :
    resume σ t = some σ' ∨ ∃ e, exec σ t e = some σ' := by
  rcases step_cases h with ⟨u, c, e, r, rfl, -, -⟩ | ⟨u, e, rfl, hx⟩ | ⟨u, rfl, hx⟩ |
    ⟨u, b, rfl, -⟩
  · rcases mine with hl | ⟨_, hl⟩ <;> cases hl
  · rcases mine with hl | ⟨_, hl⟩ <;> cases hl
    exact .inr ⟨e, hx⟩
  · rcases mine with hl | ⟨_, hl⟩ <;> cases hl
    exact .inl hx
  · rcases mine with hl | ⟨_, hl⟩ <;> cases hl

/-- A task that is outside every call takes no step. -/
theorem idle_step {t : Tid} {σ σ' : State} {r : Option Ret} (hpc : (σ.tasks t).pc = .idle r) :
    ¬ (resume σ t = some σ' ∨ ∃ e, exec σ t e = some σ') := by
  rintro (h | ⟨e, h⟩)
  · unfold resume at h
    rw [hpc] at h
    cases h
  · unfold exec at h
    rw [hpc] at h
    cases h

/-- What others do, and a signal, leave the task where it is. -/
theorem other_pc {P : Params} {t : Tid} {σ σ' : State} {l : Label} (hw : Wf σ)
    (other : l.task ≠ t ∨ ∃ b, l = .signal t b) (h : step P σ l = some σ') :
    (σ'.tasks t).pc = (σ.tasks t).pc := by
  rcases other with ht | ⟨b, rfl⟩
  · exact (step_other hw h ht).pc
  · rcases step_cases h with ⟨u, c, e, r, hl, -, -⟩ | ⟨u, e, hl, -⟩ | ⟨u, hl, -⟩ |
      ⟨u, b', hl, rfl⟩
    · cases hl
    · cases hl
    · cases hl
    · cases hl
      simp

/-- What has been freed stays in the list. -/
theorem step_freed_mem {P : Params} {σ σ' : State} {l : Label} (hr : (machine P).Reachable σ)
    (h : step P σ l = some σ') {m : Msg} (hm : m ∈ σ.hist.freed) : m ∈ σ'.hist.freed := by
  rcases step_freed hr h with hsame | ⟨m', happ, -⟩
  · rw [hsame]
    exact hm
  · rw [happ]
    exact List.mem_append_left _ hm

/-- The first step of a call stays its first. -/
theorem loaded_append {own : List (State × State)} {t : Tid} (hne : own ≠ [])
    (s : State × State) : loaded (own ++ [s]) t = loaded own t := by
  cases own with
  | nil => exact absurd rfl hne
  | cons s₀ rest => rfl

theorem Calling.ne_nil {P : Params} {t : Tid} {c : Call} {own : List (State × State)} {σ : State}
    (h : Calling P t c own σ) : own ≠ [] := by
  induction h with
  | enters => exact List.cons_ne_nil _ _
  | runs _ _ _ _ => simp
  | others _ _ _ ih => exact ih

/-- The code before the first lock touches nobody. -/
theorem enter_unmarked (P : Params) (σ : State) (t : Tid) (e : Env) (c : Call) :
    Unmarked t σ (enter P (σ.modT t fun k => { k with calls := k.calls + 1 }) t e c) := by
  obtain ⟨n, pc, he⟩ := enter_eq P (σ.modT t fun k => { k with calls := k.calls + 1 }) t e c
  rw [he]
  exact (((Unmarked.refl t σ).modT _).alloc n).setPc pc

theorem call_step {P : Params} {σ σ' : State} {t : Tid} {c : Call} {e : Env}
    (h : step P σ (.call t c e) = some σ') :
    σ' = enter P (σ.modT t fun k => { k with calls := k.calls + 1 }) t e c := by
  rcases step_cases h with ⟨u, c', e', r, hl, -, heq⟩ | ⟨u, e', hl, -⟩ | ⟨u, hl, -⟩ |
    ⟨u, b, hl, -⟩
  · cases hl
    exact heq
  · cases hl
  · cases hl
  · cases hl

section
variable {P : Params} {t : Tid} {msqid : Int} {msgflg : BitVec 32} {space : Bool}
  {own : List (State × State)} {σ : State}

theorem Calling.snd_course {mtype : Int} {mtext : List UInt8}
    (h : Calling P t (.msgsnd msqid mtype mtext msgflg space) own σ) : SndCourse t own σ := by
  induction h with
  | @enters σ σ' e hr hs =>
      have hmark := enter_unmarked P σ t e (.msgsnd msqid mtype mtext msgflg space)
      rw [← call_step hs] at hmark
      have hpc : (∃ r, (σ'.tasks t).pc = .idle r) ∨ ∃ m, (σ'.tasks t).pc.owned = some m := by
        rw [call_step hs, enter]
        split_ifs
        all_goals simp [Pc.owned]
      rcases hpc with ⟨r, hr⟩ | ⟨m, hm⟩
      · refine .refused ?_ (.single hmark) ⟨r, hr⟩
        simp [loaded, hr, Pc.owned]
      · exact .underWay m hm (.single hmark) hm
  | @runs own σ σ' l hc mine hs ih =>
      have hw := wf_invariant P σ hc.reachable
      have hok := (wf_invariant P σ' (step_reachable hc.reachable hs)).ok
      have hown := own_step mine hs
      have hloads := loaded_append (t := t) hc.ne_nil (σ, σ')
      cases ih with
      | refused _ _ idle =>
          obtain ⟨r, hr⟩ := idle
          exact absurd hown (idle_step hr)
      | failed _ _ _ idle _ =>
          obtain ⟨r, hr⟩ := idle
          exact absurd hown (idle_step hr)
      | sent pc => exact absurd hown (idle_step pc)
      | underWay m loads untouched owned =>
          cases snd_step hw owned hok hown with
          | goesOn unmarked owned' =>
              exact .underWay m (hloads.trans loads) (untouched.concat unmarked) owned'
          | fails e unmarked pc freed =>
              exact .failed m (hloads.trans loads) (untouched.concat unmarked) ⟨_, pc⟩ freed
          | sends pc => exact .sent pc
  | @others own σ σ' l hc other hs ih =>
      have hpc := other_pc (wf_invariant P σ hc.reachable) other hs
      cases ih with
      | refused loads untouched idle => exact .refused loads untouched (by rw [hpc]; exact idle)
      | underWay m loads untouched owned =>
          exact .underWay m loads untouched (by rw [hpc]; exact owned)
      | failed m loads untouched idle freed =>
          exact .failed m loads untouched (by rw [hpc]; exact idle)
            (step_freed_mem hc.reachable hs freed)
      | sent pc => exact .sent (by rw [hpc]; exact pc)

theorem Calling.rcv_course {msgsz : Nat} {msgtyp : Int}
    (h : Calling P t (.msgrcv msqid msgsz msgtyp msgflg space) own σ) :
    RcvCourse t own σ ∧ loaded own t = none := by
  induction h with
  | @enters σ σ' e hr hs =>
      have hmark := enter_unmarked P σ t e (.msgrcv msqid msgsz msgtyp msgflg space)
      rw [← call_step hs] at hmark
      have hpc : (∃ r, (σ'.tasks t).pc = .idle r) ∨ ∃ a, (σ'.tasks t).pc = .rcvLock a := by
        rw [call_step hs, enter]
        split_ifs
        all_goals simp
      rcases hpc with ⟨r, hr⟩ | ⟨a, ha⟩
      · exact ⟨.failed (.single hmark) ⟨r, hr⟩, by simp [loaded, hr, Pc.owned]⟩
      · exact ⟨.underWay (.single hmark) (by rw [ha]; rfl), by simp [loaded, ha, Pc.owned]⟩
  | @runs own σ σ' l hc mine hs ih =>
      have hok := (wf_invariant P σ' (step_reachable hc.reachable hs)).ok
      have hown := own_step mine hs
      refine ⟨?_, (loaded_append hc.ne_nil (σ, σ')).trans ih.2⟩
      cases ih.1 with
      | failed _ idle =>
          obtain ⟨r, hr⟩ := idle
          exact absurd hown (idle_step hr)
      | done r pc _ => exact absurd hown (idle_step pc)
      | got a m pc =>
          obtain ⟨r, hr, hfault⟩ := copy_step pc hown
          exact .done r hr hfault
      | underWay untouched receiving =>
          cases rcv_step receiving hok hown with
          | goesOn unmarked receiving' => exact .underWay (untouched.concat unmarked) receiving'
          | fails e unmarked pc => exact .failed (untouched.concat unmarked) ⟨_, pc⟩
          | takes a m pc => exact .got a m pc
  | @others own σ σ' l hc other hs ih =>
      have hpc := other_pc (wf_invariant P σ hc.reachable) other hs
      refine ⟨?_, ih.2⟩
      cases ih.1 with
      | underWay untouched receiving => exact .underWay untouched (by rw [hpc]; exact receiving)
      | failed untouched idle => exact .failed untouched (by rw [hpc]; exact idle)
      | got a m pc => exact .got a m (by rw [hpc]; exact pc)
      | done r pc fault => exact .done r (by rw [hpc]; exact pc) fault

end

/-- A task outside every call is linked on no live queue. -/
theorem Wf.idle_unlinked {σ : State} (hw : Wf σ) {t : Tid} {r : Option Ret}
    (hpc : (σ.tasks t).pc = .idle r) {q : QId} {msq : MsgQueue} (hlive : σ.Live q)
    (hq : σ.queues q = some msq) : t ∉ msq.q_senders ∧ t ∉ msq.q_receivers := by
  refine ⟨?_, ?_⟩
  · intro hmem
    have hlist := (hw.wait.snd_linked q msq hlive hq t).mp hmem
    obtain ⟨a, m, hwait, _⟩ := hw.wait.snd_names t q hlist
    rw [hpc] at hwait
    cases hwait
  · intro hmem
    obtain ⟨a, ha⟩ := (hw.wait.rcv_linked q msq hlive hq t).mp hmem
    simp [Task.rcvLinked, hpc, Pc.rcvWaiting] at ha

/-! ## No trace -/

/-- A block that a failed call had got from `kmalloc` has been freed once. -/
theorem abandon_once (L : Layout) (space : Bool) (o : Nat → BlockEnv) (len : Nat) (h : Heap)
    {b : Nat} (hb : b ∈ h.since (abandon L space o len h)) :
    (abandon L space o len h).freed.count b = h.freed.count b + 1 := by
  have hone : (h.since (abandon L space o len h)).count b = 1 :=
    List.count_eq_one_of_mem List.nodup_range' hb
  rw [abandon_freed, List.count_append, hone]

/-- Whatever call of `_rt_msgsnd` has returned an error, and whatever call of
`_rt_msgrcv` has returned one other than `-EFAULT`, from any reachable state and
with any steps of other tasks in between: none of its own steps has changed
anything but its waiter record and its message, none of its waiter records is on
a live queue, the message it had loaded has been freed once, and so has every
block that it is made of, also those of a load that failed half way. -/
theorem failed_call_leaves_no_trace {P : Params} {t : Tid} {c : Call} {own : List (State × State)}
    {σ : State} {e : Errno} (h : Calling P t c own σ) (hc : c.traceless e = true)
    (hret : (σ.tasks t).pc = .idle (some (.err e))) :
    (∀ s ∈ own, Unmarked t s.1 s.2) ∧
    (∀ q msq, σ.Live q → σ.queues q = some msq → t ∉ msq.q_senders ∧ t ∉ msq.q_receivers) ∧
    (∀ m, loaded own t = some m → σ.hist.freed.count m = 1) ∧
    (∀ msqid mtype mtext msgflg space, c = .msgsnd msqid mtype mtext msgflg space →
      ∀ L o h, ∀ b ∈ h.since (abandon L space o mtext.length h),
        (abandon L space o mtext.length h).freed.count b = h.freed.count b + 1) := by
  have hnodup := (freed_invariant P σ h.reachable).nodup
  have hcourse : Untouched t own ∧ ∀ m, loaded own t = some m → m ∈ σ.hist.freed := by
    cases c with
    | msgctl => cases hc
    | msgget => cases hc
    | msgsnd msqid mtype mtext msgflg space =>
        cases h.snd_course with
        | refused loads untouched _ => exact ⟨untouched, fun m hm => by rw [loads] at hm; cases hm⟩
        | underWay m _ _ owned =>
            rw [hret] at owned
            cases owned
        | failed m loads untouched _ freed =>
            refine ⟨untouched, fun m' hm' => ?_⟩
            rw [loads] at hm'
            cases hm'
            exact freed
        | sent pc =>
            rw [hret] at pc
            cases pc
    | msgrcv msqid msgsz msgtyp msgflg space =>
        obtain ⟨hrcv, hloads⟩ := h.rcv_course
        refine ⟨?_, fun m hm => by rw [hloads] at hm; cases hm⟩
        cases hrcv with
        | underWay _ receiving =>
            rw [hret] at receiving
            cases receiving
        | failed untouched _ => exact untouched
        | got a m pc =>
            rw [hret] at pc
            cases pc
        | done r pc fault =>
            rw [hret] at pc
            cases pc
            exact absurd (fault e rfl) (of_decide_eq_true hc)
  refine ⟨hcourse.1, ?_, ?_, ?_⟩
  · exact fun q msq hlive hq => (wf_invariant P σ h.reachable).idle_unlinked hret hlive hq
  · exact fun m hm => List.count_eq_one_of_mem hnodup (hcourse.2 m hm)
  · exact fun _ _ mtext _ space _ L o h b hb => abandon_once L space o mtext.length h hb

/-- A queue that lets nothing in; another task sends, sleeps, and gets a signal. -/
def interrupted : List Label :=
  createQueue 0 ++
    .call 0 (.msgctl 0 .ipcSet (some ⟨0, 500, 500, 0o666#32⟩) false) demoEnv ::
      List.replicate 3 (.exec 0 demoEnv)

/-- The sender of `interrupted` from its call to its return. -/
theorem failed_call_leaves_no_trace_interrupted :
    ∃ own σ, Calling demoParams 1 (.msgsnd 0 1 [7] 0#32 false) own σ ∧
      (σ.tasks 1).pc = .idle (some (.err .EINTR)) ∧ σ.hist.freed = [⟨0, 1, 1, [7]⟩] ∧
      (∀ s ∈ own, Unmarked 1 s.1 s.2) ∧
      (∀ q msq, σ.Live q → σ.queues q = some msq → 1 ∉ msq.q_senders ∧ 1 ∉ msq.q_receivers) ∧
      (∀ m, loaded own 1 = some m → σ.hist.freed.count m = 1) := by
  have hrun : demoRun (interrupted ++ .call 1 (.msgsnd 0 1 [7] 0#32 false) demoEnv ::
      [.exec 1 demoEnv, .signal 1 true, .resume 1, .exec 1 demoEnv, .exec 1 demoEnv])
      (fun σ => decide ((σ.tasks 1).pc = .idle (some (.err .EINTR)) ∧
        σ.hist.freed = [⟨0, 1, 1, [7]⟩])) = true := by
    decide
  obtain ⟨own, σ, hcall, hask⟩ := Calling.of_demoRun hrun (by simp)
  obtain ⟨hpc, hfreed⟩ := of_decide_eq_true hask
  obtain ⟨hown, hlinked, honce, _⟩ := failed_call_leaves_no_trace hcall rfl hpc
  exact ⟨own, σ, hcall, hpc, hfreed, hown, hlinked, honce⟩

end RtaiDemos.Sysvmsg
