import RtaiDemos.Sysvmsg.Machine

/-!
# Frame lemmas

What each elementary update leaves alone, as a simp set, and what the loops
over waiter lists do to every task at once.
-/

namespace RtaiDemos.Sysvmsg

namespace State

variable (σ : State) (q q' : QId) (t u : Tid) (f : MsgQueue → MsgQueue) (g : Task → Task)
  (pc : Pc) (h : History → History) (o : Oops) (r : Ret)

@[simp] theorem modQ_ids : (σ.modQ q f).ids = σ.ids := rfl
@[simp] theorem modQ_sem : (σ.modQ q f).sem = σ.sem := rfl
@[simp] theorem modQ_tasks : (σ.modQ q f).tasks = σ.tasks := rfl
@[simp] theorem modQ_hist : (σ.modQ q f).hist = σ.hist := rfl
@[simp] theorem modQ_msg_bytes : (σ.modQ q f).msg_bytes = σ.msg_bytes := rfl
@[simp] theorem modQ_msg_hdrs : (σ.modQ q f).msg_hdrs = σ.msg_hdrs := rfl
@[simp] theorem modQ_nextMsg : (σ.modQ q f).nextMsg = σ.nextMsg := rfl
@[simp] theorem modQ_oops : (σ.modQ q f).oops = σ.oops := rfl

@[simp] theorem modQ_queues :
    (σ.modQ q f).queues q' = if q' = q then (σ.queues q).map f else σ.queues q' := by
  simp [modQ, Function.update_apply]

@[simp] theorem modT_ids : (σ.modT t g).ids = σ.ids := rfl
@[simp] theorem modT_sem : (σ.modT t g).sem = σ.sem := rfl
@[simp] theorem modT_queues : (σ.modT t g).queues = σ.queues := rfl
@[simp] theorem modT_hist : (σ.modT t g).hist = σ.hist := rfl
@[simp] theorem modT_msg_bytes : (σ.modT t g).msg_bytes = σ.msg_bytes := rfl
@[simp] theorem modT_msg_hdrs : (σ.modT t g).msg_hdrs = σ.msg_hdrs := rfl
@[simp] theorem modT_nextMsg : (σ.modT t g).nextMsg = σ.nextMsg := rfl
@[simp] theorem modT_oops : (σ.modT t g).oops = σ.oops := rfl

@[simp] theorem modT_tasks :
    (σ.modT t g).tasks u = if u = t then g (σ.tasks t) else σ.tasks u := by
  simp [modT, Function.update_apply]

@[simp] theorem setPc_ids : (σ.setPc t pc).ids = σ.ids := rfl
@[simp] theorem setPc_sem : (σ.setPc t pc).sem = σ.sem := rfl
@[simp] theorem setPc_queues : (σ.setPc t pc).queues = σ.queues := rfl
@[simp] theorem setPc_hist : (σ.setPc t pc).hist = σ.hist := rfl
@[simp] theorem setPc_msg_bytes : (σ.setPc t pc).msg_bytes = σ.msg_bytes := rfl
@[simp] theorem setPc_msg_hdrs : (σ.setPc t pc).msg_hdrs = σ.msg_hdrs := rfl
@[simp] theorem setPc_nextMsg : (σ.setPc t pc).nextMsg = σ.nextMsg := rfl
@[simp] theorem setPc_oops : (σ.setPc t pc).oops = σ.oops := rfl

@[simp] theorem setPc_tasks :
    (σ.setPc t pc).tasks u = if u = t then { σ.tasks t with pc := pc } else σ.tasks u := by
  simp [setPc]

@[simp] theorem log_ids : (σ.log h).ids = σ.ids := rfl
@[simp] theorem log_sem : (σ.log h).sem = σ.sem := rfl
@[simp] theorem log_queues : (σ.log h).queues = σ.queues := rfl
@[simp] theorem log_tasks : (σ.log h).tasks = σ.tasks := rfl
@[simp] theorem log_hist : (σ.log h).hist = h σ.hist := rfl
@[simp] theorem log_msg_bytes : (σ.log h).msg_bytes = σ.msg_bytes := rfl
@[simp] theorem log_msg_hdrs : (σ.log h).msg_hdrs = σ.msg_hdrs := rfl
@[simp] theorem log_nextMsg : (σ.log h).nextMsg = σ.nextMsg := rfl
@[simp] theorem log_oops : (σ.log h).oops = σ.oops := rfl

@[simp] theorem ret_eq : σ.ret t r = σ.setPc t (.idle (some r)) := rfl

/-- Updates of one queue compose. -/
theorem modQ_modQ (f' : MsgQueue → MsgQueue) :
    (σ.modQ q f).modQ q f' = σ.modQ q fun msq => f' (f msq) := by
  simp only [modQ, Function.update_self, Function.update_idem, Option.map_map]
  rfl

/-- Updates of one task compose. -/
theorem modT_modT (g' : Task → Task) : (σ.modT t g).modT t g' = σ.modT t fun k => g' (g k) := by
  simp only [modT, Function.update_self, Function.update_idem]

end State

/-- An update that keeps a view of the queue keeps that view of all queues. -/
theorem State.modQ_view {β : Type} (v : MsgQueue → β) (σ : State) (q : QId)
    (f : MsgQueue → MsgQueue) (hf : ∀ msq, v (f msq) = v msq) (q' : QId) :
    ((σ.modQ q f).queues q').map v = (σ.queues q').map v := by
  rw [State.modQ_queues]
  split
  · rename_i h
    subst h
    cases σ.queues q' <;> simp [hf]
  · rfl

/-! ## Queues before and after

`QRel R σ σ'`: every queue allocated in `σ'` was allocated in `σ`, and the two
versions of it are related by `R`. -/

/-- See the section. -/
def State.QRel (R : MsgQueue → MsgQueue → Prop) (σ σ' : State) : Prop :=
  ∀ p msq', σ'.queues p = some msq' → ∃ msq, σ.queues p = some msq ∧ R msq msq'

theorem State.QRel.of_eq {R : MsgQueue → MsgQueue → Prop} (hR : ∀ m, R m m) {σ σ' : State}
    (h : σ'.queues = σ.queues) : State.QRel R σ σ' := by
  intro p msq' hp
  rw [h] at hp
  exact ⟨msq', hp, hR msq'⟩

/-- One queue is updated. -/
theorem State.QRel.modQ {R : MsgQueue → MsgQueue → Prop} (hR : ∀ m, R m m) {σ σ' : State}
    {q : QId} {f : MsgQueue → MsgQueue} (h : σ'.queues = (σ.modQ q f).queues)
    (hf : ∀ m, σ.queues q = some m → R m (f m)) : State.QRel R σ σ' := by
  intro p msq' hp
  rw [h, State.modQ_queues] at hp
  split at hp
  · rename_i he
    obtain ⟨msq, hm, rfl⟩ := Option.map_eq_some_iff.mp hp
    exact ⟨msq, by rw [he]; exact hm, hf msq hm⟩
  · exact ⟨msq', hp, hR msq'⟩

/-- One queue is freed. -/
theorem State.QRel.free {R : MsgQueue → MsgQueue → Prop} (hR : ∀ m, R m m) {σ σ' : State}
    {q : QId} (h : σ'.queues = Function.update σ.queues q none) : State.QRel R σ σ' := by
  intro p msq' hp
  rw [h] at hp
  by_cases he : p = q
  · rw [he, Function.update_self] at hp
    cases hp
  · rw [Function.update_of_ne he] at hp
    exact ⟨msq', hp, hR msq'⟩

/-! ## The loops over waiter lists -/

/-- A receiver told `r`. -/
def Task.notified (k : Task) (r : RMsg) : Task :=
  { k with msr_d := { k.msr_d with r_msg := r }, woken := true }

/-- `list_del(&msr->r_list); msr->r_msg = r; wake_up_process(msr->r_tsk)`. -/
theorem notify_r_list_del (σ : State) (q : QId) (t : Tid) (r : RMsg) :
    notify (r_list_del σ q t) t r = (σ.modT t (·.notified r)).modQ q
      fun msq => { msq with q_receivers := msq.q_receivers.erase t } := by
  unfold notify wake_up_process
  rw [State.modT_modT]
  rfl

/-- What `expunge_all` does: every receiver on the list is told the error. -/
theorem expunge_all_eq (res : Errno) (l : List Tid) (σ : State) :
    expunge_all res l σ = { σ with
      tasks := fun u => if u ∈ l then (σ.tasks u).notified (.err res) else σ.tasks u } := by
  induction l generalizing σ with
  | nil => simp [expunge_all]
  | cons t rest ih =>
      rw [expunge_all, ih]
      simp only [notify, wake_up_process, State.modT, State.mk.injEq, true_and, and_true]
      funext u
      by_cases hu : u = t
      · subst hu
        by_cases hr : u ∈ rest <;> simp [hr, Task.notified]
      · by_cases hr : u ∈ rest <;> simp [hr, hu]

/-- A sender woken by `ss_wakeup`. -/
def Task.roused (k : Task) (kill : Bool) : Task :=
  { k with mss_list := if kill then none else k.mss_list, woken := true }

/-- What `ss_wakeup` does: every sender on the list is woken. -/
theorem ss_wakeup_eq (kill : Bool) (l : List Tid) (σ : State) :
    ss_wakeup kill l σ = { σ with
      tasks := fun u => if u ∈ l then (σ.tasks u).roused kill else σ.tasks u } := by
  induction l generalizing σ with
  | nil => simp [ss_wakeup]
  | cons t rest ih =>
      rw [ss_wakeup, ih]
      cases kill <;>
        (simp only [wake_up_process, State.modT, State.mk.injEq, true_and, and_true, if_true,
          Bool.false_eq_true, if_false]
         funext u
         by_cases hu : u = t
         · subst hu
           by_cases hr : u ∈ rest <;> simp [hr, Task.roused]
         · by_cases hr : u ∈ rest <;> simp [hr, hu])

/-- `ss_del` unlinks the record of the task, or changes nothing but `oops`. -/
theorem ss_del_cases (σ : State) (t : Tid) :
    (∃ o, ss_del σ t = { σ with oops := o }) ∨
      ∃ q, ss_del σ t = (σ.modT t fun k => { k with mss_list := none }).modQ q
        fun msq => { msq with q_senders := msq.q_senders.erase t } := by
  unfold ss_del
  split
  · exact .inl ⟨_, rfl⟩
  · split
    · exact .inl ⟨_, rfl⟩
    · split
      · exact .inr ⟨_, rfl⟩
      · exact .inl ⟨_, rfl⟩

/-- A task after IPC_RMID of a queue it may have been linked on. -/
def Task.expelled (k : Task) (rcv snd : Prop) [Decidable rcv] [Decidable snd] : Task :=
  { k with
    msr_d := if rcv then { k.msr_d with r_msg := .err .EIDRM } else k.msr_d
    mss_list := if snd then none else k.mss_list
    woken := if rcv ∨ snd then true else k.woken }

/-- The two loops of `freeque` under the lock. -/
theorem expel_eq (receivers senders : List Tid) (σ : State) :
    ss_wakeup true senders (expunge_all .EIDRM receivers σ) = { σ with
      tasks := fun u => (σ.tasks u).expelled (u ∈ receivers) (u ∈ senders) } := by
  rw [ss_wakeup_eq, expunge_all_eq]
  simp only [State.mk.injEq, true_and, and_true]
  funext u
  by_cases hr : u ∈ receivers <;> by_cases hs : u ∈ senders <;>
    simp [hr, hs, Task.expelled, Task.roused, Task.notified]

end RtaiDemos.Sysvmsg
