import Mathlib.Data.List.Nodup
import RtaiDemos.Sysvmsg.Uniproc

/-!
# Exclusion without CONFIG_SMP

Two receivers can take one message, and a receiver can link itself past a
message that came after its scan (`uniproc_races`). Both need a task switch
at one of two places, and runs without such a switch keep all three promises
(`uniproc_exclusion`): the invariant is that a message is in one place, that a
scan stands on messages that are still on the queue, and that it has missed
none behind it.
-/

namespace RtaiDemos.Sysvmsg.Uniproc

variable {w : Nat}

/-! ## Frame -/

namespace State

variable (σ : State w) (t u : Tid) (g : Task → Task) (pc : Pc)

@[simp] theorem modT_tasks :
    (σ.modT t g).tasks u = if u = t then g (σ.tasks t) else σ.tasks u := by
  simp [modT, Function.update_apply]

@[simp] theorem setPc_tasks :
    (σ.setPc t pc).tasks u = if u = t then { σ.tasks t with pc := pc } else σ.tasks u := by
  simp [setPc]

theorem setPc_pc : ((σ.setPc t pc).tasks t).pc = pc := by
  rw [setPc_tasks, if_pos rfl]

theorem setPc_other (h : u ≠ t) : (σ.setPc t pc).tasks u = σ.tasks u := by
  rw [setPc_tasks, if_neg h]

end State

/-- Everything but the tasks and `q_receivers`. -/
def State.rest (σ : State w) :
    List Msg × Nat × Bool × List Msg × List (Tid × Msg) × List (Tid × Msg) :=
  (σ.q_messages, σ.nextMsg, σ.oops, σ.unlinked, σ.returned, σ.missed)

/-! ## Where a message is -/

/-- The message a sender has loaded and not sent. -/
def Pc.owned : Pc → Option Msg
  | .sndRetry _ m | .sndAdd _ m | .sndSleep _ m | .sndDel _ m | .sndDeliver _ m => some m
  | _ => none

/-- The message a receiver is about to return with. -/
def Task.held (k : Task) : Option Msg :=
  match k.pc with
  | .rcvQnum _ m | .rcvCbytes _ m | .rcvWake _ m | .rcvCopy _ m => some m
  | .rcvSleep _ | .rcvRead _ => k.msr_d.r_msg.toMsg
  | _ => none

/-- The places a message can be in. -/
inductive Place
  | owner (t : Tid)
  | queue
  | holder (t : Tid)
  | returned

/-- The message is in this place. -/
def State.At (σ : State w) (m : Msg) : Place → Prop
  | .owner t => (σ.tasks t).pc.owned = some m
  | .queue => m ∈ σ.q_messages
  | .holder t => (σ.tasks t).held = some m
  | .returned => m ∈ σ.returned.map Prod.snd

/-- Every message is in one place at most. -/
structure Placed (σ : State w) : Prop where
  unique : ∀ m p p', σ.At m p → σ.At m p' → p = p'
  fresh : ∀ m p, σ.At m p → m.mid < σ.nextMsg

/-- Messages stay where they are, or are dropped. -/
theorem Placed.shrink {σ σ' : State w} (h : Placed σ) (hn : σ.nextMsg ≤ σ'.nextMsg)
    (hat : ∀ m p, σ'.At m p → σ.At m p) : Placed σ' := by
  refine ⟨?_, ?_⟩
  · intro m p p' hp hp'
    exact h.unique m p p' (hat m p hp) (hat m p' hp')
  · intro m p hp
    exact Nat.lt_of_lt_of_le (h.fresh m p (hat m p hp)) hn

/-- What is in another place than `m` is another message. -/
theorem State.stays {σ : State w} {m : Msg} {p₀ : Place} (hm : ∀ p, σ.At m p → p = p₀)
    (p₁ : Place) (x : Msg) (p : Place) (hne : p ≠ p₀) (hp : σ.At x p) :
    (x ≠ m ∧ σ.At x p) ∨ (x = m ∧ p = p₁) := by
  refine .inl ⟨?_, hp⟩
  intro he
  rw [he] at hp
  exact hne (hm p hp)

/-- One message moves to another place; others stay or are dropped. -/
theorem Placed.moved {σ σ' : State w} (h : Placed σ) (m₀ : Msg) (p₁ : Place)
    (hn : σ.nextMsg ≤ σ'.nextMsg) (hlt : m₀.mid < σ'.nextMsg)
    (hat : ∀ m p, σ'.At m p → (m ≠ m₀ ∧ σ.At m p) ∨ (m = m₀ ∧ p = p₁)) : Placed σ' := by
  refine ⟨?_, ?_⟩
  · intro m p p' hp hp'
    rcases hat m p hp with ⟨hne, hold⟩ | ⟨he, hp₁⟩
    · rcases hat m p' hp' with ⟨_, hold'⟩ | ⟨he, _⟩
      · exact h.unique m p p' hold hold'
      · exact absurd he hne
    · rcases hat m p' hp' with ⟨hne, _⟩ | ⟨_, hp₁'⟩
      · exact absurd he hne
      · rw [hp₁, hp₁']
  · intro m p hp
    rcases hat m p hp with ⟨_, hold⟩ | ⟨he, _⟩
    · exact Nat.lt_of_lt_of_le (h.fresh m p hold) hn
    · rw [he]
      exact hlt

/-! ## What a scan has seen -/

/-- The task's next list operation, or the rest of its scan, uses the node of
this message. -/
def Pc.standsOn (m : Msg) : Pc → Prop
  | .rcvScan _ _ found_msg tmp => tmp = m ∨ found_msg = some m
  | .rcvDel _ msg => msg = m
  | _ => False

/-- What a receiver knows of the messages on the queue: those it stands on are
there, a scan without a hit has left nothing behind that matches, and neither
has a receiver about to link itself. -/
structure ScanOk (msgs : List Msg) (pc : Pc) : Prop where
  stands : ∀ m, pc.standsOn m → m ∈ msgs
  seen : ∀ a msgtyp tmp, pc = .rcvScan a msgtyp none tmp →
    ∃ pre post, msgs = pre ++ tmp :: post ∧ ∀ x ∈ pre, testmsg x msgtyp a.mode = false
  link : ∀ a, pc = .rcvLink a → ∀ x ∈ msgs, testmsg x a.msgtyp a.mode = false

/-- A statement that is not part of a scan. -/
def Pc.unconcerned : Pc → Bool
  | .rcvScan _ _ _ _ | .rcvDel _ _ | .rcvLink _ => false
  | _ => true

theorem ScanOk.of_unconcerned {msgs : List Msg} {pc : Pc} (h : pc.unconcerned = true) :
    ScanOk msgs pc := by
  refine ⟨?_, ?_, ?_⟩
  · intro m hm
    cases pc <;> first | exact False.elim hm | (exact absurd h (by simp [Pc.unconcerned]))
  · intro a msgtyp tmp he
    rw [he] at h
    cases h
  · intro a he
    rw [he] at h
    cases h

/-- After the scan: `found` is on the queue, or nothing matches. -/
theorem ScanOk.done {msgs : List Msg} (a : RcvArgs) (msgtyp : Int) {found : Option Msg}
    (hsome : ∀ m, found = some m → m ∈ msgs)
    (hnone : found = none → ∀ x ∈ msgs, testmsg x msgtyp a.mode = false) :
    ScanOk msgs (scanDone a msgtyp found) := by
  cases found with
  | some m =>
      simp only [scanDone]
      split
      · exact .of_unconcerned rfl
      · refine ⟨?_, ?_, ?_⟩
        · intro m' hm'
          have he : m = m' := hm'
          rw [← he]
          exact hsome m rfl
        · intro _ _ _ he
          cases he
        · intro _ he
          cases he
  | none =>
      simp only [scanDone]
      split
      · exact .of_unconcerned rfl
      · refine ⟨?_, ?_, ?_⟩
        · intro m' hm'
          cases hm'
        · intro _ _ _ he
          cases he
        · intro b he
          cases he
          exact hnone rfl

/-- The loop test, with what is behind it in `pre` and `tmp` at the rest. -/
theorem ScanOk.at {msgs pre post : List Msg} (a : RcvArgs) (msgtyp : Int) {found : Option Msg}
    (hmsgs : msgs = pre ++ post) (hsome : ∀ m, found = some m → m ∈ msgs)
    (hnone : found = none → ∀ x ∈ pre, testmsg x msgtyp a.mode = false) :
    ScanOk msgs (scanAt a msgtyp found post.head?) := by
  cases post with
  | nil =>
      refine ScanOk.done a msgtyp hsome ?_
      rw [hmsgs, List.append_nil]
      exact hnone
  | cons tmp post =>
      refine ⟨?_, ?_, ?_⟩
      · intro m hm
        rcases hm with hm | hm
        · rw [hmsgs, ← hm]
          simp
        · exact hsome m hm
      · intro b msgtyp' tmp' he
        cases he
        exact ⟨pre, post, hmsgs, hnone rfl⟩
      · intro b he
        cases he

/-- `tmp->next` of a message on the queue. -/
theorem nextOf_eq {msgs : List Msg} {m : Msg} (h : msgs.Nodup) {pre post : List Msg}
    (hmsgs : msgs = pre ++ m :: post) : nextOf m msgs = some post.head? := by
  induction pre generalizing msgs with
  | nil =>
      rw [hmsgs]
      simp [nextOf]
  | cons x pre ih =>
      rw [hmsgs, List.cons_append] at h ⊢
      obtain ⟨hx, hrest⟩ := List.nodup_cons.mp h
      have hne : x ≠ m := by
        intro he
        apply hx
        rw [he]
        simp
      rw [nextOf, if_neg hne]
      exact ih hrest rfl

/-- Another message is taken off the queue. -/
theorem ScanOk.erase {msgs : List Msg} {pc : Pc} (h : ScanOk msgs pc) (hnd : msgs.Nodup) {m : Msg}
    (hm : ¬ pc.standsOn m) : ScanOk (msgs.erase m) pc := by
  refine ⟨?_, ?_, ?_⟩
  · intro x hx
    rw [hnd.mem_erase_iff]
    refine ⟨?_, h.stands x hx⟩
    intro he
    rw [he] at hx
    exact hm hx
  · intro a msgtyp tmp he
    obtain ⟨pre, post, hmsgs, hpre⟩ := h.seen a msgtyp tmp he
    have hne : tmp ≠ m := by
      intro htm
      apply hm
      rw [he]
      exact .inl htm
    by_cases hmem : m ∈ pre
    · refine ⟨pre.erase m, post, ?_, fun x hx => hpre x (List.mem_of_mem_erase hx)⟩
      rw [hmsgs, List.erase_append_left _ hmem]
    · refine ⟨pre, post.erase m, ?_, hpre⟩
      rw [hmsgs, List.erase_append_right _ hmem, List.erase_cons_tail (by simpa using hne)]
  · intro a he x hx
    exact h.link a he x (List.mem_of_mem_erase hx)

/-- A message is added at the end. -/
theorem ScanOk.append {msgs : List Msg} {pc : Pc} (h : ScanOk msgs pc) {m : Msg}
    (hm : ∀ a, pc = .rcvLink a → testmsg m a.msgtyp a.mode = false) : ScanOk (msgs ++ [m]) pc := by
  refine ⟨?_, ?_, ?_⟩
  · intro x hx
    exact List.mem_append_left _ (h.stands x hx)
  · intro a msgtyp tmp he
    obtain ⟨pre, post, hmsgs, hpre⟩ := h.seen a msgtyp tmp he
    exact ⟨pre, post ++ [m], by rw [hmsgs]; simp, hpre⟩
  · intro a he x hx
    rcases List.mem_append.mp hx with hx | hx
    · exact h.link a he x hx
    · rw [List.mem_singleton.mp hx]
      exact hm a he

/-! ## The invariant -/

/-- See the module header. -/
structure Inv (σ : State w) : Prop where
  placed : Placed σ
  queue : σ.q_messages.Nodup
  returned : (σ.returned.map Prod.snd).Nodup
  unlinked : σ.unlinked.Nodup
  gone : ∀ m ∈ σ.unlinked, m.mid < σ.nextMsg ∧ m ∉ σ.q_messages ∧
    ∀ t, (σ.tasks t).pc.owned ≠ some m
  scan : ∀ t, ScanOk σ.q_messages (σ.tasks t).pc
  missed : σ.missed = []
  oops : σ.oops = false

/-- What other tasks keep when a task moves. -/
structure Task.Keeps (k k' : Task) : Prop where
  pc : k'.pc = k.pc
  held : k'.held = none ∨ k'.held = k.held

theorem Task.Keeps.refl (k : Task) : k.Keeps k := ⟨rfl, .inr rfl⟩

theorem Task.Keeps.of_eq {k k' : Task} (h : k' = k) : k.Keeps k' := by
  rw [h]
  exact .refl k

/-- A step that leaves the queue alone and moves one task. -/
theorem Inv.move {σ σ' : State w} (h : Inv σ) (t : Tid) (hrest : σ'.rest = σ.rest)
    (hother : ∀ u, u ≠ t → (σ.tasks u).Keeps (σ'.tasks u))
    (howned : (σ'.tasks t).pc.owned = none ∨ (σ'.tasks t).pc.owned = (σ.tasks t).pc.owned)
    (hheld : (σ'.tasks t).held = none ∨ (σ'.tasks t).held = (σ.tasks t).held)
    (hscan : ScanOk σ.q_messages (σ'.tasks t).pc) : Inv σ' := by
  simp only [State.rest, Prod.mk.injEq] at hrest
  obtain ⟨hq, hn, ho, hu, hr, hm⟩ := hrest
  have hown : ∀ u m, (σ'.tasks u).pc.owned = some m → (σ.tasks u).pc.owned = some m := by
    intro u m hm
    by_cases hut : u = t
    · subst hut
      rcases howned with h' | h'
      · rw [h'] at hm
        cases hm
      · rw [← h']
        exact hm
    · rw [← (hother u hut).pc]
      exact hm
  have hhold : ∀ u m, (σ'.tasks u).held = some m → (σ.tasks u).held = some m := by
    intro u m hm
    have hcases : (σ'.tasks u).held = none ∨ (σ'.tasks u).held = (σ.tasks u).held := by
      by_cases hut : u = t
      · subst hut
        exact hheld
      · exact (hother u hut).held
    rcases hcases with h' | h'
    · rw [h'] at hm
      cases hm
    · rw [← h']
      exact hm
  refine ⟨?_, by rw [hq]; exact h.queue, by rw [hr]; exact h.returned, by rw [hu]; exact h.unlinked,
    ?_, ?_, by rw [hm]; exact h.missed, by rw [ho]; exact h.oops⟩
  · refine h.placed.shrink (Nat.le_of_eq hn.symm) ?_
    intro m p hp
    cases p with
    | owner u => exact hown u m hp
    | queue =>
        unfold State.At at hp ⊢
        rw [hq] at hp
        exact hp
    | holder u => exact hhold u m hp
    | returned =>
        unfold State.At at hp ⊢
        rw [hr] at hp
        exact hp
  · intro m hmem
    rw [hu] at hmem
    obtain ⟨hlt, hnq, hno⟩ := h.gone m hmem
    refine ⟨by rw [hn]; exact hlt, by rw [hq]; exact hnq, ?_⟩
    intro u hm
    exact hno u (hown u m hm)
  · intro u
    rw [hq]
    by_cases hut : u = t
    · subst hut
      exact hscan
    · rw [(hother u hut).pc]
      exact h.scan u

/-- A step of one task alone to a statement outside a scan. -/
theorem Inv.modT {σ τ : State w} (h : Inv σ) (t : Tid) (f : Task → Task) (hrest : τ.rest = σ.rest)
    (htasks : τ.tasks = σ.tasks)
    (howned : (f (σ.tasks t)).pc.owned = none ∨ (f (σ.tasks t)).pc.owned = (σ.tasks t).pc.owned)
    (hheld : (f (σ.tasks t)).held = none ∨ (f (σ.tasks t)).held = (σ.tasks t).held)
    (hun : (f (σ.tasks t)).pc.unconcerned = true) : Inv (τ.modT t f) := by
  have hself : (τ.modT t f).tasks t = f (σ.tasks t) := by
    rw [State.modT_tasks, if_pos rfl, htasks]
  refine h.move t hrest ?_ ?_ ?_ ?_
  · intro u hu
    apply Task.Keeps.of_eq
    rw [State.modT_tasks, if_neg hu, htasks]
  · rw [hself]
    exact howned
  · rw [hself]
    exact hheld
  · rw [hself]
    exact .of_unconcerned hun

theorem Inv.ret {σ : State w} (h : Inv σ) (t : Tid) (r : Ret) : Inv (σ.ret t r) := by
  unfold State.ret State.setPc
  exact h.modT t _ rfl rfl (.inl rfl) (.inl rfl) rfl

/-! ## The steps that move a message -/

/-- A wake-up moves no task and gives it nothing. -/
theorem wake_up_tasks (σ : State w) (t v : Tid) :
    ((wake_up_process σ t).tasks v).pc = (σ.tasks v).pc ∧
      ((wake_up_process σ t).tasks v).held = (σ.tasks v).held := by
  unfold wake_up_process
  rw [State.modT_tasks]
  split
  · rename_i h
    rw [h]
    exact ⟨rfl, rfl⟩
  · exact ⟨rfl, rfl⟩

theorem notify_tasks (σ : State w) (u : Tid) (r : RMsg) (v : Tid) :
    ((notify σ u r).tasks v).pc = (σ.tasks v).pc ∧
      ((notify σ u r).tasks v).held =
        if v = u then ({ σ.tasks u with msr_d := { (σ.tasks u).msr_d with r_msg := r } } : Task).held
        else (σ.tasks v).held := by
  unfold notify
  obtain ⟨hpc, hheld⟩ := wake_up_tasks (σ.modT u fun k =>
    { k with msr_d := { k.msr_d with r_msg := r } }) ((σ.modT u fun k =>
    { k with msr_d := { k.msr_d with r_msg := r } }).tasks u).msr_d.r_tsk v
  simp only [hpc, hheld]
  rw [State.modT_tasks]
  split
  · rename_i h
    rw [h]
    exact ⟨rfl, rfl⟩
  · exact ⟨rfl, rfl⟩

/-- A record told `r`: the task holds what it held, or what it was told. -/
theorem Task.held_told (k : Task) (r : RMsg) :
    ({ k with msr_d := { k.msr_d with r_msg := r } } : Task).held = k.held ∨
      ({ k with msr_d := { k.msr_d with r_msg := r } } : Task).held = r.toMsg := by
  unfold Task.held
  cases k.pc <;> first | exact .inl rfl | exact .inr rfl

/-- What `pipelined_send` does to the tasks: none moves, and one at most gets
the message, if it was sent. -/
theorem pipelined_send_spec (msg : Msg) (l : List Tid) :
    ∀ σ : State w, (pipelined_send msg l σ).1.rest = σ.rest ∧ ∃ u₀, ∀ v,
      ((pipelined_send msg l σ).1.tasks v).pc = (σ.tasks v).pc ∧
      ((((pipelined_send msg l σ).1.tasks v).held = none ∨
          ((pipelined_send msg l σ).1.tasks v).held = (σ.tasks v).held) ∨
        ((pipelined_send msg l σ).2 = true ∧ v = u₀ ∧
          ((pipelined_send msg l σ).1.tasks v).held = some msg)) := by
  induction l with
  | nil => exact fun σ => ⟨rfl, 0, fun v => ⟨rfl, .inl (.inr rfl)⟩⟩
  | cons u rest ih =>
      intro σ
      simp only [pipelined_send]
      split
      · split
        · obtain ⟨hrest, u₀, hu₀⟩ :=
            ih (notify { σ with q_receivers := σ.q_receivers.erase u } u (.err .E2BIG))
          refine ⟨hrest, u₀, ?_⟩
          intro v
          obtain ⟨hpc, hheld⟩ := hu₀ v
          obtain ⟨hpc', hheld'⟩ :=
            notify_tasks { σ with q_receivers := σ.q_receivers.erase u } u (.err .E2BIG) v
          refine ⟨hpc.trans hpc', ?_⟩
          rcases hheld with (hnone | hsame) | hgot
          · exact .inl (.inl hnone)
          · refine .inl ?_
            rw [hsame, hheld']
            split
            · rename_i hv
              subst hv
              rcases Task.held_told (σ.tasks v) (.err .E2BIG) with h | h
              · exact .inr h
              · exact .inl h
            · exact .inr rfl
          · exact .inr hgot
        · refine ⟨rfl, u, ?_⟩
          intro v
          obtain ⟨hpc', hheld'⟩ :=
            notify_tasks { σ with q_receivers := σ.q_receivers.erase u } u (.msg msg) v
          refine ⟨hpc', ?_⟩
          rw [hheld']
          split
          · rename_i hv
            subst hv
            rcases Task.held_told (σ.tasks v) (.msg msg) with h | h
            · exact .inl (.inr h)
            · exact .inr ⟨rfl, rfl, h⟩
          · exact .inl (.inr rfl)
      · exact ih σ

/-- The stretch of `_rt_msgsnd` between `rt_sched_lock` and `rt_sched_unlock`. -/
theorem Inv.deliver {σ : State w} (h : Inv σ) {t : Tid} {a : SndArgs} {m : Msg} {r : Ret}
    (hpc : (σ.tasks t).pc = .sndDeliver a m)
    (hclear : (pipelined_send m σ.q_receivers σ).2 = false →
      ∀ u b, (σ.tasks u).pc = .rcvLink b → testmsg m b.msgtyp b.mode = false) :
    Inv ((deliver σ m).ret t r) := by
  obtain ⟨hrest, u₀, hspec⟩ := pipelined_send_spec m σ.q_receivers σ
  have hat : σ.At m (.owner t) := by
    show (σ.tasks t).pc.owned = some m
    rw [hpc]
    rfl
  have hlt := h.placed.fresh m _ hat
  have hother : ∀ p, σ.At m p → p = .owner t := fun p hp => h.placed.unique m p _ hp hat
  have hnq : m ∉ σ.q_messages := fun hq => by cases hother .queue hq
  have hgone : ∀ x ∈ σ.unlinked, x ≠ m := by
    intro x hx he
    exact (h.gone x hx).2.2 t (by rw [hpc, he]; rfl)
  unfold Uniproc.deliver
  revert hrest hspec hclear
  generalize pipelined_send m σ.q_receivers σ = res
  obtain ⟨σ₁, sent⟩ := res
  intro hclear hrest hspec
  simp only [State.rest, Prod.mk.injEq] at hrest
  obtain ⟨hq, hn, ho, hu, hr, hm⟩ := hrest
  -- who owns or holds what, once the sender has returned
  have hown : ∀ (τ : State w) u x, τ.tasks = σ₁.tasks →
      ((τ.ret t r).tasks u).pc.owned = some x → u ≠ t ∧ (σ.tasks u).pc.owned = some x := by
    intro τ u x hτ hx
    unfold State.ret at hx
    by_cases hut : u = t
    · subst hut
      rw [State.setPc_pc] at hx
      cases hx
    · rw [State.setPc_other _ _ _ _ hut, hτ, (hspec u).1] at hx
      exact ⟨hut, hx⟩
  have hheld : ∀ (τ : State w) u x, τ.tasks = σ₁.tasks → ((τ.ret t r).tasks u).held = some x →
      (σ.tasks u).held = some x ∨ (sent = true ∧ u = u₀ ∧ x = m) := by
    intro τ u x hτ hx
    unfold State.ret at hx
    by_cases hut : u = t
    · subst hut
      rw [State.setPc_tasks, if_pos rfl] at hx
      cases hx
    · rw [State.setPc_other _ _ _ _ hut, hτ] at hx
      rcases (hspec u).2 with (hnone | hsame) | ⟨hs, hu₀, hgot⟩
      · rw [hnone] at hx
        cases hx
      · rw [hsame] at hx
        exact .inl hx
      · rw [hgot] at hx
        exact .inr ⟨hs, hu₀, (Option.some.inj hx).symm⟩
  have hpcs : ∀ (τ : State w) u, τ.tasks = σ₁.tasks →
      ((τ.ret t r).tasks u).pc = if u = t then .idle (some r) else (σ.tasks u).pc := by
    intro τ u hτ
    unfold State.ret
    split
    · rename_i hut
      rw [hut, State.setPc_pc]
    · rename_i hut
      rw [State.setPc_other _ _ _ _ hut, hτ, (hspec u).1]
  cases sent with
  | true =>
      simp only [if_true]
      refine ⟨?_, ?_, ?_, ?_, ?_, ?_, ?_, ?_⟩
      · refine h.placed.moved m (.holder u₀) (Nat.le_of_eq hn.symm)
          (by show m.mid < σ₁.nextMsg; rw [hn]; exact hlt) ?_
        intro x p hp
        have hstay := State.stays hother (.holder u₀) x
        cases p with
        | owner u =>
            obtain ⟨hut, hx⟩ := hown σ₁ u x rfl hp
            exact hstay (.owner u) (by simpa using hut) hx
        | queue => exact hstay .queue (by simp) (by show x ∈ σ.q_messages; rw [← hq]; exact hp)
        | holder u =>
            rcases hheld σ₁ u x rfl hp with hx | ⟨_, hu₀, hx⟩
            · exact hstay (.holder u) (by simp) hx
            · exact .inr ⟨hx, by rw [hu₀]⟩
        | returned =>
            refine hstay .returned (by simp) ?_
            show x ∈ σ.returned.map Prod.snd
            rw [← hr]
            exact hp
      · show σ₁.q_messages.Nodup
        rw [hq]
        exact h.queue
      · show (σ₁.returned.map Prod.snd).Nodup
        rw [hr]
        exact h.returned
      · show σ₁.unlinked.Nodup
        rw [hu]
        exact h.unlinked
      · intro x hx
        have hx : x ∈ σ.unlinked := by rw [← hu]; exact hx
        obtain ⟨hlt', hnq', hno'⟩ := h.gone x hx
        refine ⟨by show x.mid < σ₁.nextMsg; rw [hn]; exact hlt',
          by show x ∉ σ₁.q_messages; rw [hq]; exact hnq', ?_⟩
        intro u hu'
        exact hno' u (hown σ₁ u x rfl hu').2
      · intro u
        show ScanOk σ₁.q_messages _
        rw [hq, hpcs σ₁ u rfl]
        split
        · exact .of_unconcerned rfl
        · exact h.scan u
      · show σ₁.missed = []
        rw [hm]
        exact h.missed
      · show σ₁.oops = false
        rw [ho]
        exact h.oops
  | false =>
      simp only [Bool.false_eq_true, if_false]
      have hτ : ∀ x : List Msg × BitVec w × BitVec w,
          ({ σ₁ with q_messages := x.1, q_cbytes := x.2.1, q_qnum := x.2.2 } : State w).tasks =
            σ₁.tasks := fun _ => rfl
      refine ⟨?_, ?_, ?_, ?_, ?_, ?_, ?_, ?_⟩
      · refine h.placed.moved m .queue (Nat.le_of_eq hn.symm)
          (by show m.mid < σ₁.nextMsg; rw [hn]; exact hlt) ?_
        intro x p hp
        have hstay := State.stays hother .queue x
        cases p with
        | owner u =>
            obtain ⟨hut, hx⟩ := hown _ u x (hτ (_, _, _)) hp
            exact hstay (.owner u) (by simpa using hut) hx
        | queue =>
            have hp : x ∈ σ₁.q_messages ++ [m] := hp
            rcases List.mem_append.mp hp with hx | hx
            · exact hstay .queue (by simp) (by show x ∈ σ.q_messages; rw [← hq]; exact hx)
            · exact .inr ⟨List.mem_singleton.mp hx, rfl⟩
        | holder u =>
            rcases hheld _ u x (hτ (_, _, _)) hp with hx | ⟨hs, _⟩
            · exact hstay (.holder u) (by simp) hx
            · cases hs
        | returned =>
            refine hstay .returned (by simp) ?_
            show x ∈ σ.returned.map Prod.snd
            rw [← hr]
            exact hp
      · show (σ₁.q_messages ++ [m]).Nodup
        rw [hq]
        simpa using List.Nodup.concat hnq h.queue
      · show (σ₁.returned.map Prod.snd).Nodup
        rw [hr]
        exact h.returned
      · show σ₁.unlinked.Nodup
        rw [hu]
        exact h.unlinked
      · intro x hx
        have hx : x ∈ σ.unlinked := by rw [← hu]; exact hx
        obtain ⟨hlt', hnq', hno'⟩ := h.gone x hx
        refine ⟨by show x.mid < σ₁.nextMsg; rw [hn]; exact hlt', ?_, ?_⟩
        · show x ∉ σ₁.q_messages ++ [m]
          rw [hq, List.mem_append, List.mem_singleton]
          rintro (hxq | hxm)
          · exact hnq' hxq
          · exact hgone x hx hxm
        · intro u hu'
          exact hno' u (hown _ u x (hτ (_, _, _)) hu').2
      · intro u
        show ScanOk (σ₁.q_messages ++ [m]) _
        rw [hq, hpcs _ u (hτ (_, _, _))]
        split
        · exact .of_unconcerned rfl
        · refine (h.scan u).append ?_
          intro b hb
          exact hclear rfl u b hb
      · show σ₁.missed = []
        rw [hm]
        exact h.missed
      · show σ₁.oops = false
        rw [ho]
        exact h.oops

/-- `list_del(&msg->m_list)` on a message that is on the queue, when no other
task stands on it. -/
theorem Inv.unlink {σ : State w} (h : Inv σ) {t : Tid} {a : RcvArgs} {m : Msg}
    (hpc : (σ.tasks t).pc = .rcvDel a m)
    (hclear : ∀ u, u ≠ t → ¬ (σ.tasks u).pc.standsOn m) :
    Inv ({ σ with
      q_messages := σ.q_messages.erase m
      unlinked := σ.unlinked ++ [m] }.setPc t (.rcvQnum a m)) := by
  have hq : m ∈ σ.q_messages := by
    apply (h.scan t).stands
    rw [hpc]
    rfl
  have hat : σ.At m .queue := hq
  have hlt := h.placed.fresh m _ hat
  have hother : ∀ p, σ.At m p → p = .queue := fun p hp => h.placed.unique m p _ hp hat
  have hout : m ∉ σ.unlinked := fun hm => (h.gone m hm).2.1 hq
  have hown : ∀ u x, ((({ σ with
      q_messages := σ.q_messages.erase m
      unlinked := σ.unlinked ++ [m] } : State w).setPc t (.rcvQnum a m)).tasks u).pc.owned = some x →
      (σ.tasks u).pc.owned = some x := by
    intro u x hx
    by_cases hut : u = t
    · subst hut
      rw [State.setPc_pc] at hx
      cases hx
    · rw [State.setPc_other _ _ _ _ hut] at hx
      exact hx
  refine ⟨?_, h.queue.erase m, h.returned, ?_, ?_, ?_, h.missed, h.oops⟩
  · refine h.placed.moved m (.holder t) (Nat.le_refl _) hlt ?_
    intro x p hp
    have hstay := State.stays hother (.holder t) x
    cases p with
    | owner u => exact hstay (.owner u) (by simp) (hown u x hp)
    | queue =>
        have hp : x ∈ σ.q_messages.erase m := hp
        rw [h.queue.mem_erase_iff] at hp
        exact .inl hp
    | holder u =>
        by_cases hut : u = t
        · subst hut
          have hp : some m = some x := by
            unfold State.At at hp
            simpa [Task.held] using hp
          exact .inr ⟨(Option.some.inj hp).symm, rfl⟩
        · refine hstay (.holder u) (by simp) ?_
          unfold State.At at hp ⊢
          simp only [State.setPc_other _ _ _ _ hut] at hp
          exact hp
    | returned => exact hstay .returned (by simp) hp
  · show (σ.unlinked ++ [m]).Nodup
    simpa using List.Nodup.concat hout h.unlinked
  · intro x hx
    rcases List.mem_append.mp hx with hx | hx
    · obtain ⟨hlt', hnq', hno'⟩ := h.gone x hx
      exact ⟨hlt', fun hm => hnq' (List.mem_of_mem_erase hm), fun u hu => hno' u (hown u x hu)⟩
    · rw [List.mem_singleton.mp hx]
      refine ⟨hlt, fun hm => (h.queue.mem_erase_iff.mp hm).1 rfl, ?_⟩
      intro u hu
      cases hother (.owner u) (hown u m hu)
  · intro u
    by_cases hut : u = t
    · subst hut
      rw [State.setPc_pc]
      exact .of_unconcerned rfl
    · rw [State.setPc_other _ _ _ _ hut]
      exact (h.scan u).erase h.queue (hclear u hut)

/-- `out_success`. -/
theorem Inv.copyOut {σ : State w} (h : Inv σ) {t : Tid} {a : RcvArgs} {m : Msg} (e : Env)
    (hpc : (σ.tasks t).pc = .rcvCopy a m) : Inv (copyOut σ t e a m) := by
  have hat : σ.At m (.holder t) := by
    show (σ.tasks t).held = some m
    unfold Task.held
    rw [hpc]
  have hlt := h.placed.fresh m _ hat
  have hother : ∀ p, σ.At m p → p = .holder t := fun p hp => h.placed.unique m p _ hp hat
  have hout : m ∉ σ.returned.map Prod.snd := fun hm => by cases hother .returned hm
  unfold Uniproc.copyOut
  simp only
  generalize (if (a.space && !e.copy) = true then (Ret.err Errno.EFAULT) else
    Ret.rcv (if a.msgsz > m.m_ts then m.m_ts else a.msgsz) m.m_type
      (List.take (if a.msgsz > m.m_ts then m.m_ts else a.msgsz) m.m_text)) = r
  unfold State.ret
  refine ⟨?_, h.queue, ?_, h.unlinked, ?_, ?_, h.missed, h.oops⟩
  · refine h.placed.moved m .returned (Nat.le_refl _) hlt ?_
    intro x p hp
    have hstay := State.stays hother .returned x
    cases p with
    | owner u =>
        refine hstay (.owner u) (by simp) ?_
        unfold State.At at hp ⊢
        by_cases hut : u = t
        · subst hut
          simp only [State.setPc_pc] at hp
          cases hp
        · simp only [State.setPc_other _ _ _ _ hut] at hp
          exact hp
    | queue => exact hstay .queue (by simp) hp
    | holder u =>
        by_cases hut : u = t
        · subst hut
          unfold State.At at hp
          simp [Task.held] at hp
        · refine hstay (.holder u) (by simpa using hut) ?_
          unfold State.At at hp ⊢
          simp only [State.setPc_other _ _ _ _ hut] at hp
          exact hp
    | returned =>
        have hp : x ∈ (σ.returned ++ [(t, m)]).map Prod.snd := hp
        rw [List.map_append, List.mem_append] at hp
        rcases hp with hp | hp
        · exact hstay .returned (by simp) hp
        · exact .inr ⟨by simpa using hp, rfl⟩
  · show ((σ.returned ++ [(t, m)]).map Prod.snd).Nodup
    rw [List.map_append]
    simpa using List.Nodup.concat hout h.returned
  · intro x hx
    obtain ⟨hlt', hnq', hno'⟩ := h.gone x hx
    refine ⟨hlt', hnq', ?_⟩
    intro u hu
    by_cases hut : u = t
    · subst hut
      rw [State.setPc_pc] at hu
      cases hu
    · rw [State.setPc_other _ _ _ _ hut] at hu
      exact hno' u hu
  · intro u
    by_cases hut : u = t
    · subst hut
      rw [State.setPc_pc]
      exact .of_unconcerned rfl
    · rw [State.setPc_other _ _ _ _ hut]
      exact h.scan u

/-- `load_msg`. -/
theorem Inv.load {σ : State w} (h : Inv σ) (t : Tid) (a : SndArgs) {m : Msg}
    (hm : m.mid = σ.nextMsg) :
    Inv ({ σ with nextMsg := σ.nextMsg + 1 }.setPc t (.sndRetry a m)) := by
  have hnew : ∀ p, ¬ σ.At m p := by
    intro p hp
    have := h.placed.fresh m p hp
    omega
  refine ⟨?_, h.queue, h.returned, h.unlinked, ?_, ?_, h.missed, h.oops⟩
  · refine h.placed.moved m (.owner t) (Nat.le_succ _)
      (by show m.mid < σ.nextMsg + 1; omega) ?_
    intro x p hp
    have hstay : ∀ p, σ.At x p → (x ≠ m ∧ σ.At x p) ∨ (x = m ∧ p = .owner t) := by
      intro p hp
      refine .inl ⟨?_, hp⟩
      intro he
      rw [he] at hp
      exact hnew p hp
    cases p with
    | owner u =>
        by_cases hut : u = t
        · subst hut
          have hp : some m = some x := by
            unfold State.At at hp
            simpa [Pc.owned] using hp
          exact .inr ⟨(Option.some.inj hp).symm, rfl⟩
        · refine hstay (.owner u) ?_
          unfold State.At at hp ⊢
          simp only [State.setPc_other _ _ _ _ hut] at hp
          exact hp
    | queue => exact hstay .queue hp
    | holder u =>
        by_cases hut : u = t
        · subst hut
          unfold State.At at hp
          simp [Task.held] at hp
        · refine hstay (.holder u) ?_
          unfold State.At at hp ⊢
          simp only [State.setPc_other _ _ _ _ hut] at hp
          exact hp
    | returned => exact hstay .returned hp
  · intro x hx
    obtain ⟨hlt', hnq', hno'⟩ := h.gone x hx
    refine ⟨Nat.lt_succ_of_lt hlt', hnq', ?_⟩
    intro u hu
    by_cases hut : u = t
    · subst hut
      rw [State.setPc_pc] at hu
      cases hu
      omega
    · rw [State.setPc_other _ _ _ _ hut] at hu
      exact hno' u hu
  · intro u
    by_cases hut : u = t
    · subst hut
      rw [State.setPc_pc]
      exact .of_unconcerned rfl
    · rw [State.setPc_other _ _ _ _ hut]
      exact h.scan u

/-! ## Task switches that do no harm -/

/-- The record of `u` asks for this message and has room for it. -/
def State.takes (σ : State w) (u : Tid) (msg : Msg) : Bool :=
  testmsg msg (σ.tasks u).msr_d.r_msgtype (σ.tasks u).msr_d.r_mode &&
    decide (msg.m_ts ≤ (σ.tasks u).msr_d.r_maxsize)

/-- The two places where a task switch does harm: a message is not taken off
the queue while another receiver stands on it (its scan is at it, or has
chosen it), and is not put on the queue while a receiver it matches has ended
its scan and not yet linked itself. -/
def Clear (σ : State w) : Label → Prop
  | .exec t _ =>
    match (σ.tasks t).pc with
    | .rcvDel _ msg => ∀ u, u ≠ t → ¬ (σ.tasks u).pc.standsOn msg
    | .sndDeliver _ msg => (∀ u ∈ σ.q_receivers, σ.takes u msg = false) →
        ∀ u b, (σ.tasks u).pc = .rcvLink b → testmsg msg b.msgtyp b.mode = false
    | _ => True
  | _ => True

theorem notify_takes (σ : State w) (u : Tid) (r : RMsg) (v : Tid) (msg : Msg) :
    (notify σ u r).takes v msg = σ.takes v msg := by
  have hwake : ∀ (τ : State w) (s : Tid), (wake_up_process τ s).takes v msg = τ.takes v msg := by
    intro τ s
    unfold State.takes wake_up_process
    rw [State.modT_tasks]
    split
    · rename_i h
      rw [h]
    · rfl
  unfold notify
  simp only [hwake]
  unfold State.takes
  rw [State.modT_tasks]
  split
  · rename_i h
    rw [h]
  · rfl

/-- A message that was not handed over is taken by no record on the list. -/
theorem pipelined_send_false (msg : Msg) (l : List Tid) :
    ∀ σ : State w, (pipelined_send msg l σ).2 = false → ∀ u ∈ l, σ.takes u msg = false := by
  induction l with
  | nil => intro σ _ u hu; cases hu
  | cons v rest ih =>
      intro σ h u hu
      simp only [pipelined_send] at h
      split at h
      · split at h
        · rename_i hbig
          rcases List.mem_cons.mp hu with he | hu
          · rw [he]
            unfold State.takes
            have hbig : decide (msg.m_ts ≤ (σ.tasks v).msr_d.r_maxsize) = false := by
              rw [decide_eq_false_iff_not]
              omega
            rw [hbig, Bool.and_false]
          · have := ih _ h u hu
            rw [notify_takes] at this
            exact this
        · cases h
      · rename_i hno
        rcases List.mem_cons.mp hu with he | hu
        · rw [he]
          unfold State.takes
          rw [Bool.eq_false_iff.mpr hno, Bool.false_and]
        · exact ih σ h u hu

/-- A receiver moves on in its scan or ends it. -/
def Pc.plain (pc : Pc) : Prop := pc.owned = none ∧ ∀ k : Task, ({ k with pc := pc } : Task).held = none

theorem scanDone_plain (a : RcvArgs) (msgtyp : Int) (found : Option Msg) :
    (scanDone a msgtyp found).plain := by
  unfold scanDone
  cases found with
  | none => simp only; split <;> exact ⟨rfl, fun _ => rfl⟩
  | some m => simp only; split <;> exact ⟨rfl, fun _ => rfl⟩

theorem scanAt_plain (a : RcvArgs) (msgtyp : Int) (found next : Option Msg) :
    (scanAt a msgtyp found next).plain := by
  cases next with
  | none => exact scanDone_plain a msgtyp found
  | some m => exact ⟨rfl, fun _ => rfl⟩

theorem Inv.scanMove {σ : State w} (h : Inv σ) {t : Tid} {pc : Pc} (hscan : ScanOk σ.q_messages pc)
    (hplain : pc.plain) : Inv (σ.setPc t pc) := by
  refine h.move t rfl (fun u hu => .of_eq (State.setPc_other _ _ _ _ hu)) (.inl ?_) (.inl ?_) ?_
  · rw [State.setPc_pc]
    exact hplain.1
  · rw [State.setPc_tasks, if_pos rfl]
    exact hplain.2 _
  · rw [State.setPc_pc]
    exact hscan

/-- The body of the loop of `_rt_msgrcv`. -/
theorem Inv.scanBody {σ : State w} (h : Inv σ) {t : Tid} {a : RcvArgs} {msgtyp : Int}
    {found : Option Msg} {tmp : Msg} (hpc : (σ.tasks t).pc = .rcvScan a msgtyp found tmp) :
    Inv (scanBody σ t a msgtyp found tmp) := by
  have hstands := (h.scan t).stands
  rw [hpc] at hstands
  have htmp : tmp ∈ σ.q_messages := hstands tmp (.inl rfl)
  have hfound : ∀ m, found = some m → m ∈ σ.q_messages := fun m hm => hstands m (.inr hm)
  -- the messages up to and with `tmp`, none of which matched unless `found`
  have hsplit : ∃ pre post, σ.q_messages = pre ++ tmp :: post ∧
      (found = none → ∀ x ∈ pre, testmsg x msgtyp a.mode = false) := by
    cases hf : found with
    | none =>
        obtain ⟨pre, post, he, hpre⟩ := (h.scan t).seen a msgtyp tmp (by rw [hpc, hf])
        exact ⟨pre, post, he, fun _ => hpre⟩
    | some m =>
        obtain ⟨pre, post, he⟩ := List.append_of_mem htmp
        exact ⟨pre, post, he, fun hn => by cases hn⟩
  obtain ⟨pre, post, hmsgs, hpre⟩ := hsplit
  have hnext := nextOf_eq h.queue hmsgs
  have hmsgs' : σ.q_messages = (pre ++ [tmp]) ++ post := by rw [hmsgs]; simp
  unfold Uniproc.scanBody
  simp only [hnext]
  split
  · split
    · refine h.scanMove (ScanOk.at a _ hmsgs' ?_ ?_) (scanAt_plain _ _ _ _)
      · intro m hm
        cases hm
        exact htmp
      · intro hn
        cases hn
    · refine h.scanMove (ScanOk.done a _ ?_ ?_) (scanDone_plain _ _ _)
      · intro m hm
        cases hm
        exact htmp
      · intro hn
        cases hn
  · rename_i hno
    refine h.scanMove (ScanOk.at a _ hmsgs' hfound ?_) (scanAt_plain _ _ _ _)
    intro hn x hx
    rcases List.mem_append.mp hx with hx | hx
    · exact hpre hn x hx
    · rw [List.mem_singleton.mp hx]
      exact Bool.eq_false_iff.mpr hno

/-- A receiver links itself: nothing on the queue matches it. -/
theorem Inv.link {σ : State w} (h : Inv σ) {t : Tid} {a : RcvArgs} (e : Env)
    (hpc : (σ.tasks t).pc = .rcvLink a) : Inv (rcvLink σ t e a) := by
  have hnone : (σ.q_messages.filter fun m => testmsg m a.msgtyp a.mode) = [] := by
    rw [List.filter_eq_nil_iff]
    intro m hm
    rw [(h.scan t).link a hpc m hm]
    exact Bool.false_ne_true
  unfold Uniproc.rcvLink
  rw [hnone]
  refine h.modT t _ ?_ rfl (.inl rfl) (.inl rfl) rfl
  simp [State.rest]

/-- `ss_wakeup` moves no task and gives it nothing. -/
theorem ss_wakeup_spec (l : List Tid) : ∀ σ : State w, (ss_wakeup l σ).rest = σ.rest ∧
    ∀ v, ((ss_wakeup l σ).tasks v).pc = (σ.tasks v).pc ∧
      ((ss_wakeup l σ).tasks v).held = (σ.tasks v).held := by
  induction l with
  | nil => exact fun σ => ⟨rfl, fun v => ⟨rfl, rfl⟩⟩
  | cons t rest ih =>
      intro σ
      obtain ⟨hrest, htasks⟩ := ih (wake_up_process σ t)
      refine ⟨hrest, ?_⟩
      intro v
      obtain ⟨hpc, hheld⟩ := wake_up_tasks σ t v
      exact ⟨(htasks v).1.trans hpc, (htasks v).2.trans hheld⟩

theorem Inv.wakeup {σ : State w} (h : Inv σ) {t : Tid} {a : RcvArgs} {m : Msg}
    (hpc : (σ.tasks t).pc = .rcvWake a m) :
    Inv ((ss_wakeup σ.q_senders σ).setPc t (.rcvCopy a m)) := by
  obtain ⟨hrest, htasks⟩ := ss_wakeup_spec σ.q_senders σ
  refine h.move t hrest ?_ (.inl ?_) (.inr ?_) ?_
  · intro u hu
    rw [State.setPc_other _ _ _ _ hu]
    exact ⟨(htasks u).1, .inr (htasks u).2⟩
  · rw [State.setPc_pc]
    rfl
  · rw [State.setPc_tasks, if_pos rfl]
    unfold Task.held
    rw [hpc]
  · rw [State.setPc_pc]
    exact .of_unconcerned rfl

/-! ## The steps -/

/-- One statement. -/
theorem Inv.exec {P : Params} {σ σ' : State P.longBits} {t : Tid} {e : Env} (h : Inv σ)
    (hclear : Clear σ (.exec t e)) (hexec : exec P σ t e = some σ') : Inv σ' := by
  unfold Clear at hclear
  unfold Uniproc.exec at hexec
  cases hpc : (σ.tasks t).pc with
  | idle r =>
      rw [hpc] at hexec
      cases hexec
  | sndSleep a m =>
      rw [hpc] at hexec
      cases hexec
  | rcvSleep a =>
      rw [hpc] at hexec
      cases hexec
  | sndRetry a m =>
      have hgo : ∀ pc, pc.owned = some m → ({ σ.tasks t with pc := pc } : Task).held = none →
          pc.unconcerned = true → Inv (σ.setPc t pc) := by
        intro pc howned hheld hun
        refine h.modT t _ rfl rfl (.inr ?_) (.inl hheld) hun
        rw [hpc]
        exact howned
      simp only [hpc] at hexec
      split at hexec
      · cases hexec
        exact h.ret t _
      · split at hexec
        · split at hexec
          · cases hexec
            exact h.ret t _
          · cases hexec
            exact hgo _ rfl rfl rfl
        · cases hexec
          exact hgo _ rfl rfl rfl
  | sndAdd a m =>
      simp only [hpc] at hexec
      cases hexec
      refine h.modT t _ rfl rfl (.inr ?_) (.inl rfl) rfl
      rw [hpc]
      rfl
  | sndDel a m =>
      simp only [hpc] at hexec
      cases hexec
      split
      · exact h.modT t _ rfl rfl (.inl rfl) (.inl rfl) rfl
      · refine h.modT t _ rfl rfl (.inr ?_) (.inl rfl) rfl
        rw [hpc]
        rfl
  | sndDeliver a m =>
      simp only [hpc] at hexec hclear
      cases hexec
      refine h.deliver hpc ?_
      intro hsent
      exact hclear (pipelined_send_false m σ.q_receivers σ hsent)
  | rcvRetry a =>
      simp only [hpc] at hexec
      split at hexec
      · cases hexec
        exact h.ret t _
      · cases hexec
        have hscan : ScanOk σ.q_messages (scanAt a a.msgtyp none σ.q_messages.head?) := by
          refine ScanOk.at a a.msgtyp (List.nil_append _).symm ?_ ?_
          · intro m hm
            cases hm
          · intro _ x hx
            cases hx
        exact h.scanMove hscan (scanAt_plain a a.msgtyp none σ.q_messages.head?)
  | rcvScan a msgtyp found tmp =>
      simp only [hpc] at hexec
      cases hexec
      exact h.scanBody hpc
  | rcvDel a m =>
      simp only [hpc] at hexec hclear
      cases hexec
      exact h.unlink hpc hclear
  | rcvQnum a m =>
      simp only [hpc] at hexec
      cases hexec
      refine h.modT t _ rfl rfl (.inl rfl) (.inr ?_) rfl
      simp [Task.held, hpc]
  | rcvCbytes a m =>
      simp only [hpc] at hexec
      cases hexec
      refine h.modT t _ rfl rfl (.inl rfl) (.inr ?_) rfl
      simp [Task.held, hpc]
  | rcvWake a m =>
      simp only [hpc] at hexec
      cases hexec
      exact h.wakeup hpc
  | rcvCopy a m =>
      simp only [hpc] at hexec
      cases hexec
      exact h.copyOut e hpc
  | rcvLink a =>
      simp only [hpc] at hexec
      cases hexec
      exact h.link e hpc
  | rcvSetTsk a | rcvSetType a | rcvSetMode a | rcvSetMax a | rcvSetMsg a =>
      simp only [hpc] at hexec
      cases hexec
      exact h.modT t _ rfl rfl (.inl rfl) (.inl rfl) rfl
  | rcvRead a =>
      simp only [hpc] at hexec
      split at hexec
      · rename_i m hm
        cases hexec
        refine h.modT t _ rfl rfl (.inl rfl) (.inr ?_) rfl
        simp [Task.held, hpc, hm, RMsg.toMsg]
      · cases hexec
        exact h.modT t _ rfl rfl (.inl rfl) (.inl rfl) rfl
      · cases hexec
        exact h.ret t _
  | rcvUnlink a =>
      simp only [hpc] at hexec
      cases hexec
      split
      · exact h.modT t _ rfl rfl (.inl rfl) (.inl rfl) rfl
      · exact h.modT t _ rfl rfl (.inl rfl) (.inl rfl) rfl

/-- A task enters a call. -/
theorem Inv.enter {P : Params} {σ : State P.longBits} (h : Inv σ) (t : Tid) (e : Env) (c : Call) :
    Inv (enter P σ t e c) := by
  cases c with
  | msgsnd mtype mtext msgflg space =>
      simp only [Uniproc.enter]
      split
      · exact h.ret t _
      · split
        · exact h.ret t _
        · split
          · exact h.ret t _
          · split
            · exact h.ret t _
            · exact h.load t _ rfl
  | msgrcv msgsz msgtyp msgflg space =>
      simp only [Uniproc.enter]
      split
      · exact h.ret t _
      · exact h.modT t _ rfl rfl (.inl rfl) (.inl rfl) rfl

/-- A task returns from `schedule`. -/
theorem Inv.resume {σ σ' : State w} {t : Tid} (h : Inv σ) (hres : resume σ t = some σ') :
    Inv σ' := by
  unfold Uniproc.resume at hres
  split at hres
  · rename_i a m hpc
    cases hres
    refine h.modT t _ rfl rfl (.inr ?_) (.inl rfl) rfl
    rw [hpc]
    rfl
  · rename_i a hpc
    cases hres
    refine h.modT t _ rfl rfl (.inl rfl) (.inr ?_) rfl
    simp [Task.held, hpc]
  · cases hres

theorem Inv.step {P : Params} {σ σ' : State P.longBits} {l : Label} (h : Inv σ)
    (hclear : Clear σ l) (hstep : step P σ l = some σ') : Inv σ' := by
  unfold Uniproc.step at hstep
  rw [if_neg (by rw [h.oops]; exact Bool.false_ne_true)] at hstep
  cases l with
  | call t c e =>
      simp only at hstep
      split at hstep
      · cases hstep
        exact h.enter t e c
      · cases hstep
  | exec t e => exact h.exec hclear hstep
  | resume t => exact h.resume hstep

theorem Inv.init (msr_d : Tid → Msr) : Inv (initState w msr_d) := by
  refine ⟨⟨?_, ?_⟩, List.nodup_nil, List.nodup_nil, List.nodup_nil, ?_, ?_, rfl, rfl⟩
  · intro m p p' hp _
    cases p <;> cases hp
  · intro m p hp
    cases p <;> cases hp
  · intro m hm
    cases hm
  · intro t
    exact .of_unconcerned rfl

/-! ## Exclusion -/

/-- No message is returned by two receivers, none is unlinked twice, and no
receiver has linked itself past a message that matches it. -/
structure Exclusive (σ : State w) : Prop where
  returned : (σ.returned.map Prod.snd).Nodup
  unlinked : σ.unlinked.Nodup
  linked : σ.missed = []

/-- Without CONFIG_SMP the lists are safe in the runs with no task switch at
the two places `Clear` names. -/
theorem uniproc_exclusion (P : Params) : (machine P).InvariantBy Clear Exclusive := by
  intro σ hσ
  have h : Inv σ := by
    refine hσ.induct ?_ ?_
    · rintro σ ⟨msr_d, rfl⟩
      exact .init msr_d
    · intro σ σ' l h hclear hstep
      exact h.step hclear hstep
  exact ⟨h.returned, h.unlinked, h.missed⟩

/-! ## Runs of a few tasks -/

/-- The task that a step is of. -/
def Label.task : Label → Tid
  | .call t _ _ | .exec t _ | .resume t => t

section Others

variable {t u : Tid}

theorem setPc_others {σ τ : State w} (hτ : (τ.tasks u).pc = (σ.tasks u).pc) (hu : u ≠ t) (pc : Pc) :
    ((τ.setPc t pc).tasks u).pc = (σ.tasks u).pc := by
  rw [State.setPc_other _ _ _ _ hu]
  exact hτ

theorem modT_others {σ τ : State w} (hτ : τ.tasks = σ.tasks) (hu : u ≠ t) (g : Task → Task) :
    ((τ.modT t g).tasks u).pc = (σ.tasks u).pc := by
  rw [State.modT_tasks, if_neg hu, hτ]

theorem deliver_others (σ : State w) (m : Msg) :
    ((deliver σ m).tasks u).pc = (σ.tasks u).pc := by
  obtain ⟨-, u₀, hu₀⟩ := pipelined_send_spec m σ.q_receivers σ
  unfold deliver
  dsimp only
  split
  · exact (hu₀ u).1
  · exact (hu₀ u).1

theorem scanBody_others (σ : State w) (hu : u ≠ t) (a : RcvArgs) (msgtyp : Int)
    (found : Option Msg) (m : Msg) :
    ((scanBody σ t a msgtyp found m).tasks u).pc = (σ.tasks u).pc := by
  unfold scanBody
  dsimp only
  split
  · split
    · split
      · rfl
      · exact setPc_others rfl hu _
    · exact setPc_others rfl hu _
  · split
    · rfl
    · exact setPc_others rfl hu _

/-- A statement moves no other task. -/
theorem exec_others {P : Params} {σ σ' : State P.longBits} {e : Env}
    (h : exec P σ t e = some σ') (hu : u ≠ t) : (σ'.tasks u).pc = (σ.tasks u).pc := by
  unfold Uniproc.exec at h
  cases hpc : (σ.tasks t).pc with
  | idle r => rw [hpc] at h; cases h
  | sndSleep a m => rw [hpc] at h; cases h
  | rcvSleep a => rw [hpc] at h; cases h
  | sndRetry a m =>
      simp only [hpc] at h
      split at h
      · cases h
        exact setPc_others rfl hu _
      · split at h
        · split at h <;> cases h <;> exact setPc_others rfl hu _
        · cases h
          exact setPc_others rfl hu _
  | sndDeliver a m =>
      simp only [hpc] at h
      cases h
      exact setPc_others (deliver_others σ m) hu _
  | rcvRetry a =>
      simp only [hpc] at h
      split at h <;> cases h <;> exact setPc_others rfl hu _
  | rcvScan a msgtyp found tmp =>
      simp only [hpc] at h
      cases h
      exact scanBody_others σ hu a msgtyp found tmp
  | rcvWake a m =>
      simp only [hpc] at h
      cases h
      exact setPc_others ((ss_wakeup_spec σ.q_senders σ).2 u).1 hu _
  | rcvRead a =>
      simp only [hpc] at h
      split at h <;> cases h <;> exact setPc_others rfl hu _
  | sndDel a m | rcvDel a m | rcvQnum a m | rcvCbytes a m | rcvCopy a m | rcvUnlink a =>
      simp only [hpc] at h
      cases h
      exact setPc_others rfl hu _
  | sndAdd a m | rcvLink a | rcvSetTsk a | rcvSetType a | rcvSetMode a | rcvSetMax a
  | rcvSetMsg a =>
      simp only [hpc] at h
      cases h
      exact modT_others rfl hu _

/-- A step moves no other task. -/
theorem step_others {P : Params} {σ σ' : State P.longBits} {l : Label}
    (h : step P σ l = some σ') (hu : u ≠ l.task) : (σ'.tasks u).pc = (σ.tasks u).pc := by
  unfold Uniproc.step at h
  split at h
  · cases h
  · cases l with
    | call t c e =>
        dsimp only at h
        split at h
        · cases h
          cases c with
          | msgsnd mtype mtext msgflg space =>
              simp only [Uniproc.enter]
              repeat' split
              all_goals exact setPc_others rfl hu _
          | msgrcv msgsz msgtyp msgflg space =>
              simp only [Uniproc.enter]
              split <;> exact setPc_others rfl hu _
        · cases h
    | exec t e => exact exec_others h hu
    | resume t =>
        dsimp only [Uniproc.resume] at h
        split at h <;> cases h <;> exact setPc_others rfl hu _

end Others

/-- `Clear`, looking at the tasks below `n` only; the step is of one of them. -/
def clearBelow (n : Nat) (σ : State w) (l : Label) : Bool :=
  decide (l.task < n) &&
    match (σ.tasks l.task).pc with
    | .rcvDel _ msg => (List.range n).all fun u =>
        u == l.task || match (σ.tasks u).pc with
          | .rcvScan _ _ found tmp => tmp != msg && found != some msg
          | .rcvDel _ msg' => msg' != msg
          | _ => true
    | .sndDeliver _ msg => (List.range n).all fun u =>
        match (σ.tasks u).pc with
        | .rcvLink b => !testmsg msg b.msgtyp b.mode
        | _ => true
    | _ => true

theorem clear_of_below {n : Nat} {σ : State w} (hidle : ∀ u, n ≤ u → (σ.tasks u).pc = .idle none)
    {l : Label} (h : clearBelow n σ l = true) : Clear σ l := by
  cases l with
  | exec t e =>
      obtain ⟨-, h⟩ := Bool.and_eq_true_iff.mp h
      change (match (σ.tasks t).pc with
        | .rcvDel _ msg => _
        | .sndDeliver _ msg => _
        | _ => _) = true at h
      unfold Clear
      dsimp only
      cases hpc : (σ.tasks t).pc with
      | rcvDel a msg =>
          simp only [hpc] at h ⊢
          -- a task from `n` on has not called, and stands on no message
          intro u hu hstands
          by_cases hun : n ≤ u
          · rw [hidle u hun] at hstands
            exact hstands
          · have hone := List.all_eq_true.mp h u (List.mem_range.mpr (Nat.lt_of_not_le hun))
            have hne : (u == t) = false := beq_eq_false_iff_ne.mpr hu
            change (u == t || _) = true at hone
            rw [hne, Bool.false_or] at hone
            cases hpu : (σ.tasks u).pc with
            | rcvScan b msgtyp found tmp =>
                simp only [hpu, Pc.standsOn] at hone hstands
                simp at hone
                exact hstands.elim hone.1 hone.2
            | rcvDel b msg' =>
                simp only [hpu, Pc.standsOn] at hone hstands
                simp at hone
                exact hone hstands
            | _ =>
                rw [hpu] at hstands
                exact hstands
      | sndDeliver a msg =>
          simp only [hpc] at h ⊢
          intro _ u b hb
          by_cases hun : n ≤ u
          · rw [hidle u hun] at hb
            cases hb
          · have hone := List.all_eq_true.mp h u (List.mem_range.mpr (Nat.lt_of_not_le hun))
            simpa only [hb, Bool.not_eq_true'] using hone
      | _ => trivial
  | call t c e => trivial
  | resume t => trivial

/-- In a run of the tasks below `n` it is enough to look at these. -/
theorem reachable_of_below {P : Params} {n : Nat} {σ : State P.longBits}
    (h : (machine P).ReachableBy (fun σ l => clearBelow n σ l = true) σ) :
    (∀ u, n ≤ u → (σ.tasks u).pc = .idle none) ∧ (machine P).ReachableBy Clear σ := by
  induction h with
  | init hi =>
      obtain ⟨msr_d, rfl⟩ := hi
      exact ⟨fun u _ => rfl, .init ⟨msr_d, rfl⟩⟩
  | @step σ σ' l _ hok hs ih =>
      -- the step is of a task below `n`, so that the others stay where they began
      obtain ⟨hidle, hr⟩ := ih
      have htask : l.task < n := of_decide_eq_true (Bool.and_eq_true_iff.mp hok).1
      refine ⟨fun u hu => ?_, hr.step (clear_of_below hidle hok) hs⟩
      have hother : u ≠ l.task := fun he => Nat.not_lt.mpr hu (he ▸ htask)
      rw [step_others hs hother]
      exact hidle u hu

/-! ## Three runs -/

/-- A 64-bit machine and a queue of mode 0666 with the default `q_qbytes`. -/
def openQueue : Params where
  longBits := 64
  q_perm := ⟨0, 500, 500, 500, 500, 0o666#32, 0⟩
  q_qbytes := 16384#64
  cred t := ⟨t, 500, 500, (· == 500), false, false, false⟩

/-- A record that holds zeros. -/
def zeroMsr : Msr := ⟨⟨.any, 0, 0, .err .EAGAIN⟩, 0⟩

/-- Allocations and copies succeed, no signal is pending. -/
def calm : Env := ⟨true, true, false, zeroMsr⟩

/-- A task executes its next statements. -/
def statements (t : Tid) (n : Nat) : List Label := List.replicate n (.exec t calm)

/-- Task 0 sends one byte of type 1. -/
def sendOne : List Label := .call 0 (.msgsnd 1 [7] 0#32 false) calm :: statements 0 2

/-- A task asks for any message and executes `n` statements. -/
def receiveAny (t : Tid) (n : Nat) : List Label :=
  .call t (.msgrcv 16 0 0#32 false) calm :: statements t n

/-- Task 0 sends a message of type 1 and one of type 2. Task 2 asks for type 2, and stands
on the second message when task 1 takes the first. -/
def twoReceivers : List Label :=
  sendOne ++ .call 0 (.msgsnd 2 [8] 0#32 false) calm :: statements 0 2 ++
    .call 2 (.msgrcv 16 2 0#32 false) calm :: statements 2 2 ++ receiveAny 1 7 ++ statements 2 6

/-- Each of the two returns with its message. -/
theorem uniproc_exclusion_two : ∃ σ, (machine openQueue).ReachableBy Clear σ ∧
    σ.returned.map (fun p => (p.1, p.2.m_type)) = [(1, 1), (2, 2)] ∧ Exclusive σ := by
  have hinit : (machine openQueue).init (initState 64 fun _ => zeroMsr) := ⟨_, rfl⟩
  have hrun : (machine openQueue).leadsBy (fun σ l => clearBelow 3 σ l = true)
      (fun σ => decide (σ.returned.map (fun p => (p.1, p.2.m_type)) = [(1, 1), (2, 2)]))
      (initState 64 fun _ => zeroMsr) twoReceivers = true := by
    decide
  obtain ⟨σ, hσ, hask⟩ := TSys.ReachableBy.of_leadsBy (.init hinit) hrun
  have hr := (reachable_of_below hσ).2
  exact ⟨σ, hr, of_decide_eq_true hask, uniproc_exclusion openQueue σ hr⟩

/-- Tasks 1 and 2 both find the only message before either unlinks it, and both
return with it; a message sent between the scan of task 1 and its
`list_add_tail` stays on the queue that task 1 sleeps on. -/
theorem uniproc_races :
    (¬ (machine openQueue).Invariant fun σ => (σ.returned.map Prod.snd).Nodup) ∧
    (¬ (machine openQueue).Invariant fun σ => σ.unlinked.Nodup) ∧
    ¬ (machine openQueue).Invariant fun σ => σ.missed = [] := by
  have hinit : (machine openQueue).init (initState 64 fun _ => zeroMsr) := ⟨_, rfl⟩
  have htwice : (machine openQueue).leadsTo (initState 64 fun _ => zeroMsr)
      (sendOne ++ receiveAny 1 2 ++ receiveAny 2 2 ++ statements 1 5 ++ statements 2 5)
      (fun σ => decide (¬ (σ.returned.map Prod.snd).Nodup ∧ ¬ σ.unlinked.Nodup)) = true := by
    decide
  have hlate : (machine openQueue).leadsTo (initState 64 fun _ => zeroMsr)
      (receiveAny 1 1 ++ sendOne ++ statements 1 1) (fun σ => decide (σ.missed ≠ [])) = true := by
    decide
  obtain ⟨σ, hσ, hask⟩ := TSys.Reachable.of_leadsTo hinit htwice
  obtain ⟨σ₂, hσ₂, hask₂⟩ := TSys.Reachable.of_leadsTo hinit hlate
  obtain ⟨hret, hunl⟩ := of_decide_eq_true hask
  exact ⟨fun h => hret (h σ hσ), fun h => hunl (h σ hσ), fun h => of_decide_eq_true hask₂ (h σ₂ hσ₂)⟩

end RtaiDemos.Sysvmsg.Uniproc
