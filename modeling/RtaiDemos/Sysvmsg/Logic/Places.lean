import RtaiDemos.Sysvmsg.Logic.Alert

/-!
# Where a message is

A message that a sender has loaded is somewhere: with its sender, on a live
queue, with a receiver that has not returned, handed out by one that has, on
the list that `freeque` is working off, or freed by it. `Placed` says that it
is in one place only, and that exactly the messages sent have left their
sender; `Tidy` that no list holds a message twice.
-/

namespace RtaiDemos.Sysvmsg

/-- The places a message can be in. -/
inductive Place
  | owner (t : Tid)
  | queue (q : QId)
  | receiver (t : Tid)
  | returned (t : Tid)
  | dying (q : QId)
  | purged
  deriving DecidableEq, Repr

/-- The places of messages that have been sent. -/
def Place.past : Place → Bool
  | .owner _ => false
  | _ => true

/-- The message is in this place. -/
def State.At (σ : State) (m : Msg) : Place → Prop
  | .owner t => (σ.tasks t).pc.owned = some m
  | .queue q => σ.Live q ∧ ∃ msq, σ.queues q = some msq ∧ m ∈ msq.q_messages
  | .receiver t => (σ.tasks t).held = some m
  | .returned t => (t, m) ∈ σ.hist.handed
  | .dying q => ∃ t rest, (σ.tasks t).pc = .ctlFree q rest ∧ m ∈ rest
  | .purged => m ∈ σ.hist.purged

/-- `_rt_msgsnd` has taken its final step for the message. -/
def State.Sent (σ : State) (m : Msg) : Prop := ∃ q, (q, m) ∈ σ.hist.sent

/-- Every message is in one place, and those sent have left their sender. -/
structure Placed (σ : State) : Prop where
  fresh : ∀ m p, σ.At m p → m.mid < σ.nextMsg
  unique : ∀ m p p', σ.At m p → σ.At m p' → p = p'
  sent : ∀ m, σ.Sent m ↔ ∃ p, p.past = true ∧ σ.At m p

/-- No list holds a message twice. -/
structure Tidy (σ : State) : Prop where
  queue : ∀ q msq, σ.Live q → σ.queues q = some msq → msq.q_messages.Nodup
  dying : ∀ t q rest, (σ.tasks t).pc = .ctlFree q rest → rest.Nodup
  handed : (σ.hist.handed.map Prod.snd).Nodup
  purged : σ.hist.purged.Nodup
  sent : (σ.hist.sent.map Prod.snd).Nodup

/-! ## Rules -/

/-- No message moves; one that was not sent may be dropped. -/
theorem Placed.stay {σ σ' : State} (h : Placed σ) (hback : ∀ m p, σ'.At m p → σ.At m p)
    (hkeep : ∀ m p, p.past = true → σ.At m p → σ'.At m p)
    (hsent : σ'.hist.sent = σ.hist.sent) (hnext : σ.nextMsg ≤ σ'.nextMsg) : Placed σ' := by
  refine ⟨?_, ?_, ?_⟩
  · intro m p hp
    have := h.fresh m p (hback m p hp)
    omega
  · intro m p p' hp hp'
    exact h.unique m p p' (hback m p hp) (hback m p' hp')
  · intro m
    unfold State.Sent
    rw [hsent]
    refine (h.sent m).trans ⟨?_, ?_⟩
    · rintro ⟨p, hpast, hp⟩
      exact ⟨p, hpast, hkeep m p hpast hp⟩
    · rintro ⟨p, hpast, hp⟩
      exact ⟨p, hpast, hback m p hp⟩

/-- The state `σ'` is `σ` with the message moved from `p₀` to `p₁`, as far as
this place is concerned. -/
def State.Moved (σ σ' : State) (m₀ : Msg) (p₀ p₁ p : Place) : Prop :=
  ∀ m, σ'.At m p ↔ (σ.At m p ∧ (m = m₀ → p ≠ p₀)) ∨ (m = m₀ ∧ p = p₁)

/-- One message moves; the others stay. -/
theorem Placed.moveOne {σ σ' : State} (h : Placed σ) {m₀ : Msg} (p₀ p₁ : Place)
    (h₀ : σ.At m₀ p₀) (hp₁ : p₁.past = true) (hmoved : ∀ p, σ.Moved σ' m₀ p₀ p₁ p)
    (hsent : ∀ m, σ'.Sent m ↔ σ.Sent m ∨ m = m₀) (hnext : σ'.nextMsg = σ.nextMsg) :
    Placed σ' := by
  -- what is elsewhere is another message
  have hother : ∀ m p, σ'.At m p ↔ (σ.At m p ∧ m ≠ m₀) ∨ (m = m₀ ∧ p = p₁) := by
    intro m p
    rw [hmoved p m]
    refine or_congr_left (and_congr_right fun hold => ⟨?_, fun hne hm => absurd hm hne⟩)
    rintro hne rfl
    exact hne rfl (h.unique m p p₀ hold h₀)
  refine ⟨?_, ?_, ?_⟩
  · intro m p hp
    rw [hnext]
    rcases (hother m p).mp hp with ⟨hold, _⟩ | ⟨rfl, _⟩
    · exact h.fresh m p hold
    · exact h.fresh m p₀ h₀
  · intro m p p' hp hp'
    rcases (hother m p).mp hp with ⟨hold, hne⟩ | ⟨rfl, rfl⟩
    · rcases (hother m p').mp hp' with ⟨hold', _⟩ | ⟨rfl, _⟩
      · exact h.unique m p p' hold hold'
      · exact absurd rfl hne
    · rcases (hother m p').mp hp' with ⟨_, hne'⟩ | ⟨_, rfl⟩
      · exact absurd rfl hne'
      · rfl
  · intro m
    rw [hsent, h.sent]
    constructor
    · rintro (⟨p, hpast, hp⟩ | rfl)
      · by_cases hm : m = m₀
        · exact ⟨p₁, hp₁, (hother m p₁).mpr (.inr ⟨hm, rfl⟩)⟩
        · exact ⟨p, hpast, (hother m p).mpr (.inl ⟨hp, hm⟩)⟩
      · exact ⟨p₁, hp₁, (hother m p₁).mpr (.inr ⟨rfl, rfl⟩)⟩
    · rintro ⟨p, hpast, hp⟩
      rcases (hother m p).mp hp with ⟨hold, _⟩ | ⟨rfl, _⟩
      · exact .inl ⟨p, hpast, hold⟩
      · exact .inr rfl

/-- A place that has nothing to do with the move. -/
theorem State.Moved.same {σ σ' : State} {m₀ : Msg} {p₀ p₁ p : Place}
    (h : ∀ m, σ'.At m p ↔ σ.At m p) (h₀ : p ≠ p₀) (h₁ : p ≠ p₁) : σ.Moved σ' m₀ p₀ p₁ p := by
  intro m
  rw [h m]
  simp [h₀, h₁]

/-- The place the message leaves. -/
theorem State.Moved.left {σ σ' : State} {m₀ : Msg} {p₀ p₁ : Place} (hne : p₀ ≠ p₁)
    (h : ∀ m, σ'.At m p₀ ↔ σ.At m p₀ ∧ m ≠ m₀) : σ.Moved σ' m₀ p₀ p₁ p₀ := by
  intro m
  rw [h m]
  simp [hne]

/-- The place the message arrives at. -/
theorem State.Moved.arrived {σ σ' : State} {m₀ : Msg} {p₀ p₁ : Place} (hne : p₁ ≠ p₀)
    (h : ∀ m, σ'.At m p₁ ↔ σ.At m p₁ ∨ m = m₀) : σ.Moved σ' m₀ p₀ p₁ p₁ := by
  intro m
  rw [h m]
  simp [hne]

/-- A sender has let its message go. -/
theorem State.Moved.owner_left {σ σ' : State} {m₀ : Msg} {t : Tid} {p₁ : Place}
    (hp₁ : p₁.past = true) (hold : (σ.tasks t).pc.owned = some m₀)
    (hnew : (σ'.tasks t).pc.owned = none) : σ.Moved σ' m₀ (.owner t) p₁ (.owner t) := by
  refine .left (by rintro rfl; cases hp₁) fun m => ?_
  simp only [State.At, hold, hnew, reduceCtorEq, Option.some.injEq, false_iff, not_and, not_not]
  exact Eq.symm

/-- A receiver has got its message. -/
theorem State.Moved.receiver_arrived {σ σ' : State} {m₀ : Msg} {t : Tid} {p₀ : Place}
    (hp₀ : .receiver t ≠ p₀) (hold : (σ.tasks t).held = none)
    (hnew : (σ'.tasks t).held = some m₀) : σ.Moved σ' m₀ p₀ (.receiver t) (.receiver t) := by
  refine .arrived hp₀ fun m => ?_
  simp only [State.At, hold, hnew, reduceCtorEq, Option.some.injEq, false_or]
  exact eq_comm

/-- A receiver has let its message go. -/
theorem State.Moved.receiver_left {σ σ' : State} {m₀ : Msg} {t : Tid} {p₁ : Place}
    (hp₁ : .receiver t ≠ p₁) (hold : (σ.tasks t).held = some m₀)
    (hnew : (σ'.tasks t).held = none) : σ.Moved σ' m₀ (.receiver t) p₁ (.receiver t) := by
  refine .left hp₁ fun m => ?_
  simp only [State.At, hold, hnew, reduceCtorEq, Option.some.injEq, false_iff, not_and, not_not]
  exact Eq.symm

/-- Where it was sent before, sending is no news. -/
theorem Placed.sent_old {σ σ' : State} (h : Placed σ) {m₀ : Msg} {p₀ : Place}
    (h₀ : σ.At m₀ p₀) (hp₀ : p₀.past = true) (hsent : σ'.hist.sent = σ.hist.sent) (m : Msg) :
    σ'.Sent m ↔ σ.Sent m ∨ m = m₀ := by
  unfold State.Sent
  rw [hsent]
  constructor
  · exact .inl
  · rintro (hm | rfl)
    · exact hm
    · exact (h.sent m).mpr ⟨p₀, hp₀, h₀⟩

theorem sent_append {σ σ' : State} {q : QId} {m₀ : Msg}
    (hsent : σ'.hist.sent = σ.hist.sent ++ [(q, m₀)]) (m : Msg) :
    σ'.Sent m ↔ σ.Sent m ∨ m = m₀ := by
  unfold State.Sent
  rw [hsent]
  simp only [List.mem_append, List.mem_singleton, Prod.mk.injEq, exists_or, exists_eq_left]

/-- A new message, with its sender. -/
theorem Placed.load {σ σ' : State} (h : Placed σ) {m₀ : Msg} {t : Tid}
    (hmid : m₀.mid = σ.nextMsg)
    (hback : ∀ m p, σ'.At m p → (m = m₀ ∧ p = .owner t) ∨ σ.At m p)
    (hkeep : ∀ m p, p.past = true → σ.At m p → σ'.At m p)
    (hsent : σ'.hist.sent = σ.hist.sent) (hnext : σ'.nextMsg = σ.nextMsg + 1) : Placed σ' := by
  have hnew : ∀ p, ¬ σ.At m₀ p := by
    intro p hp
    have := h.fresh m₀ p hp
    omega
  refine ⟨?_, ?_, ?_⟩
  · intro m p hp
    rw [hnext]
    rcases hback m p hp with ⟨rfl, _⟩ | hold
    · omega
    · have := h.fresh m p hold
      omega
  · intro m p p' hp hp'
    rcases hback m p hp with ⟨rfl, rfl⟩ | hold
    · rcases hback m p' hp' with ⟨_, rfl⟩ | hold'
      · rfl
      · exact absurd hold' (hnew p')
    · rcases hback m p' hp' with ⟨rfl, _⟩ | hold'
      · exact absurd hold (hnew p)
      · exact h.unique m p p' hold hold'
  · intro m
    unfold State.Sent
    rw [hsent]
    refine (h.sent m).trans ⟨?_, ?_⟩
    · rintro ⟨p, hpast, hp⟩
      exact ⟨p, hpast, hkeep m p hpast hp⟩
    · rintro ⟨p, hpast, hp⟩
      rcases hback m p hp with ⟨_, rfl⟩ | hold
      · cases hpast
      · exact ⟨p, hpast, hold⟩

/-- The messages of a queue become those its removal has yet to free. -/
theorem Placed.bury {σ σ' : State} (h : Placed σ) {q : QId}
    (hnone : ∀ m, ¬ σ'.At m (.queue q)) (hfirst : ∀ m, ¬ σ.At m (.dying q))
    (hbury : ∀ m, σ'.At m (.dying q) ↔ σ.At m (.queue q))
    (hsame : ∀ m p, p ≠ .queue q → p ≠ .dying q → (σ'.At m p ↔ σ.At m p))
    (hsent : σ'.hist.sent = σ.hist.sent) (hnext : σ'.nextMsg = σ.nextMsg) : Placed σ' := by
  have hback : ∀ m p, σ'.At m p →
      (p = .dying q ∧ σ.At m (.queue q)) ∨ (p ≠ .queue q ∧ σ.At m p) := by
    intro m p hp
    by_cases hd : p = .dying q
    · rw [hd] at hp
      exact .inl ⟨hd, (hbury m).mp hp⟩
    · have hq : p ≠ .queue q := by
        rintro rfl
        exact hnone m hp
      exact .inr ⟨hq, (hsame m p hq hd).mp hp⟩
  refine ⟨?_, ?_, ?_⟩
  · intro m p hp
    rw [hnext]
    rcases hback m p hp with ⟨_, hold⟩ | ⟨_, hold⟩ <;> exact h.fresh m _ hold
  · intro m p p' hp hp'
    rcases hback m p hp with ⟨rfl, hold⟩ | ⟨hne, hold⟩
    · rcases hback m p' hp' with ⟨rfl, _⟩ | ⟨hne', hold'⟩
      · rfl
      · exact absurd (h.unique m _ _ hold' hold) hne'
    · rcases hback m p' hp' with ⟨_, hold'⟩ | ⟨_, hold'⟩
      · exact absurd (h.unique m _ _ hold hold') hne
      · exact h.unique m p p' hold hold'
  · intro m
    unfold State.Sent
    rw [hsent]
    refine (h.sent m).trans ⟨?_, ?_⟩
    · rintro ⟨p, hpast, hp⟩
      by_cases hq : p = .queue q
      · rw [hq] at hp
        exact ⟨.dying q, rfl, (hbury m).mpr hp⟩
      · have hd : p ≠ .dying q := by
          rintro rfl
          exact hfirst m hp
        exact ⟨p, hpast, (hsame m p hq hd).mpr hp⟩
    · rintro ⟨p, hpast, hp⟩
      rcases hback m p hp with ⟨_, hold⟩ | ⟨_, hold⟩
      · exact ⟨_, rfl, hold⟩
      · exact ⟨p, hpast, hold⟩

/-! ## Frames

What `At` reads of a task, of a queue and of the history. -/

/-- The task has the messages it had, except that one not yet sent may be
dropped. -/
def Task.Keeps (k k' : Task) : Prop :=
  k'.held = k.held ∧ (k'.pc.owned = none ∨ k'.pc.owned = k.pc.owned)

theorem Task.Keeps.refl (k : Task) : k.Keeps k := ⟨rfl, .inr rfl⟩

theorem at_dying {σ : State} {m : Msg} {q : QId} :
    σ.At m (.dying q) ↔ ∃ t rest, (σ.tasks t).pc.freeing = some (q, rest) ∧ m ∈ rest := by
  simp only [State.At, Pc.freeing_eq_some]

/-- The messages on dying queues, when no task frees anything else. -/
theorem at_dying_congr {σ σ' : State}
    (h : ∀ t, (σ'.tasks t).pc.freeing = (σ.tasks t).pc.freeing) (m : Msg) (q : QId) :
    σ'.At m (.dying q) ↔ σ.At m (.dying q) := by
  simp only [at_dying, h]

theorem at_queue {σ : State} {m : Msg} {q : QId} :
    σ.At m (.queue q) ↔ σ.Live q ∧ ∃ l, (σ.queues q).map (·.q_messages) = some l ∧ m ∈ l := by
  show (σ.Live q ∧ ∃ msq, σ.queues q = some msq ∧ m ∈ msq.q_messages) ↔ _
  cases σ.queues q <;> simp

/-- The messages on live queues, when neither table nor lists change. -/
theorem at_queue_congr {σ σ' : State} (hlive : ∀ q, σ'.Live q ↔ σ.Live q)
    (hq : ∀ q, (σ'.queues q).map (·.q_messages) = (σ.queues q).map (·.q_messages)) (m : Msg)
    (q : QId) : σ'.At m (.queue q) ↔ σ.At m (.queue q) := by
  rw [at_queue, at_queue, hlive, hq]

/-- The messages on live queues, when one live queue gets the list `l`. -/
theorem at_queue_set {σ σ' : State} (q : QId) (l : List Msg) (hids : σ'.ids = σ.ids)
    (hlive : σ.Live q)
    (hq : ∀ p, (σ'.queues p).map (·.q_messages) =
      if p = q then some l else (σ.queues p).map (·.q_messages)) (m : Msg) (p : QId) :
    σ'.At m (.queue p) ↔ if p = q then m ∈ l else σ.At m (.queue p) := by
  have hl : σ'.Live p ↔ σ.Live p := by
    unfold State.Live
    rw [hids]
  rw [at_queue, at_queue, hl, hq]
  split
  · rename_i hp
    subst hp
    simp [hlive]
  · rfl

/-- No message moves. -/
theorem Placed.frame {σ σ' : State} (h : Placed σ)
    (ht : ∀ t, (σ.tasks t).Keeps (σ'.tasks t))
    (hq : ∀ m q, σ'.At m (.queue q) ↔ σ.At m (.queue q))
    (hd : ∀ m q, σ'.At m (.dying q) ↔ σ.At m (.dying q))
    (hhanded : σ'.hist.handed = σ.hist.handed) (hpurged : σ'.hist.purged = σ.hist.purged)
    (hsent : σ'.hist.sent = σ.hist.sent) (hnext : σ'.nextMsg = σ.nextMsg) : Placed σ' := by
  refine h.stay ?_ ?_ hsent (by omega)
  · intro m p hp
    cases p with
    | owner t =>
        rcases (ht t).2 with hn | he
        · rw [State.At, hn] at hp
          cases hp
        · rw [State.At, he] at hp
          exact hp
    | queue q => exact (hq m q).mp hp
    | receiver t =>
        rw [State.At, (ht t).1] at hp
        exact hp
    | returned t =>
        rw [State.At, hhanded] at hp
        exact hp
    | dying q => exact (hd m q).mp hp
    | purged =>
        rw [State.At, hpurged] at hp
        exact hp
  · intro m p hpast hp
    cases p with
    | owner t => cases hpast
    | queue q => exact (hq m q).mpr hp
    | receiver t =>
        rw [State.At, (ht t).1]
        exact hp
    | returned t =>
        rw [State.At, hhanded]
        exact hp
    | dying q => exact (hd m q).mpr hp
    | purged =>
        rw [State.At, hpurged]
        exact hp

/-- No message moves, and one task only changes. -/
theorem Placed.frameOne {σ σ' : State} (h : Placed σ) (t : Tid)
    (hother : ∀ u, u ≠ t → σ'.tasks u = σ.tasks u) (ht : (σ.tasks t).Keeps (σ'.tasks t))
    (hf : (σ'.tasks t).pc.freeing = (σ.tasks t).pc.freeing)
    (hq : ∀ m q, σ'.At m (.queue q) ↔ σ.At m (.queue q))
    (hhanded : σ'.hist.handed = σ.hist.handed) (hpurged : σ'.hist.purged = σ.hist.purged)
    (hsent : σ'.hist.sent = σ.hist.sent) (hnext : σ'.nextMsg = σ.nextMsg) : Placed σ' := by
  refine h.frame ?_ hq (at_dying_congr ?_) hhanded hpurged hsent hnext
  · intro u
    by_cases hu : u = t
    · rw [hu]
      exact ht
    · rw [hother u hu]
      exact .refl _
  · intro u
    by_cases hu : u = t
    · rw [hu]
      exact hf
    · rw [hother u hu]

/-- A task that has no message, before or after. -/
theorem Placed.frameEmpty {σ σ' : State} (h : Placed σ) (t : Tid)
    (hother : ∀ u, u ≠ t → σ'.tasks u = σ.tasks u)
    (hold : (σ.tasks t).held = none ∧ (σ.tasks t).pc.freeing = none)
    (hnew : (σ'.tasks t).held = none ∧ (σ'.tasks t).pc.freeing = none)
    (hown : (σ'.tasks t).pc.owned = none ∨ (σ'.tasks t).pc.owned = (σ.tasks t).pc.owned)
    (hq : ∀ m q, σ'.At m (.queue q) ↔ σ.At m (.queue q))
    (hhanded : σ'.hist.handed = σ.hist.handed) (hpurged : σ'.hist.purged = σ.hist.purged)
    (hsent : σ'.hist.sent = σ.hist.sent) (hnext : σ'.nextMsg = σ.nextMsg) : Placed σ' :=
  h.frameOne t hother ⟨by rw [hnew.1, hold.1], hown⟩ (by rw [hnew.2, hold.2]) hq hhanded hpurged
    hsent hnext

end RtaiDemos.Sysvmsg
