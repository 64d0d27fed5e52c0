import RtaiDemos.Agent.Theorems.Ownership

/-!
# The agent ends on request

The agent polls `shm[0]` without owning the buffer. In every run in which no
drawn size is 0 it finds a 0 there only after the sender's last store. A drawn 0
stands in `shm[0]` until the sender has replaced it, and an agent that polls in
between leaves its loop too early.
-/

namespace RtaiDemos.Agent

variable {w : Nat} {σ σ' : State w}

/-- The sender has executed its last store `shm[0] = 0`. -/
def SenderPc.past : SenderPc w → Bool
  | .lastSignal | .ended => true
  | _ => false

/-- The sender is about to store the drawn size. -/
def SenderPc.draws : SenderPc w → Bool
  | .draw => true
  | _ => false

/-- The size that the sender stores is not 0. -/
def DrawsSize (σ : State w) : Label → Prop
  | .sender size _ => σ.sender.draws = true → size ≠ 0
  | _ => True

/-- The receiver has been answered that the agent ends. -/
def ReceiverPc.dismissed : ReceiverPc w → Bool
  | .returned msg => msg == farewell
  | .ended => true
  | _ => false

/-- The index in the sender's loop. -/
def SenderPc.index : SenderPc w → Nat
  | .fill i _ | .store i _ | .add i _ => i
  | _ => 1

/-- The rounds that the sender has completed or has still to complete. -/
def State.rounds (σ : State w) : Nat :=
  σ.completed.length +
    match σ.sender with
    | .start => COUNT
    | .loop => σ.count
    | .lastWait | .lastStore | .lastSignal | .ended => 0
    | _ => σ.count + 1

/-- See the module header. -/
structure Live (σ : State w) : Prop where
  size : σ.sender.past = false → 0 < σ.shm 0
  shm_size : σ.sender = .start ∨ 0 < σ.shm_size
  index : 0 < σ.sender.index
  left : σ.agent.inLoop = false → σ.sender.past = true
  dismissed : σ.receiver.dismissed = true → σ.agent.inLoop = false

/-- A step of the sender that keeps a size in `shm[0]`. -/
theorem Live.write (h : Live σ) {shm : Nat → Int} (pc : SenderPc w)
    (hold : σ.sender.past = false) (hstart : σ.sender ≠ .start) (hsize : 0 < shm 0)
    (hindex : 0 < pc.index) : Live { σ with shm := shm, sender := pc } := by
  refine ⟨fun _ => hsize, ?_, hindex, ?_, h.dismissed⟩
  · exact .inr (h.shm_size.resolve_left hstart)
  · intro hleft
    have hpast := h.left hleft
    rw [hold] at hpast
    cases hpast

/-- A store at an index of the loop does not touch `shm[0]`. -/
theorem update_zero (shm : Nat → Int) {i : Nat} (v : Int) (h : 0 < i) :
    Function.update shm i v 0 = shm 0 :=
  Function.update_of_ne (by omega) _ _

theorem Live.senderStep (h : Live σ) {size : Nat} {rand : Int}
    (hdraw : DrawsSize σ (.sender size rand)) (hstep : sender σ size rand = some σ') : Live σ' := by
  have hindex := h.index
  have hsize := h.size
  unfold sender at hstep
  cases hpc : σ.sender with
  | start =>
      rw [hpc] at hstep hsize
      have hleft := h.left
      rw [hpc] at hleft
      cases hstep
      exact ⟨fun _ => hsize rfl, .inr (hsize rfl), Nat.one_pos, hleft, h.dismissed⟩
  | loop =>
      rw [hpc] at hstep hsize
      have hleft := h.left
      rw [hpc] at hleft
      have hnz := h.shm_size.resolve_left (by rw [hpc]; simp)
      simp only at hstep
      split at hstep
      · cases hstep
        exact ⟨fun _ => hsize rfl, .inr hnz, Nat.one_pos, hleft, h.dismissed⟩
      · cases hstep
        exact ⟨fun _ => hsize rfl, .inr hnz, Nat.one_pos, hleft, h.dismissed⟩
  | wait =>
      rw [hpc] at hstep hsize
      have hleft := h.left
      rw [hpc] at hleft
      have hnz := h.shm_size.resolve_left (by rw [hpc]; simp)
      simp only at hstep
      split at hstep
      · cases hstep
        exact ⟨fun _ => hsize rfl, .inr hnz, Nat.one_pos, hleft, h.dismissed⟩
      · cases hstep
  | draw =>
      rw [hpc] at hstep
      cases hstep
      have hne := hdraw (by rw [hpc]; rfl)
      refine h.write _ (by rw [hpc]; rfl) (by rw [hpc]; simp) ?_ Nat.one_pos
      rw [Function.update_self]
      omega
  | check v =>
      rw [hpc] at hstep hsize
      cases hstep
      split
      · exact h.write _ (by rw [hpc]; rfl) (by rw [hpc]; simp) (hsize rfl) Nat.one_pos
      · exact h.write _ (by rw [hpc]; rfl) (by rw [hpc]; simp) (hsize rfl) Nat.one_pos
  | clamp =>
      rw [hpc] at hstep
      cases hstep
      refine h.write _ (by rw [hpc]; rfl) (by rw [hpc]; simp) ?_ Nat.one_pos
      rw [Function.update_self]
      exact h.shm_size.resolve_left (by rw [hpc]; simp)
  | fill i chksum =>
      rw [hpc] at hstep hsize hindex
      cases hstep
      split
      · exact h.write _ (by rw [hpc]; rfl) (by rw [hpc]; simp) (hsize rfl) hindex
      · exact h.write _ (by rw [hpc]; rfl) (by rw [hpc]; simp) (hsize rfl) Nat.one_pos
  | store i chksum =>
      rw [hpc] at hstep hsize hindex
      have hpos : 0 < i := hindex
      cases hstep
      refine h.write _ (by rw [hpc]; rfl) (by rw [hpc]; simp) ?_ hpos
      rw [update_zero σ.shm rand hpos]
      exact hsize rfl
  | add i chksum =>
      rw [hpc] at hstep hsize
      cases hstep
      exact h.write _ (by rw [hpc]; rfl) (by rw [hpc]; simp) (hsize rfl) (Nat.succ_pos i)
  | storeSum chksum =>
      rw [hpc] at hstep hsize
      cases hstep
      have hpos := hsize rfl
      refine h.write _ (by rw [hpc]; rfl) (by rw [hpc]; simp) ?_ Nat.one_pos
      rw [update_zero σ.shm _ (by unfold State.sumWord; omega)]
      exact hpos
  | signal chksum =>
      rw [hpc] at hstep hsize
      cases hstep
      have hmove := h.write .loop (by rw [hpc]; rfl) (by rw [hpc]; simp) (hsize rfl) Nat.one_pos
      exact ⟨hmove.size, hmove.shm_size, hmove.index, hmove.left, hmove.dismissed⟩
  | lastWait =>
      rw [hpc] at hstep hsize
      have hleft := h.left
      rw [hpc] at hleft
      have hnz := h.shm_size.resolve_left (by rw [hpc]; simp)
      simp only at hstep
      split at hstep
      · cases hstep
        exact ⟨fun _ => hsize rfl, .inr hnz, Nat.one_pos, hleft, h.dismissed⟩
      · cases hstep
  | lastStore =>
      rw [hpc] at hstep
      have hnz := h.shm_size.resolve_left (by rw [hpc]; simp)
      cases hstep
      exact ⟨nofun, .inr hnz, Nat.one_pos, fun _ => rfl, h.dismissed⟩
  | lastSignal =>
      rw [hpc] at hstep
      have hnz := h.shm_size.resolve_left (by rw [hpc]; simp)
      cases hstep
      exact ⟨nofun, .inr hnz, Nat.one_pos, fun _ => rfl, h.dismissed⟩
  | ended =>
      rw [hpc] at hstep
      cases hstep

theorem ReceiverPc.not_dismissed_of_received {pc pc' : ReceiverPc w} (h : pc.received = some pc') :
    pc'.dismissed = false := by
  cases pc <;> cases h <;> rfl

theorem ReceiverPc.dismissed_of_request {pc : ReceiverPc w}
    (h : (pc.answered request).dismissed = true) : pc.dismissed = true := by
  cases pc with
  | taken => exact absurd h (by simp [answered, dismissed, request, farewell])
  | _ => exact h

/-- What a step of the agent means to the other two. -/
theorem agent_frame (hstep : fun_ σ = some σ') :
    σ'.shm = σ.shm ∧ σ'.shm_size = σ.shm_size ∧ σ'.sender = σ.sender ∧ σ'.rounds = σ.rounds ∧
      (σ.agent.inLoop = false → σ'.agent.inLoop = false) ∧
      (σ'.agent.inLoop = false → σ.agent.inLoop = false ∨ σ.shm 0 = 0) ∧
      (σ'.receiver.dismissed = true → σ.receiver.dismissed = true ∨ σ'.agent.inLoop = false) := by
  unfold fun_ at hstep
  cases hpc : σ.agent with
  | start =>
      rw [hpc] at hstep
      cases hstep
      exact ⟨rfl, rfl, rfl, rfl, nofun, nofun, .inl⟩
  | test =>
      rw [hpc] at hstep
      cases hstep
      refine ⟨rfl, rfl, rfl, rfl, nofun, ?_, .inl⟩
      intro hleft
      by_cases hzero : σ.shm 0 = 0
      · exact .inr hzero
      · simp only [if_neg hzero] at hleft
        cases hleft
  | switch =>
      rw [hpc] at hstep
      cases hstep
      refine ⟨rfl, rfl, rfl, rfl, nofun, ?_, .inl⟩
      intro hleft
      cases hop : σ.op <;> rw [hop] at hleft <;> cases hleft
  | wait_if =>
      rw [hpc] at hstep
      simp only at hstep
      split at hstep
      · cases hstep
        exact ⟨rfl, rfl, rfl, rfl, nofun, nofun, .inl⟩
      · cases hstep
        exact ⟨rfl, rfl, rfl, rfl, nofun, nofun, .inl⟩
  | sum i chksum =>
      rw [hpc] at hstep
      cases hstep
      refine ⟨rfl, rfl, rfl, rfl, nofun, ?_, .inl⟩
      intro hleft
      simp only at hleft
      split at hleft <;> cases hleft
  | receive_rpc =>
      rw [hpc] at hstep
      simp only at hstep
      split at hstep
      · rename_i hreceived
        cases hstep
        refine ⟨rfl, rfl, rfl, rfl, nofun, nofun, ?_⟩
        intro hdismissed
        rw [ReceiverPc.not_dismissed_of_received hreceived] at hdismissed
        cases hdismissed
      · cases hstep
        exact ⟨rfl, rfl, rfl, rfl, nofun, nofun, .inl⟩
  | «return» =>
      rw [hpc] at hstep
      cases hstep
      exact ⟨rfl, rfl, rfl, rfl, nofun, nofun, fun h => .inl (ReceiverPc.dismissed_of_request h)⟩
  | receive_send =>
      rw [hpc] at hstep
      simp only at hstep
      split at hstep
      · rename_i hreceived
        cases hstep
        refine ⟨rfl, rfl, rfl, rfl, nofun, nofun, ?_⟩
        intro hdismissed
        rw [ReceiverPc.not_dismissed_of_received hreceived] at hdismissed
        cases hdismissed
      · cases hstep
        exact ⟨rfl, rfl, rfl, rfl, nofun, nofun, .inl⟩
  | lastReceive =>
      rw [hpc] at hstep
      simp only at hstep
      split at hstep
      · cases hstep
        exact ⟨rfl, rfl, rfl, rfl, fun _ => rfl, fun _ => .inl rfl, fun _ => .inr rfl⟩
      · cases hstep
        have hleft : σ.agent.inLoop = false := by rw [hpc]; rfl
        exact ⟨rfl, rfl, rfl, rfl, fun _ => hleft, fun _ => .inl rfl, .inl⟩
  | lastReturn =>
      rw [hpc] at hstep
      cases hstep
      exact ⟨rfl, rfl, rfl, rfl, fun _ => rfl, fun _ => .inl rfl, fun _ => .inr rfl⟩
  | ended =>
      rw [hpc] at hstep
      cases hstep
  | _ =>
      rw [hpc] at hstep
      cases hstep
      exact ⟨rfl, rfl, rfl, rfl, nofun, nofun, .inl⟩

theorem Live.agentStep (h : Live σ) (hstep : fun_ σ = some σ') : Live σ' := by
  obtain ⟨hshm, hlen, hsender, _, hstays, hleaves, hdismissed⟩ := agent_frame hstep
  refine ⟨?_, ?_, ?_, ?_, ?_⟩
  · rw [hshm, hsender]
    exact h.size
  · rw [hlen, hsender]
    exact h.shm_size
  · rw [hsender]
    exact h.index
  · intro hleft
    rw [hsender]
    rcases hleaves hleft with hold | hzero
    · exact h.left hold
    · cases hpast : σ.sender.past with
      | false =>
          have hpos := h.size hpast
          omega
      | true => rfl
  · intro hdone
    rcases hdismissed hdone with hold | hleft
    · exact hstays (h.dismissed hold)
    · exact hleft

theorem receiver_dismissed (hstep : receiver σ = some σ') (h : σ'.receiver.dismissed = true) :
    σ.receiver.dismissed = true := by
  unfold receiver at hstep
  cases hpc : σ.receiver with
  | returned msg =>
      rw [hpc] at hstep
      cases hstep
      by_cases hmsg : msg = farewell
      · rw [hmsg]
        rfl
      · simp only [if_pos hmsg] at h
        cases h
  | sum i chksum =>
      rw [hpc] at hstep
      cases hstep
      simp only at h
      split at h <;> cases h
  | _ =>
      rw [hpc] at hstep
      cases hstep <;> cases h

theorem receiver_rounds (hstep : receiver σ = some σ') :
    σ'.shm_size = σ.shm_size ∧ σ'.rounds = σ.rounds := by
  unfold receiver at hstep
  cases hpc : σ.receiver <;> rw [hpc] at hstep <;> cases hstep <;> exact ⟨rfl, rfl⟩

theorem Live.receiverStep (h : Live σ) (hstep : receiver σ = some σ') : Live σ' := by
  obtain ⟨hshm, _, _, hsender, hagent, _⟩ := receiver_frame hstep
  refine ⟨?_, ?_, ?_, ?_, ?_⟩
  · rw [hshm, hsender]
    exact h.size
  · rw [(receiver_rounds hstep).1, hsender]
    exact h.shm_size
  · rw [hsender]
    exact h.index
  · rw [hsender, hagent]
    exact h.left
  · intro hdismissed
    rw [hagent]
    exact h.dismissed (receiver_dismissed hstep hdismissed)

theorem live_invariant : (machine w).InvariantBy DrawsSize Live := by
  intro σ hσ
  refine hσ.induct ?_ ?_
  · rintro σ ⟨shm, rfl⟩
    refine ⟨?_, .inl rfl, Nat.one_pos, nofun, nofun⟩
    intro _
    show 0 < Function.update shm 0 SHMSIZE 0
    rw [Function.update_self]
    decide
  · intro σ σ' l h hok hstep
    cases l with
    | sender size rand => exact h.senderStep hok hstep
    | agent => exact h.agentStep hstep
    | receiver => exact h.receiverStep hstep

theorem sender_rounds {size : Nat} {rand : Int} (hstep : sender σ size rand = some σ') :
    σ.rounds ≤ σ'.rounds := by
  unfold sender at hstep
  cases hpc : σ.sender with
  | loop =>
      rw [hpc] at hstep
      simp only at hstep
      split at hstep
      · rename_i hzero
        cases hstep
        simp only [State.rounds, hpc]
        omega
      · cases hstep
        simp only [State.rounds, hpc]
        omega
  | wait =>
      rw [hpc] at hstep
      simp only at hstep
      split at hstep
      · cases hstep
        simp only [State.rounds, hpc, Nat.le_refl]
      · cases hstep
  | check v =>
      rw [hpc] at hstep
      simp only at hstep
      by_cases hlarge : v = 0 ∨ σ.shm 0 > σ.shm_size
      · rw [if_pos hlarge] at hstep
        cases hstep
        simp only [State.rounds, hpc, Nat.le_refl]
      · rw [if_neg hlarge] at hstep
        cases hstep
        simp only [State.rounds, hpc, Nat.le_refl]
  | fill i chksum =>
      rw [hpc] at hstep
      simp only at hstep
      by_cases hdata : (i : Int) ≤ σ.shm 0
      · rw [if_pos hdata] at hstep
        cases hstep
        simp only [State.rounds, hpc, Nat.le_refl]
      · rw [if_neg hdata] at hstep
        cases hstep
        simp only [State.rounds, hpc, Nat.le_refl]
  | signal chksum =>
      rw [hpc] at hstep
      cases hstep
      simp only [State.rounds, hpc, List.length_append, List.length_singleton]
      omega
  | lastWait =>
      rw [hpc] at hstep
      simp only at hstep
      split at hstep
      · cases hstep
        simp only [State.rounds, hpc, Nat.le_refl]
      · cases hstep
  | lastSignal =>
      rw [hpc] at hstep
      cases hstep
      simp only [State.rounds, hpc, List.length_append, List.length_singleton]
      omega
  | ended =>
      rw [hpc] at hstep
      cases hstep
  | _ =>
      rw [hpc] at hstep
      cases hstep
      simp only [State.rounds, hpc, Nat.le_refl]

/-- No round is lost, whatever is drawn. -/
theorem rounds_invariant : (machine w).Invariant fun σ => COUNT ≤ σ.rounds := by
  refine TSys.Invariant.of_inductive ?_ ?_
  · rintro σ ⟨shm, rfl⟩
    exact Nat.le_add_left COUNT 0
  · intro σ σ' l h hstep
    cases l with
    | sender size rand => exact Nat.le_trans h (sender_rounds hstep)
    | agent =>
        obtain ⟨_, _, _, hrounds, _⟩ := agent_frame hstep
        rw [hrounds]
        exact h
    | receiver =>
        rw [(receiver_rounds hstep).2]
        exact h

theorem completed_of_past (h : COUNT ≤ σ.rounds) (hpast : σ.sender.past = true) :
    COUNT ≤ σ.completed.length := by
  unfold State.rounds at h
  cases hpc : σ.sender with
  | lastSignal =>
      rw [hpc] at h
      exact h
  | ended =>
      rw [hpc] at h
      exact h
  | _ =>
      rw [hpc] at hpast
      cases hpast

/-- What the end of the agent requires. -/
structure EndsOnRequest (σ : State w) : Prop where
  /-- The loop is left only after the last store. -/
  left : σ.agent.inLoop = false → σ.sender.past = true
  /-- Before that every test of `shm[0]` goes on. -/
  polls : σ.sender.past = false → σ.shm 0 ≠ 0
  /-- The receiver is dismissed only after the last store and after all the rounds. -/
  dismissed : σ.receiver.dismissed = true → σ.sender.past = true ∧ COUNT ≤ σ.completed.length

/-- In every run in which no drawn size is 0. -/
theorem agent_ends_on_request (w : Nat) (σ : State w) (hσ : (machine w).ReachableBy DrawsSize σ) :
    EndsOnRequest σ := by
  have h := live_invariant σ hσ
  refine ⟨h.left, ?_, ?_⟩
  · intro hpast
    have hpos := h.size hpast
    omega
  · intro hdismissed
    have hpast := h.left (h.dismissed hdismissed)
    exact ⟨hpast, completed_of_past (rounds_invariant σ hσ.reachable) hpast⟩

instance (σ : State w) : (l : Label) → Decidable (DrawsSize σ l)
  | .sender size _ => inferInstanceAs (Decidable (σ.sender.draws = true → size ≠ 0))
  | .agent => .isTrue trivial
  | .receiver => .isTrue trivial

/-- The agent lets the sender go, which draws a size; the agent polls. -/
def pollRun (size : Nat) : List Label :=
  [.agent, .agent, .agent, .agent, .agent, .sender 0 0, .sender 0 0, .sender 0 0, .sender size 0,
    .agent]

theorem initState_init (shm : Nat → Int) : (machine w).init (initState w shm) := ⟨shm, rfl⟩

/-- A poll after the first store. -/
theorem agent_ends_on_request_polled : ∃ σ : State 64, (machine 64).ReachableBy DrawsSize σ ∧
    (σ.shm 0 = 7 ∧ σ.sender.past = false) ∧ EndsOnRequest σ := by
  have hrun : (machine 64).leadsBy DrawsSize (fun σ => σ.shm 0 == 7 && !σ.sender.past)
      (initState 64 fun _ => 0) (pollRun 7) = true := by decide
  obtain ⟨σ, hσ, hask⟩ := TSys.ReachableBy.of_leadsBy (.init (initState_init _)) hrun
  rw [Bool.and_eq_true_iff, beq_iff_eq, Bool.not_eq_true'] at hask
  exact ⟨σ, hσ, hask, agent_ends_on_request 64 σ hσ⟩

/-- With a drawn 0 the agent leaves its loop in the first round, and dismisses
the receiver. -/
theorem agent_ends_on_zero : ¬ (machine 64).Invariant EndsOnRequest := by
  intro hall
  have hrun : (machine 64).leadsTo (initState 64 fun _ => 0)
      (pollRun 0 ++ [.receiver, .agent, .agent])
      (fun σ => σ.receiver.dismissed && !σ.sender.past) = true := by decide
  obtain ⟨σ, hσ, hask⟩ := TSys.Reachable.of_leadsTo (initState_init _) hrun
  rw [Bool.and_eq_true_iff, Bool.not_eq_true'] at hask
  have hpast := ((hall σ hσ).dismissed hask.1).1
  rw [hask.2] at hpast
  cases hpast

end RtaiDemos.Agent
