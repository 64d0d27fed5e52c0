import RtaiDemos.Agent.Logic.Words

/-!
# One owner of the shared memory

While the agent is in its loop exactly one of the six stages of a round holds;
so nobody reads the words while they are written, and every buffer is checked by
the agent and by the receiver, once each, before the sender writes again.
-/

namespace RtaiDemos.Agent

variable {w : Nat} {σ : State w}

theorem data_invariant : (machine w).Invariant fun σ => σ.role ≠ .out → Data σ := by
  refine TSys.Invariant.of_inductive_with roles_invariant ?_ ?_
  · rintro σ ⟨shm, rfl⟩ _
    refine ⟨?_, Int.le_refl 0, trivial, trivial, trivial, rfl, rfl⟩
    show 0 ≤ Function.update shm 0 SHMSIZE 0
    rw [Function.update_self]
    decide
  · intro σ σ' l hroles h hstep hloop
    cases l with
    | sender size rand =>
        have hsame : σ'.role = σ.role := by
          obtain ⟨_, hagent, hop, _⟩ := sender_units hstep
          exact State.role_congr hagent hop
        rw [hsame] at hloop
        exact (h hloop).senderStep (hroles hloop) hstep
    | agent =>
        by_cases hout : σ.role = .out
        · exact absurd (role_out hout hstep) hloop
        · exact (h hout).agentStep (hroles hout) hstep hloop
    | receiver =>
        have hsame : σ'.role = σ.role := by
          obtain ⟨_, _, _, _, hagent, hop, _⟩ := receiver_frame hstep
          exact State.role_congr hagent hop
        rw [hsame] at hloop
        exact (h hloop).receiverStep (hroles hloop) hstep

/-- The agent is in its loop (or before it). -/
def AgentPc.inLoop : AgentPc w → Bool
  | .lastReceive | .lastReturn | .ended => false
  | _ => true

theorem State.role_ne_out (h : σ.agent.inLoop = true) : σ.role ≠ .out := by
  intro hout
  unfold State.role at hout
  cases hpc : σ.agent with
  | lastReceive => rw [hpc] at h; cases h
  | lastReturn => rw [hpc] at h; cases h
  | ended => rw [hpc] at h; cases h
  | signal => rw [hpc] at hout; cases hout
  | «return» => rw [hpc] at hout; cases hout
  | _ =>
      rw [hpc] at hout
      cases hop : σ.op <;> rw [hop] at hout <;> cases hout

/-- The sender is about to store into the data or into the word after it. -/
def SenderPc.writing : SenderPc w → Bool
  | .store _ _ | .storeSum _ => true
  | _ => false

/-- What a round keeps. -/
structure Owned (σ : State w) : Prop where
  /-- Exactly one of the six stages. -/
  one_owner : σ.owners = 1
  /-- Who reads has the data. -/
  agent_reads : σ.agent.reading = true → σ.role = .holds
  receiver_reads : σ.receiver.reading = true → σ.role = .gave
  /-- Nobody reads what is written. -/
  not_read : σ.sender.writing = true → σ.agent.reading = false ∧ σ.receiver.reading = false
  /-- Before the sender writes again, every completed buffer has been checked. -/
  all_checked : σ.sender.between = true →
    σ.agentChecked = σ.completed ∧ σ.receiverChecked = σ.completed
  /-- Each buffer is checked once by each, as it was completed and in order. -/
  once : σ.agentChecked <+: σ.completed ∧ σ.receiverChecked <+: σ.completed ∧
    σ.completed.length ≤ σ.receiverChecked.length + 1

theorem Data.owned (h : Data σ) (hr : Roles σ) : Owned σ := by
  refine ⟨hr.one, AgentPc.holds_of_reading hr.code, fun hread => (hr.reading hread).1, ?_, ?_, ?_⟩
  · intro hwriting
    have hbetween : σ.sender.between = true := by
      cases hpc : σ.sender <;> rw [hpc] at hwriting <;> first | rfl | cases hwriting
    obtain ⟨_, _, hagent, hreceiver⟩ := hr.quiet hbetween
    exact ⟨hagent, hreceiver⟩
  · intro hbetween
    obtain ⟨hagentDue, hreceiverDue⟩ := hr.nothing_due hbetween
    have hagent := h.agentLog
    have hreceiver := h.receiverLog
    rw [hagentDue] at hagent
    rw [hreceiverDue] at hreceiver
    refine ⟨?_, ?_⟩
    · rw [hagent]
      exact (List.append_nil _).symm
    · rw [hreceiver]
      exact (List.append_nil _).symm
  · refine ⟨⟨_, h.agentLog.symm⟩, ⟨_, h.receiverLog.symm⟩, ?_⟩
    rw [h.receiverLog, List.length_append]
    have hdue : (σ.due σ.receiverDue).length ≤ 1 := by
      unfold State.due
      split
      · exact Nat.le_refl 1
      · exact Nat.zero_le 1
    omega

/-- In every run, as long as the agent is in its loop. -/
theorem shared_memory_owned (w : Nat) :
    (machine w).Invariant fun σ => σ.agent.inLoop = true → Owned σ := by
  intro σ hσ hloop
  have hout := State.role_ne_out hloop
  exact (data_invariant σ hσ hout).owned (roles_invariant σ hσ hout)

end RtaiDemos.Agent
