import RtaiDemos.Agent.Machine

/-!
# Who owns the shared memory

Ownership goes round: the agent that is about to signal `shmsem`, the unit of
`shmsem`, the sender, the unit of `agentsem`, the agent, the receiver. `Roles`
says that there is one owner, by what each task's statement and `op` tell. What
the owner knows of the words is in the other module of this directory.
-/

namespace RtaiDemos.Agent

variable {w : Nat}

/-- What the agent's statement and `op` say about the buffer. -/
inductive Role
  -- about to signal `shmsem`; waiting for `agentsem`; with the data; the receiver
  -- has it; out of the loop
  | signals | idle | holds | gave | out
  deriving DecidableEq, Repr

/-- The role of the agent between its cases. -/
def Op.role : Op → Role
  | .one => .idle
  | .two => .holds
  | .three => .gave
  | .four => .signals

/-- The role of the agent. -/
def AgentPc.role (pc : AgentPc w) (op : Op) : Role :=
  match pc with
  | .lastReceive | .lastReturn | .ended => .out
  | .signal => .signals
  | .return => .holds
  | _ => op.role

/-- From `rt_sem_wait(shmsem)` to `rt_sem_signal(agentsem)`. -/
def SenderPc.between : SenderPc w → Bool
  | .start | .loop | .wait | .lastWait | .ended => false
  | _ => true

/-- In the loop over the words, or at the comparison. -/
def AgentPc.reading : AgentPc w → Bool
  | .sum _ _ | .add _ _ | .compare _ => true
  | _ => false

/-- Answered, and not yet past the comparison. -/
def ReceiverPc.reading : ReceiverPc w → Bool
  | .returned _ | .sum _ _ | .add _ _ | .compare _ => true
  | _ => false

/-- Before the agent has taken its `rt_rpc`. -/
def ReceiverPc.asks : ReceiverPc w → Bool
  | .callRpc | .rpc => true
  | _ => false

/-- Taken by the agent and not answered. -/
def ReceiverPc.isTaken : ReceiverPc w → Bool
  | .taken => true
  | _ => false

/-- From the agent's `rt_return` until it takes the `rt_send`. -/
def ReceiverPc.owns : ReceiverPc w → Bool
  | .returned msg => msg == request
  | .sum _ _ | .add _ _ | .compare _ | .callSend | .send => true
  | _ => false

/-- The `op` at a statement of the agent. -/
def AgentPc.codeOk : AgentPc w → Op → Bool
  | .start, op => op = .four
  | .wait_if, op => op = .one
  | .sum _ _, op | .add _ _, op | .compare _, op | .receive_rpc, op => op = .two
  | .return, op | .receive_send, op => op = .three
  | _, _ => true

namespace State

variable (σ : State w)

/-- The agent's role. -/
def role : Role := σ.agent.role σ.op

theorem role_of {pc : AgentPc w} (h : σ.agent = pc) : σ.role = pc.role σ.op := by
  unfold role
  rw [h]

theorem role_congr {σ σ' : State w} (hagent : σ'.agent = σ.agent) (hop : σ'.op = σ.op) :
    σ'.role = σ.role := by
  unfold role
  rw [hagent, hop]

/-- How many of the six hold: the agent is about to signal `shmsem`, `shmsem` is
1, the sender is between its semaphores, `agentsem` is 1, the agent holds the
data, the receiver owns it. -/
def owners : Nat :=
  (σ.role == .signals).toNat + σ.shmsem + σ.sender.between.toNat + σ.agentsem +
    (σ.role == .holds).toNat + (σ.role == .gave).toNat

/-- Where the receiver stands beside the agent. -/
def paired : Bool :=
  match σ.agent with
  | .return => σ.receiver.isTaken
  | _ => if σ.role = .gave then σ.receiver.owns else σ.receiver.asks

end State

/-- One owner, while the agent is in its loop. -/
structure Roles (σ : State w) : Prop where
  one : σ.owners = 1
  code : σ.agent.codeOk σ.op = true
  paired : σ.paired = true

variable {σ σ' : State w}

/-- The sender passes its unit on and leaves the other two alone. -/
theorem sender_units {size : Nat} {rand : Int} (hstep : sender σ size rand = some σ') :
    σ'.shmsem + σ'.sender.between.toNat + σ'.agentsem =
        σ.shmsem + σ.sender.between.toNat + σ.agentsem ∧
      σ'.agent = σ.agent ∧ σ'.op = σ.op ∧ σ'.receiver = σ.receiver := by
  unfold sender at hstep
  cases hpc : σ.sender with
  | start =>
      rw [hpc] at hstep
      cases hstep
      exact ⟨rfl, rfl, rfl, rfl⟩
  | loop =>
      rw [hpc] at hstep
      simp only at hstep
      split at hstep
      · cases hstep
        exact ⟨rfl, rfl, rfl, rfl⟩
      · cases hstep
        exact ⟨rfl, rfl, rfl, rfl⟩
  | wait =>
      rw [hpc] at hstep
      simp only at hstep
      split at hstep
      · cases hstep
        refine ⟨?_, rfl, rfl, rfl⟩
        show σ.shmsem - 1 + 1 + σ.agentsem = σ.shmsem + 0 + σ.agentsem
        omega
      · cases hstep
  | draw =>
      rw [hpc] at hstep
      cases hstep
      exact ⟨rfl, rfl, rfl, rfl⟩
  | check v =>
      rw [hpc] at hstep
      cases hstep
      refine ⟨?_, rfl, rfl, rfl⟩
      split
      · rfl
      · rfl
  | clamp =>
      rw [hpc] at hstep
      cases hstep
      exact ⟨rfl, rfl, rfl, rfl⟩
  | fill i chksum =>
      rw [hpc] at hstep
      cases hstep
      refine ⟨?_, rfl, rfl, rfl⟩
      split
      · rfl
      · rfl
  | store i chksum =>
      rw [hpc] at hstep
      cases hstep
      exact ⟨rfl, rfl, rfl, rfl⟩
  | add i chksum =>
      rw [hpc] at hstep
      cases hstep
      exact ⟨rfl, rfl, rfl, rfl⟩
  | storeSum chksum =>
      rw [hpc] at hstep
      cases hstep
      exact ⟨rfl, rfl, rfl, rfl⟩
  | signal chksum =>
      rw [hpc] at hstep
      cases hstep
      refine ⟨?_, rfl, rfl, rfl⟩
      show σ.shmsem + 0 + (σ.agentsem + 1) = σ.shmsem + 1 + σ.agentsem
      omega
  | lastWait =>
      rw [hpc] at hstep
      simp only at hstep
      split at hstep
      · cases hstep
        refine ⟨?_, rfl, rfl, rfl⟩
        show σ.shmsem - 1 + 1 + σ.agentsem = σ.shmsem + 0 + σ.agentsem
        omega
      · cases hstep
  | lastStore =>
      rw [hpc] at hstep
      cases hstep
      exact ⟨rfl, rfl, rfl, rfl⟩
  | lastSignal =>
      rw [hpc] at hstep
      cases hstep
      refine ⟨?_, rfl, rfl, rfl⟩
      show σ.shmsem + 0 + (σ.agentsem + 1) = σ.shmsem + 1 + σ.agentsem
      omega
  | ended =>
      rw [hpc] at hstep
      cases hstep

theorem Roles.sender (h : Roles σ) {size : Nat} {rand : Int}
    (hstep : sender σ size rand = some σ') : Roles σ' := by
  obtain ⟨hunits, hagent, hop, hreceiver⟩ := sender_units hstep
  have hrole : σ'.role = σ.role := State.role_congr hagent hop
  refine ⟨?_, ?_, ?_⟩
  · have hone := h.one
    unfold State.owners at hone ⊢
    rw [hrole]
    omega
  · rw [hagent, hop]
    exact h.code
  · have hpaired := h.paired
    unfold State.paired at hpaired ⊢
    rw [hagent, hrole, hreceiver]
    exact hpaired

/-- A step of the receiver leaves the other two and the semaphores alone, and
keeps its place beside the agent. -/
theorem receiver_frame (hstep : receiver σ = some σ') :
    σ'.shm = σ.shm ∧ σ'.shmsem = σ.shmsem ∧ σ'.agentsem = σ.agentsem ∧ σ'.sender = σ.sender ∧
      σ'.agent = σ.agent ∧ σ'.op = σ.op ∧ (σ.receiver.asks = true → σ'.receiver.asks = true) ∧
      (σ.receiver.owns = true → σ'.receiver.owns = true) ∧ σ.receiver ≠ .taken := by
  unfold receiver at hstep
  cases hpc : σ.receiver with
  | callRpc =>
      rw [hpc] at hstep
      cases hstep
      simp [ReceiverPc.asks, ReceiverPc.owns]
  | returned msg =>
      rw [hpc] at hstep
      cases hstep
      refine ⟨rfl, rfl, rfl, rfl, rfl, rfl, by simp [ReceiverPc.asks], ?_, by simp⟩
      intro howns
      have hmsg : msg = request := by simpa [ReceiverPc.owns] using howns
      show ReceiverPc.owns (if msg ≠ farewell then _ else _) = true
      rw [hmsg, if_pos (by decide)]
      rfl
  | sum i chksum =>
      rw [hpc] at hstep
      cases hstep
      refine ⟨rfl, rfl, rfl, rfl, rfl, rfl, by simp [ReceiverPc.asks], ?_, by simp⟩
      intro _
      show ReceiverPc.owns (if _ then _ else _) = true
      split
      · rfl
      · rfl
  | add i chksum =>
      rw [hpc] at hstep
      cases hstep
      simp [ReceiverPc.asks, ReceiverPc.owns]
  | compare chksum =>
      rw [hpc] at hstep
      cases hstep
      simp [ReceiverPc.asks, ReceiverPc.owns]
  | callSend =>
      rw [hpc] at hstep
      cases hstep
      simp [ReceiverPc.asks, ReceiverPc.owns]
  | rpc => rw [hpc] at hstep; cases hstep
  | taken => rw [hpc] at hstep; cases hstep
  | send => rw [hpc] at hstep; cases hstep
  | ended => rw [hpc] at hstep; cases hstep

theorem Roles.receiver (h : Roles σ) (hstep : receiver σ = some σ') : Roles σ' := by
  obtain ⟨_, hshmsem, hagentsem, hsender, hagent, hop, hasks, howns, htaken⟩ := receiver_frame hstep
  have hrole : σ'.role = σ.role := State.role_congr hagent hop
  refine ⟨?_, ?_, ?_⟩
  · have hone := h.one
    unfold State.owners at hone ⊢
    rw [hrole, hshmsem, hagentsem, hsender]
    exact hone
  · rw [hagent, hop]
    exact h.code
  · have hpaired := h.paired
    unfold State.paired at hpaired ⊢
    rw [hagent, hrole]
    split at hpaired
    · cases hreceiver : σ.receiver <;> rw [hreceiver] at hpaired <;>
        first | exact absurd hreceiver htaken | cases hpaired
    · split at hpaired
      · rename_i hgave
        rw [if_pos hgave]
        exact howns hpaired
      · rename_i hgave
        rw [if_neg hgave]
        exact hasks hpaired

/-- Beside an agent that neither answers nor has given the data away the
receiver asks. -/
theorem Roles.asks (h : Roles σ) (hreturn : σ.agent ≠ .return) (hgave : σ.role ≠ .gave) :
    σ.receiver.asks = true := by
  have hpaired := h.paired
  unfold State.paired at hpaired
  rw [if_neg hgave] at hpaired
  split at hpaired
  · rename_i he
    exact absurd he hreturn
  · exact hpaired

theorem Roles.owns (h : Roles σ) (hreturn : σ.agent ≠ .return) (hgave : σ.role = .gave) :
    σ.receiver.owns = true := by
  have hpaired := h.paired
  unfold State.paired at hpaired
  rw [if_pos hgave] at hpaired
  split at hpaired
  · rename_i he
    exact absurd he hreturn
  · exact hpaired

theorem Roles.taken (h : Roles σ) (hreturn : σ.agent = .return) : σ.receiver = .taken := by
  have hpaired := h.paired
  unfold State.paired at hpaired
  rw [hreturn] at hpaired
  have hpaired : σ.receiver.isTaken = true := hpaired
  cases hreceiver : σ.receiver <;> rw [hreceiver] at hpaired <;> first | rfl | cases hpaired

/-- A move of the agent that changes neither its role nor the units. -/
theorem Roles.stay (h : Roles σ) (agent : AgentPc w) (hrole : agent.role σ.op = σ.role)
    (hcode : agent.codeOk σ.op = true) (hold : σ.agent ≠ .return) (hnew : agent ≠ .return) :
    Roles { σ with agent := agent } := by
  refine ⟨?_, hcode, ?_⟩
  · have hone := h.one
    unfold State.owners at hone ⊢
    show (agent.role σ.op == .signals).toNat + σ.shmsem + _ + σ.agentsem +
      (agent.role σ.op == .holds).toNat + (agent.role σ.op == .gave).toNat = 1
    rw [hrole]
    exact hone
  · have hsame : ({ σ with agent := agent } : State w).role = σ.role := hrole
    unfold State.paired
    rw [hsame]
    split
    · rename_i he
      exact absurd he hnew
    · split
      · rename_i hgave
        exact h.owns hold hgave
      · rename_i hgave
        exact h.asks hold hgave

/-- `rt_receive_if` takes the `rt_rpc` of a receiver that asks. -/
theorem ReceiverPc.received_asks {pc pc' : ReceiverPc w} (h : pc.asks = true)
    (hreceived : pc.received = some pc') : pc' = .taken := by
  cases pc with
  | rpc => cases hreceived; rfl
  | callRpc => cases hreceived
  | _ => cases h

/-- `rt_receive_if` takes the `rt_send` of a receiver that owns the data. -/
theorem ReceiverPc.received_owns {pc pc' : ReceiverPc w} (h : pc.owns = true)
    (hreceived : pc.received = some pc') : pc = .send ∧ pc' = .callRpc := by
  cases pc with
  | send => cases hreceived; exact ⟨rfl, rfl⟩
  | rpc => cases h
  | _ => cases hreceived

/-- A step of the agent that stays in its loop. -/
theorem Roles.agent (h : Roles σ) (hstep : fun_ σ = some σ') (hloop : σ'.role ≠ .out) :
    Roles σ' := by
  have hone := h.one
  have hcode := h.code
  unfold fun_ at hstep
  cases hpc : σ.agent with
  | start =>
      rw [hpc] at hstep hcode
      cases hstep
      have hop : σ.op = .four := by simpa [AgentPc.codeOk] using hcode
      rw [← hop]
      exact h.stay .test (σ.role_of hpc).symm rfl (by rw [hpc]; simp) (by simp)
  | test =>
      rw [hpc] at hstep
      cases hstep
      by_cases hzero : σ.shm 0 = 0
      · rw [if_pos hzero] at hloop
        exact absurd rfl hloop
      · rw [if_neg hzero]
        exact h.stay .switch (σ.role_of hpc).symm rfl (by rw [hpc]; simp) (by simp)
  | switch =>
      rw [hpc] at hstep
      cases hstep
      refine h.stay σ.op.case ?_ ?_ (by rw [hpc]; simp) ?_
      · rw [σ.role_of hpc]
        cases σ.op <;> rfl
      · cases σ.op <;> rfl
      · cases σ.op <;> simp [Op.case]
  | wait_if =>
      rw [hpc] at hstep hcode
      have hop : σ.op = .one := by simpa [AgentPc.codeOk] using hcode
      have hrole : σ.role = .idle := by rw [σ.role_of hpc, hop]; rfl
      simp only at hstep
      split at hstep
      · rename_i hpos
        cases hstep
        refine ⟨?_, rfl, h.asks (by rw [hpc]; simp) (by rw [hrole]; simp)⟩
        unfold State.owners at hone ⊢
        rw [hrole] at hone
        show 0 + σ.shmsem + σ.sender.between.toNat + (σ.agentsem - 1) + 1 + 0 = 1
        have hsum : 0 + σ.shmsem + σ.sender.between.toNat + σ.agentsem + 0 + 0 = 1 := hone
        omega
      · cases hstep
        exact h.stay .period (by rw [σ.role_of hpc, hop]; rfl) rfl (by rw [hpc]; simp)
          (by simp)
  | sum i chksum =>
      rw [hpc] at hstep hcode
      cases hstep
      split
      · exact h.stay (.add i chksum) (σ.role_of hpc).symm hcode
          (by rw [hpc]; simp) (by simp)
      · exact h.stay (.compare chksum) (σ.role_of hpc).symm hcode
          (by rw [hpc]; simp) (by simp)
  | add i chksum =>
      rw [hpc] at hstep hcode
      cases hstep
      exact h.stay (.sum (i + 1) (chksum + widen (σ.shm i))) (σ.role_of hpc).symm
        hcode (by rw [hpc]; simp) (by simp)
  | compare chksum =>
      rw [hpc] at hstep hcode
      cases hstep
      have hstay := h.stay .receive_rpc (σ.role_of hpc).symm hcode
        (by rw [hpc]; simp) (by simp)
      exact ⟨hstay.one, hstay.code, hstay.paired⟩
  | receive_rpc =>
      rw [hpc] at hstep hcode
      have hop : σ.op = .two := by simpa [AgentPc.codeOk] using hcode
      have hrole : σ.role = .holds := by rw [σ.role_of hpc, hop]; rfl
      simp only at hstep
      split at hstep
      · rename_i receiver hreceived
        cases hstep
        have hasks := h.asks (by rw [hpc]; simp) (by rw [hrole]; simp)
        rw [ReceiverPc.received_asks hasks hreceived]
        refine ⟨?_, rfl, rfl⟩
        unfold State.owners at hone ⊢
        rw [hrole] at hone
        exact hone
      · cases hstep
        exact h.stay .period (σ.role_of hpc).symm rfl (by rw [hpc]; simp)
          (by simp)
  | «return» =>
      rw [hpc] at hstep hcode
      have hop : σ.op = .three := by simpa [AgentPc.codeOk] using hcode
      have hrole : σ.role = .holds := σ.role_of hpc
      have htaken := h.taken hpc
      cases hstep
      refine ⟨?_, hcode, ?_⟩
      · unfold State.owners at hone ⊢
        rw [hrole] at hone
        show (σ.op.role == .signals).toNat + σ.shmsem + σ.sender.between.toNat + σ.agentsem +
          (σ.op.role == .holds).toNat + (σ.op.role == .gave).toNat = 1
        rw [hop]
        exact hone
      · show (if σ.op.role = .gave then (σ.receiver.answered request).owns else _) = true
        rw [hop, htaken]
        rfl
  | receive_send =>
      rw [hpc] at hstep hcode
      have hop : σ.op = .three := by simpa [AgentPc.codeOk] using hcode
      have hrole : σ.role = .gave := by rw [σ.role_of hpc, hop]; rfl
      simp only at hstep
      split at hstep
      · rename_i receiver hreceived
        cases hstep
        have howns := h.owns (by rw [hpc]; simp) hrole
        rw [(ReceiverPc.received_owns howns hreceived).2]
        refine ⟨?_, rfl, rfl⟩
        unfold State.owners at hone ⊢
        rw [hrole] at hone
        show 1 + σ.shmsem + σ.sender.between.toNat + σ.agentsem + 0 + 0 = 1
        have hsum : 0 + σ.shmsem + σ.sender.between.toNat + σ.agentsem + 0 + 1 = 1 := hone
        omega
      · cases hstep
        exact h.stay .period (σ.role_of hpc).symm rfl (by rw [hpc]; simp)
          (by simp)
  | signal =>
      rw [hpc] at hstep
      have hrole : σ.role = .signals := σ.role_of hpc
      cases hstep
      refine ⟨?_, rfl, h.asks (by rw [hpc]; simp) (by rw [hrole]; simp)⟩
      unfold State.owners at hone ⊢
      rw [hrole] at hone
      show 0 + (σ.shmsem + 1) + σ.sender.between.toNat + σ.agentsem + 0 + 0 = 1
      have hsum : 1 + σ.shmsem + σ.sender.between.toNat + σ.agentsem + 0 + 0 = 1 := hone
      omega
  | period =>
      rw [hpc] at hstep
      cases hstep
      exact h.stay .test (σ.role_of hpc).symm rfl (by rw [hpc]; simp) (by simp)
  | lastReceive =>
      rw [hpc] at hstep
      simp only at hstep
      split at hstep
      · cases hstep
        exact absurd rfl hloop
      · cases hstep
        exact h
  | lastReturn =>
      rw [hpc] at hstep
      cases hstep
      exact absurd rfl hloop
  | ended =>
      rw [hpc] at hstep
      cases hstep

/-- The agent does not come back into its loop. -/
theorem role_out (hout : σ.role = .out) (hstep : fun_ σ = some σ') : σ'.role = .out := by
  unfold fun_ at hstep
  unfold State.role at hout
  cases hpc : σ.agent with
  | lastReceive =>
      rw [hpc] at hstep
      simp only at hstep
      split at hstep
      · cases hstep
        rfl
      · cases hstep
        unfold State.role
        rw [hpc]
        rfl
  | lastReturn =>
      rw [hpc] at hstep
      cases hstep
      rfl
  | ended =>
      rw [hpc] at hstep
      cases hstep
  | signal => rw [hpc] at hout; cases hout
  | «return» => rw [hpc] at hout; cases hout
  | _ =>
      rw [hpc] at hout
      cases hop : σ.op <;> rw [hop] at hout <;> cases hout

/-- The invariant of the roles. -/
theorem roles_invariant : (machine w).Invariant fun σ => σ.role ≠ .out → Roles σ := by
  refine TSys.Invariant.of_inductive ?_ ?_
  · rintro σ ⟨shm, rfl⟩ _
    exact ⟨rfl, rfl, rfl⟩
  · intro σ σ' l h hstep hloop
    cases l with
    | sender size rand =>
        have hsame : σ'.role = σ.role := by
          obtain ⟨_, hagent, hop, _⟩ := sender_units hstep
          exact State.role_congr hagent hop
        rw [hsame] at hloop
        exact (h hloop).sender hstep
    | agent =>
        by_cases hout : σ.role = .out
        · exact absurd (role_out hout hstep) hloop
        · exact (h hout).agent hstep hloop
    | receiver =>
        have hsame : σ'.role = σ.role := by
          obtain ⟨_, _, _, _, hagent, hop, _⟩ := receiver_frame hstep
          exact State.role_congr hagent hop
        rw [hsame] at hloop
        exact (h hloop).receiver hstep

end RtaiDemos.Agent
