import RtaiDemos.Agent.Logic.Ownership

/-!
# What the owner knows of the words

The sums that the three loops have formed so far, and the lists of completed and
of checked buffers: a buffer that is still to be checked is the one that stands
in the shared memory. Only a sender between its semaphores writes, and then
nobody reads and nothing is left to be checked.
-/

namespace RtaiDemos.Agent

variable {w : Nat}

/-- The sum of the first `k` words of data. -/
def psum (shm : Nat → Int) : Nat → BitVec w
  | 0 => 0
  | k + 1 => psum shm k + widen (shm (k + 1))

theorem psum_update (shm : Nat → Int) {i k : Nat} (v : Int) (h : k < i) :
    psum (w := w) (Function.update shm i v) k = psum shm k := by
  induction k with
  | zero => rfl
  | succ k ih =>
      show psum _ k + widen (Function.update shm i v (k + 1)) = psum shm k + widen (shm (k + 1))
      rw [ih (by omega), Function.update_of_ne (by omega)]

/-- The buffer in the shared memory: the sum of its words and the word after. -/
def current (shm : Nat → Int) : BitVec w × Int := (psum shm (shm 0).toNat, shm (shm 0 + 1).toNat)

/-- A loop at `i` with the sum `chksum`. -/
structure Summing (shm : Nat → Int) (i : Nat) (chksum : BitVec w) : Prop where
  pos : 0 < i
  le : (i : Int) ≤ shm 0 + 1
  sum : chksum = psum shm (i - 1)

theorem Summing.start {shm : Nat → Int} (h : 0 ≤ shm 0) : Summing (w := w) shm 1 0 :=
  ⟨by decide, by omega, rfl⟩

theorem Summing.next {shm : Nat → Int} {i : Nat} {chksum : BitVec w} (h : Summing shm i chksum)
    (hle : (i : Int) ≤ shm 0) : Summing shm (i + 1) (chksum + widen (shm i)) := by
  refine ⟨by omega, by omega, ?_⟩
  obtain ⟨j, rfl⟩ : ∃ j, i = j + 1 := ⟨i - 1, by have := h.pos; omega⟩
  rw [h.sum]
  rfl

theorem Summing.done {shm : Nat → Int} {i : Nat} {chksum : BitVec w} (h : Summing shm i chksum)
    (hnot : ¬ (i : Int) ≤ shm 0) : chksum = psum shm (shm 0).toNat := by
  have hlen : (shm 0).toNat = i - 1 := by
    have := h.le
    have := h.pos
    omega
  rw [hlen]
  exact h.sum

/-- A store at or after `i` leaves the sum before `i`. -/
theorem Summing.store {shm : Nat → Int} {i : Nat} {chksum : BitVec w} (h : Summing shm i chksum)
    (v : Int) : Summing (Function.update shm i v) i chksum := by
  have hpos := h.pos
  have hzero : Function.update shm i v 0 = shm 0 := Function.update_of_ne (by omega) _ _
  refine ⟨h.pos, by rw [hzero]; exact h.le, ?_⟩
  rw [psum_update shm v (by omega)]
  exact h.sum

/-- What the sender's statement tells of the words. -/
def SenderPc.knows (shm : Nat → Int) : SenderPc w → Prop
  | .fill i chksum => Summing shm i chksum
  | .store i chksum | .add i chksum => Summing shm i chksum ∧ (i : Int) ≤ shm 0
  | .storeSum chksum | .signal chksum => chksum = psum shm (shm 0).toNat
  | .lastSignal => shm 0 = 0
  | _ => True

/-- What the agent's statement tells of the words. -/
def AgentPc.knows (shm : Nat → Int) : AgentPc w → Prop
  | .sum i chksum => Summing shm i chksum
  | .add i chksum => Summing shm i chksum ∧ (i : Int) ≤ shm 0
  | .compare chksum => chksum = psum shm (shm 0).toNat
  | _ => True

/-- What the receiver's statement tells of the words. -/
def ReceiverPc.knows (shm : Nat → Int) : ReceiverPc w → Prop
  | .sum i chksum => Summing shm i chksum
  | .add i chksum => Summing shm i chksum ∧ (i : Int) ≤ shm 0
  | .compare chksum => chksum = psum shm (shm 0).toNat
  | _ => True

namespace State

variable (σ : State w)

/-- The agent has still to check the buffer. -/
def agentDue : Bool := decide (0 < σ.agentsem) || σ.agent.reading

/-- The receiver has still to check the buffer. -/
def receiverDue : Bool := decide (0 < σ.agentsem) || σ.role == .holds || σ.receiver.reading

/-- The buffer that is still to be checked. -/
def due (b : Bool) : List (BitVec w × Int) := if b then [current σ.shm] else []

end State

/-- See the module header. -/
structure Data (σ : State w) : Prop where
  size : 0 ≤ σ.shm 0
  shm_size : 0 ≤ σ.shm_size
  sender : σ.sender.knows σ.shm
  agent : σ.agent.knows σ.shm
  receiver : σ.receiver.knows σ.shm
  agentLog : σ.completed = σ.agentChecked ++ σ.due σ.agentDue
  receiverLog : σ.completed = σ.receiverChecked ++ σ.due σ.receiverDue

variable {σ σ' : State w}

theorem AgentPc.knows_of_not_reading (shm : Nat → Int) {pc : AgentPc w} (h : pc.reading = false) :
    pc.knows shm := by
  cases pc <;> trivial

theorem ReceiverPc.knows_of_not_reading (shm : Nat → Int) {pc : ReceiverPc w}
    (h : pc.reading = false) : pc.knows shm := by
  cases pc <;> trivial

theorem ReceiverPc.not_reading_of_asks {pc : ReceiverPc w} (h : pc.asks = true) :
    pc.reading = false := by
  cases pc <;> first | rfl | cases h

theorem AgentPc.holds_of_reading {pc : AgentPc w} {op : Op} (hcode : pc.codeOk op = true)
    (h : pc.reading = true) : pc.role op = .holds := by
  cases pc with
  | sum i chksum => rw [show op = .two by simpa [AgentPc.codeOk] using hcode]; rfl
  | add i chksum => rw [show op = .two by simpa [AgentPc.codeOk] using hcode]; rfl
  | compare chksum => rw [show op = .two by simpa [AgentPc.codeOk] using hcode]; rfl
  | _ => cases h

/-- While the sender is between its semaphores nobody reads, and nothing is left
to be checked. -/
theorem Roles.quiet (h : Roles σ) (hbetween : σ.sender.between = true) :
    σ.agentsem = 0 ∧ σ.role ≠ .holds ∧ σ.agent.reading = false ∧ σ.receiver.reading = false := by
  have hone := h.one
  unfold State.owners at hone
  rw [hbetween] at hone
  have hbit : true.toNat = 1 := rfl
  have hholds : σ.role ≠ .holds := by
    intro he
    rw [he] at hone
    have hr : (Role.holds == Role.holds).toNat = 1 := rfl
    omega
  have hgave : σ.role ≠ .gave := by
    intro he
    rw [he] at hone
    have hr : (Role.gave == Role.gave).toNat = 1 := rfl
    omega
  have hreturn : σ.agent ≠ .return := by
    intro he
    apply hholds
    unfold State.role
    rw [he]
    rfl
  refine ⟨by omega, hholds, ?_, ReceiverPc.not_reading_of_asks (h.asks hreturn hgave)⟩
  cases hr : σ.agent.reading with
  | false => rfl
  | true => exact absurd (AgentPc.holds_of_reading h.code hr) hholds

theorem Roles.nothing_due (h : Roles σ) (hbetween : σ.sender.between = true) :
    σ.agentDue = false ∧ σ.receiverDue = false := by
  obtain ⟨hsem, hholds, hagent, hreceiver⟩ := h.quiet hbetween
  unfold State.agentDue State.receiverDue
  rw [hsem, hagent, hreceiver]
  simp [hholds]

/-- The sender writes, or moves on between its semaphores. -/
theorem Data.between (h : Data σ) (hr : Roles σ) (hbetween : σ.sender.between = true)
    {shm : Nat → Int} {pc : SenderPc w} (hsize : 0 ≤ shm 0) (hknows : pc.knows shm) :
    Data { σ with shm := shm, sender := pc } := by
  obtain ⟨hsem, hholds, hagent, hreceiver⟩ := hr.quiet hbetween
  obtain ⟨hagentDue, hreceiverDue⟩ := hr.nothing_due hbetween
  refine ⟨hsize, h.shm_size, hknows, AgentPc.knows_of_not_reading _ hagent,
    ReceiverPc.knows_of_not_reading _ hreceiver, ?_, ?_⟩
  · have hlog := h.agentLog
    rw [hagentDue] at hlog
    show σ.completed = σ.agentChecked ++ State.due _ σ.agentDue
    rw [hagentDue]
    exact hlog
  · have hlog := h.receiverLog
    rw [hreceiverDue] at hlog
    show σ.completed = σ.receiverChecked ++ State.due _ σ.receiverDue
    rw [hreceiverDue]
    exact hlog

/-- The sender completes a buffer. -/
theorem Data.complete (h : Data σ) (hr : Roles σ) (hbetween : σ.sender.between = true)
    (pc : SenderPc w) (hknows : pc.knows σ.shm) :
    Data { σ with
      agentsem := σ.agentsem + 1, completed := σ.completed ++ [current σ.shm], sender := pc } := by
  obtain ⟨hsem, hholds, hagent, hreceiver⟩ := hr.quiet hbetween
  obtain ⟨hagentDue, hreceiverDue⟩ := hr.nothing_due hbetween
  refine ⟨h.size, h.shm_size, hknows, h.agent, h.receiver, ?_, ?_⟩
  · have hlog := h.agentLog
    rw [hagentDue] at hlog
    have hlog : σ.completed = σ.agentChecked ++ [] := hlog
    have hnow : ({ σ with
        agentsem := σ.agentsem + 1
        completed := σ.completed ++ [current σ.shm]
        sender := pc } : State w).agentDue = true := by
      simp [State.agentDue]
    rw [hnow]
    show σ.completed ++ [current σ.shm] = σ.agentChecked ++ [current σ.shm]
    rw [hlog, List.append_nil]
  · have hlog := h.receiverLog
    rw [hreceiverDue] at hlog
    have hlog : σ.completed = σ.receiverChecked ++ [] := hlog
    have hnow : ({ σ with
        agentsem := σ.agentsem + 1
        completed := σ.completed ++ [current σ.shm]
        sender := pc } : State w).receiverDue = true := by
      simp [State.receiverDue]
    rw [hnow]
    show σ.completed ++ [current σ.shm] = σ.receiverChecked ++ [current σ.shm]
    rw [hlog, List.append_nil]

/-! ## The sender -/

/-- A step of the sender. -/
theorem Data.senderStep (h : Data σ) (hr : Roles σ) {size : Nat} {rand : Int}
    (hstep : Agent.sender σ size rand = some σ') : Data σ' := by
  have hknows := h.sender
  unfold Agent.sender at hstep
  cases hpc : σ.sender with
  | start =>
      rw [hpc] at hstep
      cases hstep
      exact ⟨h.size, h.size, trivial, h.agent, h.receiver, h.agentLog, h.receiverLog⟩
  | loop =>
      rw [hpc] at hstep
      simp only at hstep
      split at hstep
      · cases hstep
        exact ⟨h.size, h.shm_size, trivial, h.agent, h.receiver, h.agentLog, h.receiverLog⟩
      · cases hstep
        exact ⟨h.size, h.shm_size, trivial, h.agent, h.receiver, h.agentLog, h.receiverLog⟩
  | wait =>
      rw [hpc] at hstep
      simp only at hstep
      split at hstep
      · cases hstep
        exact ⟨h.size, h.shm_size, trivial, h.agent, h.receiver, h.agentLog, h.receiverLog⟩
      · cases hstep
  | draw =>
      rw [hpc] at hstep
      cases hstep
      refine h.between hr (by rw [hpc]; rfl) ?_ trivial
      rw [Function.update_self]
      omega
  | check v =>
      rw [hpc] at hstep
      cases hstep
      split
      · exact h.between hr (by rw [hpc]; rfl) h.size trivial
      · exact h.between hr (by rw [hpc]; rfl) h.size (Summing.start h.size)
  | clamp =>
      rw [hpc] at hstep
      cases hstep
      have hsize : 0 ≤ Function.update σ.shm 0 σ.shm_size 0 := by
        rw [Function.update_self]
        exact h.shm_size
      exact h.between hr (by rw [hpc]; rfl) hsize (Summing.start hsize)
  | fill i chksum =>
      rw [hpc] at hstep hknows
      cases hstep
      by_cases hle : (i : Int) ≤ σ.shm 0
      · rw [if_pos hle]
        exact h.between hr (by rw [hpc]; rfl) h.size ⟨hknows, hle⟩
      · rw [if_neg hle]
        exact h.between hr (by rw [hpc]; rfl) h.size (Summing.done hknows hle)
  | store i chksum =>
      rw [hpc] at hstep hknows
      obtain ⟨hsum, hle⟩ := hknows
      cases hstep
      have hpos := hsum.pos
      have hzero : Function.update σ.shm i rand 0 = σ.shm 0 :=
        Function.update_of_ne (by omega) _ _
      refine h.between hr (by rw [hpc]; rfl) ?_ ⟨hsum.store rand, ?_⟩
      · rw [hzero]
        exact h.size
      · rw [hzero]
        exact hle
  | add i chksum =>
      rw [hpc] at hstep hknows
      cases hstep
      exact h.between hr (by rw [hpc]; rfl) h.size (Summing.next hknows.1 hknows.2)
  | storeSum chksum =>
      rw [hpc] at hstep hknows
      have hknows : chksum = psum σ.shm (σ.shm 0).toNat := hknows
      cases hstep
      have hsize := h.size
      have hpast : (σ.shm 0).toNat < σ.sumWord := by
        unfold State.sumWord
        omega
      have hzero : Function.update σ.shm σ.sumWord (narrow chksum) 0 = σ.shm 0 :=
        Function.update_of_ne (by omega) _ _
      refine h.between hr (by rw [hpc]; rfl) ?_ ?_
      · rw [hzero]
        exact h.size
      · show chksum = psum (Function.update σ.shm σ.sumWord (narrow chksum)) _
        rw [hzero, psum_update σ.shm _ hpast]
        exact hknows
  | signal chksum =>
      rw [hpc] at hstep hknows
      have hknows : chksum = psum σ.shm (σ.shm 0).toNat := hknows
      cases hstep
      have hdone := h.complete hr (by rw [hpc]; rfl) .loop trivial
      unfold current at hdone
      rw [← hknows] at hdone
      exact hdone
  | lastWait =>
      rw [hpc] at hstep
      simp only at hstep
      split at hstep
      · cases hstep
        exact ⟨h.size, h.shm_size, trivial, h.agent, h.receiver, h.agentLog, h.receiverLog⟩
      · cases hstep
  | lastStore =>
      rw [hpc] at hstep
      cases hstep
      refine h.between hr (by rw [hpc]; rfl) ?_ ?_
      · exact Int.le_of_eq (Function.update_self 0 0 σ.shm).symm
      · exact Function.update_self _ _ _
  | lastSignal =>
      rw [hpc] at hstep hknows
      have hknows : σ.shm 0 = 0 := hknows
      cases hstep
      have hdone := h.complete hr (by rw [hpc]; rfl) .ended trivial
      have hcurrent : current (w := w) σ.shm = (0, σ.shm σ.sumWord) := by
        unfold current State.sumWord
        rw [hknows]
        rfl
      rw [hcurrent] at hdone
      exact hdone
  | ended =>
      rw [hpc] at hstep
      cases hstep

/-! ## The agent -/

/-- A move of the agent and the receiver after which both have the same to read
as before. -/
theorem Data.move (h : Data σ) (agent : AgentPc w) (op : Op) (shmsem agentsem : Nat)
    (receiver : ReceiverPc w) (hagent : agent.knows σ.shm) (hreceiver : receiver.knows σ.shm)
    (hagentDue : ({ σ with
      agent := agent, op := op, shmsem := shmsem, agentsem := agentsem, receiver := receiver } :
        State w).agentDue = σ.agentDue)
    (hreceiverDue : ({ σ with
      agent := agent, op := op, shmsem := shmsem, agentsem := agentsem, receiver := receiver } :
        State w).receiverDue = σ.receiverDue) :
    Data { σ with
      agent := agent, op := op, shmsem := shmsem, agentsem := agentsem, receiver := receiver } := by
  refine ⟨h.size, h.shm_size, h.sender, hagent, hreceiver, ?_, ?_⟩
  · rw [hagentDue]
    exact h.agentLog
  · rw [hreceiverDue]
    exact h.receiverLog

/-- A move of the agent that changes neither what it reads nor whether it holds
the data. -/
theorem Data.agentMove (h : Data σ) (pc : AgentPc w) (op : Op) (shmsem : Nat)
    (hknows : pc.knows σ.shm) (hreading : pc.reading = σ.agent.reading)
    (hrole : (pc.role op == .holds) = (σ.role == .holds)) :
    Data { σ with agent := pc, op := op, shmsem := shmsem } := by
  refine h.move pc op shmsem σ.agentsem σ.receiver hknows h.receiver ?_ ?_
  · unfold State.agentDue
    rw [hreading]
  · unfold State.receiverDue
    show (_ || (pc.role op == .holds) || _) = _
    rw [hrole]

/-- The units while the agent holds the data or the receiver does. -/
theorem Roles.no_unit (h : Roles σ) (hrole : σ.role = .holds ∨ σ.role = .gave) :
    σ.agentsem = 0 := by
  have hone := h.one
  unfold State.owners at hone
  rcases hrole with he | he
  · rw [he] at hone
    have hr : (Role.holds == Role.holds).toNat = 1 := rfl
    omega
  · rw [he] at hone
    have hr : (Role.gave == Role.gave).toNat = 1 := rfl
    omega

/-- A step of the agent that stays in its loop. -/
theorem Data.agentStep (h : Data σ) (hr : Roles σ) (hstep : fun_ σ = some σ')
    (hloop : σ'.role ≠ .out) : Data σ' := by
  have hknows := h.agent
  have hcode := hr.code
  unfold fun_ at hstep
  cases hpc : σ.agent with
  | start =>
      rw [hpc] at hstep hcode
      cases hstep
      refine h.agentMove _ _ σ.shmsem trivial (by rw [hpc]; rfl) ?_
      have hop : σ.op = .four := by simpa [AgentPc.codeOk] using hcode
      rw [σ.role_of hpc, hop]
      rfl
  | test =>
      rw [hpc] at hstep
      cases hstep
      by_cases hzero : σ.shm 0 = 0
      · rw [if_pos hzero] at hloop
        exact absurd rfl hloop
      · rw [if_neg hzero]
        exact h.agentMove _ σ.op σ.shmsem trivial (by rw [hpc]; rfl)
          (by rw [σ.role_of hpc]; rfl)
  | switch =>
      rw [hpc] at hstep
      cases hstep
      refine h.agentMove _ σ.op σ.shmsem ?_ ?_ ?_
      · cases σ.op <;> trivial
      · rw [hpc]
        cases σ.op <;> rfl
      · rw [σ.role_of hpc]
        cases σ.op <;> rfl
  | wait_if =>
      rw [hpc] at hstep hcode
      simp only at hstep
      split at hstep
      · rename_i hpos
        cases hstep
        -- a unit is due before, and after it the agent holds the data
        have hdueA : σ.agentDue = true := by simp [State.agentDue, hpos]
        have hdueR : σ.receiverDue = true := by simp [State.receiverDue, hpos]
        refine h.move _ _ σ.shmsem _ σ.receiver (Summing.start h.size) h.receiver ?_ ?_
        · rw [hdueA]
          simp [State.agentDue, AgentPc.reading]
        · rw [hdueR]
          simp [State.receiverDue, State.role, AgentPc.role, Op.role]
      · cases hstep
        exact h.agentMove _ σ.op σ.shmsem trivial (by rw [hpc]; rfl)
          (by rw [σ.role_of hpc]; rfl)
  | sum i chksum =>
      rw [hpc] at hstep hknows
      cases hstep
      by_cases hle : (i : Int) ≤ σ.shm 0
      · rw [if_pos hle]
        exact h.agentMove _ σ.op σ.shmsem ⟨hknows, hle⟩ (by rw [hpc]; rfl)
          (by rw [σ.role_of hpc]; rfl)
      · rw [if_neg hle]
        exact h.agentMove _ σ.op σ.shmsem (Summing.done hknows hle)
          (by rw [hpc]; rfl) (by rw [σ.role_of hpc]; rfl)
  | add i chksum =>
      rw [hpc] at hstep hknows
      cases hstep
      exact h.agentMove _ σ.op σ.shmsem (Summing.next hknows.1 hknows.2)
        (by rw [hpc]; rfl) (by rw [σ.role_of hpc]; rfl)
  | compare chksum =>
      rw [hpc] at hstep hknows hcode
      have hknows : chksum = psum σ.shm (σ.shm 0).toNat := hknows
      cases hstep
      have hop : σ.op = .two := by simpa [AgentPc.codeOk] using hcode
      have hrole : σ.role = .holds := by rw [σ.role_of hpc, hop]; rfl
      have hzero := hr.no_unit (.inl hrole)
      have hdue : σ.agentDue = true := by simp [State.agentDue, hpc, AgentPc.reading]
      have hlog := h.agentLog
      rw [hdue] at hlog
      refine ⟨h.size, h.shm_size, h.sender, trivial, h.receiver, ?_, ?_⟩
      · have hnow : ({ σ with
            agentChecked := σ.agentChecked ++ [(chksum, σ.shm σ.sumWord)]
            agent := .receive_rpc } : State w).agentDue = false := by
          simp [State.agentDue, AgentPc.reading, hzero]
        rw [hnow, hknows]
        show σ.completed = σ.agentChecked ++ [current σ.shm] ++ []
        rw [List.append_nil]
        exact hlog
      · have hsame : ({ σ with
            agentChecked := σ.agentChecked ++ [(chksum, σ.shm σ.sumWord)]
            agent := .receive_rpc } : State w).receiverDue = σ.receiverDue := by
          unfold State.receiverDue State.role
          rw [hpc]
          rfl
        rw [hsame]
        exact h.receiverLog
  | receive_rpc =>
      rw [hpc] at hstep hcode
      have hop : σ.op = .two := by simpa [AgentPc.codeOk] using hcode
      have hrole : σ.role = .holds := by rw [σ.role_of hpc, hop]; rfl
      simp only at hstep
      split at hstep
      · rename_i receiver hreceived
        cases hstep
        have hasks := hr.asks (by rw [hpc]; simp) (by rw [hrole]; simp)
        rw [ReceiverPc.received_asks hasks hreceived]
        refine h.move _ _ σ.shmsem σ.agentsem _ trivial trivial ?_ ?_
        · unfold State.agentDue
          rw [hpc]
          rfl
        · unfold State.receiverDue
          rw [ReceiverPc.not_reading_of_asks hasks, hrole]
          rfl
      · cases hstep
        exact h.agentMove _ σ.op σ.shmsem trivial (by rw [hpc]; rfl)
          (by rw [σ.role_of hpc]; rfl)
  | «return» =>
      rw [hpc] at hstep
      cases hstep
      have htaken := hr.taken hpc
      have hrole : σ.role = .holds := σ.role_of hpc
      rw [htaken]
      refine h.move _ σ.op σ.shmsem σ.agentsem _ trivial trivial ?_ ?_
      · unfold State.agentDue
        rw [hpc]
        rfl
      · have hdue : σ.receiverDue = true := by simp [State.receiverDue, hrole]
        rw [hdue]
        simp [State.receiverDue, ReceiverPc.answered, ReceiverPc.reading]
  | receive_send =>
      rw [hpc] at hstep hcode
      have hop : σ.op = .three := by simpa [AgentPc.codeOk] using hcode
      have hrole : σ.role = .gave := by rw [σ.role_of hpc, hop]; rfl
      simp only at hstep
      split at hstep
      · rename_i receiver hreceived
        cases hstep
        have howns := hr.owns (by rw [hpc]; simp) hrole
        obtain ⟨hsend, rfl⟩ := ReceiverPc.received_owns howns hreceived
        refine h.move _ σ.op σ.shmsem σ.agentsem _ trivial trivial ?_ ?_
        · unfold State.agentDue
          rw [hpc]
          rfl
        · unfold State.receiverDue
          rw [hrole, hsend]
          rfl
      · cases hstep
        exact h.agentMove _ σ.op σ.shmsem trivial (by rw [hpc]; rfl)
          (by rw [σ.role_of hpc]; rfl)
  | signal =>
      rw [hpc] at hstep
      cases hstep
      exact h.agentMove _ _ (σ.shmsem + 1) trivial (by rw [hpc]; rfl)
        (by rw [σ.role_of hpc]; rfl)
  | period =>
      rw [hpc] at hstep
      cases hstep
      exact h.agentMove _ σ.op σ.shmsem trivial (by rw [hpc]; rfl)
        (by rw [σ.role_of hpc]; rfl)
  | lastReceive =>
      rw [hpc] at hstep
      simp only at hstep
      split at hstep
      · cases hstep
        exact absurd rfl hloop
      · cases hstep
        exact h
  | lastReturn =>
      rw [hpc] at hstep
      cases hstep
      exact absurd rfl hloop
  | ended =>
      rw [hpc] at hstep
      cases hstep

/-! ## The receiver -/

/-- A move of the receiver that does not change what it reads. -/
theorem Data.receiverMove (h : Data σ) {pc : ReceiverPc w} (hknows : pc.knows σ.shm)
    (hreading : pc.reading = σ.receiver.reading) : Data { σ with receiver := pc } := by
  refine h.move σ.agent σ.op σ.shmsem σ.agentsem pc h.agent hknows rfl ?_
  unfold State.receiverDue
  rw [hreading]
  rfl

/-- A receiver that reads owns the data. -/
theorem Roles.reading (h : Roles σ) (hreading : σ.receiver.reading = true) :
    σ.role = .gave ∧ σ.receiver.owns = true := by
  have hreturn : σ.agent ≠ .return := by
    intro he
    rw [h.taken he] at hreading
    cases hreading
  by_cases hgave : σ.role = .gave
  · exact ⟨hgave, h.owns hreturn hgave⟩
  · rw [ReceiverPc.not_reading_of_asks (h.asks hreturn hgave)] at hreading
    cases hreading

/-- A step of the receiver. -/
theorem Data.receiverStep (h : Data σ) (hr : Roles σ) (hstep : Agent.receiver σ = some σ') :
    Data σ' := by
  have hknows := h.receiver
  unfold Agent.receiver at hstep
  cases hpc : σ.receiver with
  | callRpc =>
      rw [hpc] at hstep
      cases hstep
      exact h.receiverMove trivial (by rw [hpc]; rfl)
  | returned msg =>
      have howns := (hr.reading (by rw [hpc]; rfl)).2
      rw [hpc] at hstep howns
      have hmsg : msg = request := by simpa [ReceiverPc.owns] using howns
      cases hstep
      rw [hmsg, if_pos (by decide)]
      exact h.receiverMove (Summing.start h.size) (by rw [hpc]; rfl)
  | sum i chksum =>
      rw [hpc] at hstep hknows
      cases hstep
      by_cases hle : (i : Int) ≤ σ.shm 0
      · rw [if_pos hle]
        exact h.receiverMove ⟨hknows, hle⟩ (by rw [hpc]; rfl)
      · rw [if_neg hle]
        exact h.receiverMove (Summing.done hknows hle) (by rw [hpc]; rfl)
  | add i chksum =>
      rw [hpc] at hstep hknows
      cases hstep
      exact h.receiverMove (Summing.next hknows.1 hknows.2) (by rw [hpc]; rfl)
  | compare chksum =>
      have hgave := (hr.reading (by rw [hpc]; rfl)).1
      rw [hpc] at hstep hknows
      have hknows : chksum = psum σ.shm (σ.shm 0).toNat := hknows
      cases hstep
      have hzero := hr.no_unit (.inr hgave)
      have hdue : σ.receiverDue = true := by simp [State.receiverDue, hpc, ReceiverPc.reading]
      have hlog := h.receiverLog
      rw [hdue] at hlog
      refine ⟨h.size, h.shm_size, h.sender, h.agent, trivial, h.agentLog, ?_⟩
      have hnow : ({ σ with
          receiverChecked := σ.receiverChecked ++ [(chksum, σ.shm σ.sumWord)]
          receiver := .callSend } : State w).receiverDue = false := by
        have hrole : ({ σ with
          receiverChecked := σ.receiverChecked ++ [(chksum, σ.shm σ.sumWord)]
          receiver := .callSend } : State w).role = .gave := hgave
        unfold State.receiverDue
        rw [hrole]
        simp [ReceiverPc.reading, hzero]
      rw [hnow, hknows]
      show σ.completed = σ.receiverChecked ++ [current σ.shm] ++ []
      rw [List.append_nil]
      exact hlog
  | callSend =>
      rw [hpc] at hstep
      cases hstep
      exact h.receiverMove trivial (by rw [hpc]; rfl)
  | rpc => rw [hpc] at hstep; cases hstep
  | taken => rw [hpc] at hstep; cases hstep
  | send => rw [hpc] at hstep; cases hstep
  | ended => rw [hpc] at hstep; cases hstep

end RtaiDemos.Agent
