import Mathlib.Algebra.Order.BigOperators.Group.List
import Mathlib.Algebra.Order.Ring.Int
import RtaiDemos.Agent.Theorems.Termination

/-!
# When the agent's checksum gives a false alarm

The sender's loop over given words, and the loops of the agent and of the
receiver over a buffer that nobody has altered. All three sum in `unsigned long`;
the sum is stored as an `int`, and its sign is extended for the comparison.
-/

namespace RtaiDemos.Agent

variable {w : Nat}

/-- The sender's steps from the head of its loop to `rt_sem_signal(agentsem)`. -/
def fillRun : List Int → List Label
  | [] => [.sender 0 0, .sender 0 0]
  | x :: words => .sender 0 0 :: .sender 0 x :: .sender 0 0 :: fillRun words

/-- The buffer holds `words` from index `i` on, and `sum` after them. -/
def HoldsFrom (shm : Nat → Int) : Nat → List Int → Int → Prop
  | i, [], sum => shm i = sum
  | i, x :: words, sum => shm i = x ∧ HoldsFrom shm (i + 1) words sum

theorem widen_add (x y : Int) : widen (w := w) (x + y) = widen x + widen y :=
  BitVec.ofInt_add x y

/-- The sender's loop from index `i` on. -/
theorem fill_run (words : List Int) {σ : State w} {i : Nat} {chksum : BitVec w}
    (hsender : σ.sender = .fill i chksum) (hpos : 0 < i)
    (hsize : σ.shm 0 + 1 = i + words.length) :
    ∃ σ', (machine w).run σ (fillRun words) = some σ' ∧
      σ'.sender = .signal (chksum + widen words.sum) ∧
      (∀ k < i, σ'.shm k = σ.shm k) ∧
      HoldsFrom σ'.shm i words (narrow (chksum + widen (w := w) words.sum)) := by
  induction words generalizing σ i chksum with
  | nil =>
      have hnot : ¬ (i : Int) ≤ σ.shm 0 := by
        rw [List.length_nil] at hsize
        omega
      have hword : σ.sumWord = i := by
        unfold State.sumWord
        rw [hsize, List.length_nil]
        omega
      have hsum : chksum + widen (w := w) ([] : List Int).sum = chksum := by
        show chksum + BitVec.ofInt w 0 = chksum
        simp
      have htest : step σ (.sender 0 0) = some { σ with sender := .storeSum chksum } := by
        simp only [step, sender, hsender, if_neg hnot]
      rw [hsum]
      refine ⟨{ σ with shm := Function.update σ.shm i (narrow chksum), sender := .signal chksum },
        ?_, rfl, ?_, ?_⟩
      · show (step σ (.sender 0 0)).bind _ = _
        rw [htest]
        show some _ = some _
        rw [show State.sumWord { σ with sender := .storeSum chksum } = i from hword]
      · intro k hk
        exact Function.update_of_ne (by omega) _ _
      · exact Function.update_self _ _ _
  | cons x words ih =>
      have hle : (i : Int) ≤ σ.shm 0 := by
        rw [List.length_cons] at hsize
        push_cast at hsize
        omega
      have hzero : Function.update σ.shm i x 0 = σ.shm 0 := Function.update_of_ne (by omega) _ _
      have htest : step σ (.sender 0 0) = some { σ with sender := .store i chksum } := by
        simp only [step, sender, hsender, if_pos hle]
      obtain ⟨σ', hrun, hsignal, hkept, hholds⟩ :=
        ih (σ := { σ with
            shm := Function.update σ.shm i x
            sender := .fill (i + 1) (chksum + widen (Function.update σ.shm i x i)) })
          rfl (Nat.succ_pos i) (by
            show Function.update σ.shm i x 0 + 1 = _
            rw [hzero, hsize, List.length_cons]
            push_cast
            omega)
      have hchksum : chksum + widen (Function.update σ.shm i x i) + widen words.sum =
          chksum + widen (w := w) (x :: words).sum := by
        rw [Function.update_self, List.sum_cons, widen_add, BitVec.add_assoc]
      rw [hchksum] at hsignal hholds
      refine ⟨σ', ?_, hsignal, ?_, ?_, hholds⟩
      · show (step σ (.sender 0 0)).bind _ = _
        rw [htest]
        exact hrun
      · intro k hk
        rw [hkept k (by omega)]
        exact Function.update_of_ne (by omega) _ _
      · rw [hkept i (Nat.lt_succ_self i)]
        exact Function.update_self _ _ _

/-- What the loops of the agent and the receiver find in such a buffer. -/
theorem HoldsFrom.psum {shm : Nat → Int} {words : List Int} {i : Nat} {sum : Int}
    (h : HoldsFrom shm (i + 1) words sum) :
    psum (w := w) shm (i + words.length) = psum shm i + widen words.sum ∧
      shm (i + words.length + 1) = sum := by
  induction words generalizing i with
  | nil =>
      refine ⟨?_, h⟩
      show _ = Agent.psum shm i + BitVec.ofInt w 0
      simp
  | cons x words ih =>
      obtain ⟨hsum, hword⟩ := ih h.2
      rw [List.length_cons, Nat.add_comm words.length, ← Nat.add_assoc]
      refine ⟨?_, hword⟩
      rw [hsum, List.sum_cons, widen_add, ← BitVec.add_assoc, ← h.1]
      rfl

/-- The agent's loop over a buffer with `n` words still to be summed, and its comparison. -/
theorem agent_check (n : Nat) {σ : State w} {i : Nat} {chksum : BitVec w}
    (hagent : σ.agent = .sum i chksum) (hsum : Summing σ.shm i chksum)
    (hleft : σ.shm 0 + 1 = i + n) :
    (machine w).run σ (List.replicate (2 * n + 2) .agent) = some { σ with
      agentChecked := σ.agentChecked ++ [current σ.shm], agent := .receive_rpc } := by
  induction n generalizing σ i chksum with
  | zero =>
      have hnot : ¬ (i : Int) ≤ σ.shm 0 := by omega
      have htest : step σ .agent = some { σ with agent := .compare chksum } := by
        simp only [step, fun_, hagent, if_neg hnot]
      show (step σ .agent).bind _ = _
      rw [htest, current, ← hsum.done hnot]
      rfl
  | succ n ih =>
      have hle : (i : Int) ≤ σ.shm 0 := by omega
      have htest : step σ .agent = some { σ with agent := .add i chksum } := by
        simp only [step, fun_, hagent, if_pos hle]
      show (step σ .agent).bind _ = _
      rw [htest]
      exact ih (σ := { σ with agent := .sum (i + 1) (chksum + widen (σ.shm i)) }) rfl
        (hsum.next hle) (by dsimp only; push_cast; omega)

/-- The receiver's, likewise. -/
theorem receiver_check (n : Nat) {σ : State w} {i : Nat} {chksum : BitVec w}
    (hreceiver : σ.receiver = .sum i chksum) (hsum : Summing σ.shm i chksum)
    (hleft : σ.shm 0 + 1 = i + n) :
    (machine w).run σ (List.replicate (2 * n + 2) .receiver) = some { σ with
      receiverChecked := σ.receiverChecked ++ [current σ.shm], receiver := .callSend } := by
  induction n generalizing σ i chksum with
  | zero =>
      have hnot : ¬ (i : Int) ≤ σ.shm 0 := by omega
      have htest : step σ .receiver = some { σ with receiver := .compare chksum } := by
        simp only [step, receiver, hreceiver, if_neg hnot]
      show (step σ .receiver).bind _ = _
      rw [htest, current, ← hsum.done hnot]
      rfl
  | succ n ih =>
      have hle : (i : Int) ≤ σ.shm 0 := by omega
      have htest : step σ .receiver = some { σ with receiver := .add i chksum } := by
        simp only [step, receiver, hreceiver, if_pos hle]
      show (step σ .receiver).bind _ = _
      rw [htest]
      exact ih (σ := { σ with receiver := .sum (i + 1) (chksum + widen (σ.shm i)) }) rfl
        (hsum.next hle) (by dsimp only; push_cast; omega)

/-- The sum survives the `int` between the loops if `unsigned long` is no wider
or if the sign bit of the `int` stays clear. -/
theorem widen_narrow_iff (hw : w = 32 ∨ w = 64) {sum : Int} (hpos : 0 ≤ sum)
    (hmax : sum < 2 ^ 43) :
    widen (w := w) sum = widen (narrow (widen (w := w) sum)) ↔ w = 32 ∨ sum < 2 ^ 31 := by
  rcases hw with rfl | rfl
  · refine iff_of_true ?_ (.inl rfl)
    unfold widen narrow
    rw [BitVec.setWidth_eq, BitVec.ofInt_toInt]
  · have hnarrow : narrow (widen (w := 64) sum) = sum.bmod (2 ^ 32) := by
      unfold widen narrow
      rw [BitVec.toInt_setWidth, BitVec.toNat_ofInt, Int.toNat_of_nonneg (by omega),
        Int.emod_eq_of_lt hpos (by omega)]
    unfold widen at hnarrow ⊢
    rw [hnarrow, ← BitVec.toNat_inj, BitVec.toNat_ofInt, BitVec.toNat_ofInt, Int.bmod_def]
    split <;> omega

theorem sum_words {words : List Int} (hmax : (words.length : Int) ≤ SHMSIZE)
    (hwords : ∀ x ∈ words, 0 ≤ x ∧ x < 2 ^ 31) : 0 ≤ words.sum ∧ words.sum < 2 ^ 43 := by
  have hle := List.sum_le_card_nsmul words (2 ^ 31) fun x hx => Int.le_of_lt (hwords x hx).2
  rw [nsmul_eq_mul] at hle
  unfold SHMSIZE at hmax
  exact ⟨List.sum_nonneg fun x hx => (hwords x hx).1, by omega⟩

/-- **When the checksum is right.** The sender fills the buffer with `words` and
their sum. A check of that buffer, by the agent or by the receiver, compares equal
sums if and only if `unsigned long` has the width of `int` or the sum is an `int`. -/
theorem checksum_agrees_iff (hw : w = 32 ∨ w = 64) (words : List Int)
    (hmax : (words.length : Int) ≤ SHMSIZE) (hwords : ∀ x ∈ words, 0 ≤ x ∧ x < 2 ^ 31)
    {σ : State w} (hsender : σ.sender = .fill 1 0) (hsize : σ.shm 0 = words.length) :
    ∃ filled chksum, (machine w).run σ (fillRun words) = some filled ∧
      filled.sender = .signal chksum ∧ filled.shm 0 = words.length ∧
      HoldsFrom filled.shm 1 words (narrow chksum) ∧
      ∀ τ : State w, τ.shm = filled.shm →
        (τ.agent = .sum 1 0 → ∃ τ' sum word,
          (machine w).run τ (List.replicate (2 * words.length + 2) .agent) = some τ' ∧
          τ'.agentChecked = τ.agentChecked ++ [(sum, word)] ∧
          (sum = widen word ↔ w = 32 ∨ words.sum < 2 ^ 31)) ∧
        (τ.receiver = .sum 1 0 → ∃ τ' sum word,
          (machine w).run τ (List.replicate (2 * words.length + 2) .receiver) = some τ' ∧
          τ'.receiverChecked = τ.receiverChecked ++ [(sum, word)] ∧
          (sum = widen word ↔ w = 32 ∨ words.sum < 2 ^ 31)) := by
  obtain ⟨hpos, hlt⟩ := sum_words hmax hwords
  obtain ⟨filled, hrun, hsignal, hkept, hholds⟩ :=
    fill_run words hsender Nat.one_pos (by omega)
  rw [show (0 : BitVec w) + widen words.sum = widen words.sum from BitVec.zero_add _]
    at hsignal hholds
  have hzero : filled.shm 0 = words.length := (hkept 0 Nat.one_pos).trans hsize
  have hagrees : (current (w := w) filled.shm).1 = widen (current (w := w) filled.shm).2 ↔
      w = 32 ∨ words.sum < 2 ^ 31 := by
    obtain ⟨hsum, hword⟩ := HoldsFrom.psum (w := w) (i := 0) hholds
    rw [Nat.zero_add] at hsum hword
    have hentry : current (w := w) filled.shm =
        (widen words.sum, narrow (widen (w := w) words.sum)) := by
      unfold current
      rw [hzero]
      refine Prod.ext ?_ ?_
      · exact hsum.trans (BitVec.zero_add _)
      · exact hword
    rw [hentry]
    exact widen_narrow_iff hw hpos hlt
  refine ⟨filled, _, hrun, hsignal, hzero, hholds, ?_⟩
  intro τ hτ
  have hsum : Summing (w := w) τ.shm 1 0 := Summing.start (by rw [hτ, hzero]; omega)
  have hleft : τ.shm 0 + 1 = (1 : Nat) + words.length := by
    rw [hτ, hzero]
    omega
  rw [← hτ] at hagrees
  refine ⟨?_, ?_⟩
  · intro hagent
    exact ⟨_, _, _, agent_check words.length hagent hsum hleft, rfl, hagrees⟩
  · intro hreceiver
    exact ⟨_, _, _, receiver_check words.length hreceiver hsum hleft, rfl, hagrees⟩

/-- The sender at its loop, over a buffer of two words. -/
def twoWords : State 64 := { initState 64 (fun _ => 0) with shm := fun _ => 2, sender := .fill 1 0 }

theorem checksum_agrees_twoWords : ∃ filled, (machine 64).run twoWords (fillRun [5, 7]) = some filled ∧
    ∀ τ : State 64, τ.shm = filled.shm → τ.agent = .sum 1 0 → ∃ τ' sum word,
      (machine 64).run τ (List.replicate 6 .agent) = some τ' ∧
      τ'.agentChecked = τ.agentChecked ++ [(sum, word)] ∧ sum = widen word := by
  obtain ⟨filled, _, hrun, _, _, _, hchecks⟩ :=
    checksum_agrees_iff (σ := twoWords) (.inr rfl) [5, 7] (by decide) (by decide) rfl rfl
  refine ⟨filled, hrun, ?_⟩
  intro τ hτ hagent
  obtain ⟨τ', sum, word, hcheck, hlog, hagrees⟩ := (hchecks τ hτ).1 hagent
  exact ⟨τ', sum, word, hcheck, hlog, hagrees.mpr (.inr (by decide))⟩

/-- A first round with the words `RAND_MAX` and 1, up to the checks of the agent and
of the receiver. -/
def alarmRun : List Label :=
  pollRun 2 ++ .sender 0 0 :: fillRun [2147483647, 1] ++ [.sender 0 0, .receiver, .agent, .agent] ++
    List.replicate 6 .agent ++ [.agent, .agent, .receiver] ++ List.replicate 6 .receiver

/-- With 64 bits both raise an alarm over a buffer that is as the sender left it. -/
theorem checksum_false_alarm : ∃ σ : State 64,
    (machine 64).run (initState 64 fun _ => 0) alarmRun = some σ ∧
      σ.agentChecked = [(2147483648, -2147483648)] ∧
      σ.receiverChecked = [(2147483648, -2147483648)] ∧
      (2147483648 : BitVec 64) ≠ widen (-2147483648) := by
  have hrun : (machine 64).leadsTo (initState 64 fun _ => 0) alarmRun
      (fun σ => σ.agentChecked == [(2147483648, -2147483648)] &&
        σ.receiverChecked == [(2147483648, -2147483648)]) = true := by decide
  obtain ⟨σ, hσ, hask⟩ := TSys.run_of_leadsTo hrun
  rw [Bool.and_eq_true_iff, beq_iff_eq, beq_iff_eq] at hask
  exact ⟨σ, hσ, hask.1, hask.2, by decide⟩

end RtaiDemos.Agent
