import RtaiDemos.Tscsync.Machine

/-!
# The handshake

In each round the slave asks, the master answers with a reading of its counter,
and neither writes a word while the other may read it: `go[SLAVE]` is written
and read under `tsclock`, and cleared when the master waits for the next round.
`Inv` says so for every pair of control points that occur together.
-/

namespace RtaiDemos.Tscsync

variable {P : Params} {σ σ' : State} {n : Nat}

/-! ## Words -/

theorem Word.value_of (x : Int) : (Word.of x).value = x := by
  show x % 4294967296 + 4294967296 * (x / 4294967296) = x
  omega

theorem Word.join_get (w : Word) (h : Half) : Word.join h (w.get h) (w.get h.other) = w.value := by
  cases h <;> rfl

/-- Both halves written, in either order. -/
theorem Word.put_put (w : Word) (x : Int) (h : Half) : (w.put x h).put x h.other = Word.of x := by
  cases h <;> rfl

/-! ## What the master does in a round -/

/-- The master waits to be asked for round `n`, or has done them all. -/
def Rest (σ : State) (n : Nat) : Prop :=
  σ.ipi = false ∧ σ.goMaster = 0 ∧
    (n < NUM_ITERS ∧ σ.master = .wait ∧ σ.masterIter = n ∨ n = NUM_ITERS ∧ σ.master = .idle)

/-- A reading that the master has made since the slave read `t0`. -/
def Stamped (P : Params) (σ : State) (v : Int) : Prop :=
  σ.s0 ≤ σ.sm ∧ σ.sm ≤ σ.time ∧ v = u64 (σ.sm + σ.shift P MASTER_CPU)

/-- The master has been asked for round `n` and is not done with it. -/
def Busy (P : Params) (σ : State) (n : Nat) : Prop :=
  σ.ipi = false ∧ σ.masterIter = n ∧ n < NUM_ITERS ∧
    match σ.master with
    | .wait | .clear => σ.goMaster = 1 ∧ σ.goSlave = Word.of 0 ∧ σ.tsclock ≠ some .master
    | .lock => σ.goMaster = 0 ∧ σ.goSlave = Word.of 0 ∧ σ.tsclock ≠ some .master
    | .read => σ.goMaster = 0 ∧ σ.goSlave = Word.of 0 ∧ σ.tsclock = some .master
    | .store v => σ.goMaster = 0 ∧ Stamped P σ v ∧ σ.tsclock = some .master
    | .store2 h v =>
        σ.goMaster = 0 ∧ Stamped P σ v ∧ σ.tsclock = some .master ∧
          σ.goSlave.put v h.other = Word.of v
    | .unlock =>
        σ.goMaster = 0 ∧ σ.tsclock = some .master ∧ ∃ v, σ.goSlave = Word.of v ∧ Stamped P σ v
    | _ => False

/-- The master has answered in round `n`. -/
def Served (P : Params) (σ : State) (n : Nat) : Prop :=
  Rest σ (n + 1) ∧ σ.tsclock ≠ some .master ∧ ∃ v, σ.goSlave = Word.of v ∧ Stamped P σ v

/-- The slave has read `t0`. -/
def Asked (P : Params) (σ : State) : Prop :=
  σ.s0 ≤ σ.time ∧ σ.t0 = u64 (σ.s0 + σ.shift P σ.cpu)

/-- Nothing is under way on the words. -/
def Clear (σ : State) : Prop := σ.goSlave = Word.of 0 ∧ σ.tsclock = none

/-- The invariant. -/
def Inv (P : Params) (σ : State) : Prop :=
  σ.ofst MASTER_CPU = 0 ∧ (σ.slave ≠ .idle → σ.cpu ≠ MASTER_CPU) ∧
    match σ.slave with
    | .idle | .mark => Clear σ ∧ σ.ipi = false ∧ σ.master = .idle
    | .call => Clear σ ∧ σ.ipi = false ∧ σ.master = .idle ∧ σ.goMaster = 1
    | .ready =>
        Clear σ ∧ (σ.ipi = true ∧ σ.master = .idle ∧ σ.goMaster = 1 ∨
          σ.ipi = false ∧ σ.master = .enter ∧ σ.goMaster = 1 ∨ Rest σ 0)
    | .start => Clear σ ∧ Rest σ σ.iter ∧ σ.iter < NUM_ITERS
    | .ask => Clear σ ∧ Rest σ σ.iter ∧ σ.iter < NUM_ITERS ∧ Asked P σ
    | .lock => Asked P σ ∧ σ.tsclock ≠ some .slave ∧ (Busy P σ σ.iter ∨ Served P σ σ.iter)
    | .load | .retry =>
        Asked P σ ∧ σ.tsclock = some .slave ∧ (Busy P σ σ.iter ∨ Served P σ σ.iter)
    | .load2 h x =>
        Asked P σ ∧ σ.tsclock = some .slave ∧ (Busy P σ σ.iter ∨ Served P σ σ.iter) ∧
          x = σ.goSlave.get h
    | .test =>
        Asked P σ ∧ σ.tsclock = some .slave ∧ (Busy P σ σ.iter ∨ Served P σ σ.iter) ∧
          σ.tm = σ.goSlave.value
    | .unlock =>
        Asked P σ ∧ σ.tsclock = some .slave ∧ Rest σ (σ.iter + 1) ∧ Stamped P σ σ.tm
    | .clear => Asked P σ ∧ σ.tsclock = none ∧ Rest σ (σ.iter + 1) ∧ Stamped P σ σ.tm
    | .clear2 h =>
        Asked P σ ∧ σ.tsclock = none ∧ Rest σ (σ.iter + 1) ∧ Stamped P σ σ.tm ∧
          σ.goSlave.put 0 h.other = Word.of 0
    | .stop => Asked P σ ∧ Clear σ ∧ Rest σ (σ.iter + 1) ∧ Stamped P σ σ.tm
    | .finish => Clear σ ∧ Rest σ NUM_ITERS ∧ σ.iter = NUM_ITERS

/-! ## Time passes -/

theorem Inv.delay (h : Inv P σ) (d : Nat) : Inv P { σ with time := σ.time + d } := by
  have hst : ∀ v, Stamped P σ v → Stamped P { σ with time := σ.time + d } v := by
    rintro v ⟨h₀, h₁, hv⟩
    exact ⟨h₀, Nat.le_trans h₁ (Nat.le_add_right _ _), hv⟩
  have hasked : Asked P σ → Asked P { σ with time := σ.time + d } := by
    rintro ⟨h₀, ht⟩
    exact ⟨Nat.le_trans h₀ (Nat.le_add_right _ _), ht⟩
  have hserve : Busy P σ σ.iter ∨ Served P σ σ.iter →
      Busy P { σ with time := σ.time + d } σ.iter ∨
        Served P { σ with time := σ.time + d } σ.iter := by
    rintro (⟨hipi, hiter, hlt, hm⟩ | ⟨hrest, hlock, v, hv, hstamp⟩)
    · refine .inl ⟨hipi, hiter, hlt, ?_⟩
      cases hpc : σ.master with
      | store v =>
          rw [hpc] at hm
          exact ⟨hm.1, hst v hm.2.1, hm.2.2⟩
      | store2 h v =>
          rw [hpc] at hm
          exact ⟨hm.1, hst v hm.2.1, hm.2.2⟩
      | unlock =>
          rw [hpc] at hm
          obtain ⟨hgo, hlock, v, hv, hstamp⟩ := hm
          exact ⟨hgo, hlock, v, hv, hst v hstamp⟩
      | _ => rw [hpc] at hm; exact hm
    · exact .inr ⟨hrest, hlock, v, hv, hst v hstamp⟩
  obtain ⟨hofst, hcpu, hpc⟩ := h
  refine ⟨hofst, hcpu, ?_⟩
  cases hs : σ.slave with
  | ask => rw [hs] at hpc; exact ⟨hpc.1, hpc.2.1, hpc.2.2.1, hasked hpc.2.2.2⟩
  | lock => rw [hs] at hpc; exact ⟨hasked hpc.1, hpc.2.1, hserve hpc.2.2⟩
  | load => rw [hs] at hpc; exact ⟨hasked hpc.1, hpc.2.1, hserve hpc.2.2⟩
  | retry => rw [hs] at hpc; exact ⟨hasked hpc.1, hpc.2.1, hserve hpc.2.2⟩
  | load2 h x => rw [hs] at hpc; exact ⟨hasked hpc.1, hpc.2.1, hserve hpc.2.2.1, hpc.2.2.2⟩
  | test => rw [hs] at hpc; exact ⟨hasked hpc.1, hpc.2.1, hserve hpc.2.2.1, hpc.2.2.2⟩
  | unlock => rw [hs] at hpc; exact ⟨hasked hpc.1, hpc.2.1, hpc.2.2.1, hst _ hpc.2.2.2⟩
  | clear => rw [hs] at hpc; exact ⟨hasked hpc.1, hpc.2.1, hpc.2.2.1, hst _ hpc.2.2.2⟩
  | clear2 h =>
      rw [hs] at hpc
      exact ⟨hasked hpc.1, hpc.2.1, hpc.2.2.1, hst _ hpc.2.2.2.1, hpc.2.2.2.2⟩
  | stop => rw [hs] at hpc; exact ⟨hasked hpc.1, hpc.2.1, hpc.2.2.1, hst _ hpc.2.2.2⟩
  | _ => rw [hs] at hpc; exact hpc

/-! ## The master's steps -/

/-- What the slave and the history keep through a step of the master. -/
structure SlaveSame (σ σ' : State) : Prop where
  time : σ'.time = σ.time
  tune : σ'.tune = σ.tune
  ofst : σ'.ofst = σ.ofst
  cpu : σ'.cpu = σ.cpu
  slave : σ'.slave = σ.slave
  iter : σ'.iter = σ.iter
  t0 : σ'.t0 = σ.t0
  tm : σ'.tm = σ.tm
  best : σ'.best = σ.best
  s0 : σ'.s0 = σ.s0
  rounds : σ'.rounds = σ.rounds
  measured : σ'.measured = σ.measured

theorem masterStep_same {h : Half} (hs : masterStep P σ h = some σ') : SlaveSame σ σ' := by
  unfold masterStep at hs
  split at hs
  · split at hs
    · cases hs
      exact ⟨rfl, rfl, rfl, rfl, rfl, rfl, rfl, rfl, rfl, rfl, rfl, rfl⟩
    · cases hs
  · cases hs
    exact ⟨rfl, rfl, rfl, rfl, rfl, rfl, rfl, rfl, rfl, rfl, rfl, rfl⟩
  · cases hs
    split <;> exact ⟨rfl, rfl, rfl, rfl, rfl, rfl, rfl, rfl, rfl, rfl, rfl, rfl⟩
  · cases hs
    exact ⟨rfl, rfl, rfl, rfl, rfl, rfl, rfl, rfl, rfl, rfl, rfl, rfl⟩
  · split at hs
    · cases hs
      exact ⟨rfl, rfl, rfl, rfl, rfl, rfl, rfl, rfl, rfl, rfl, rfl, rfl⟩
    · cases hs
  all_goals
    cases hs
    exact ⟨rfl, rfl, rfl, rfl, rfl, rfl, rfl, rfl, rfl, rfl, rfl, rfl⟩

theorem SlaveSame.shift (h : SlaveSame σ σ') (c : Cpu) : σ'.shift P c = σ.shift P c := by
  unfold State.shift
  rw [h.tune, h.ofst]

theorem SlaveSame.asked (h : SlaveSame σ σ') (ha : Asked P σ) : Asked P σ' := by
  unfold Asked
  rw [h.s0, h.time, h.t0, h.cpu, h.shift]
  exact ha

/-- A master that waits for the next round, or is done, changes nothing. -/
theorem masterStep_rest {h : Half} (hr : Rest σ n) (hs : masterStep P σ h = some σ') : σ' = σ := by
  obtain ⟨hipi, hgo, ⟨_, hpc, _⟩ | ⟨_, hpc⟩⟩ := hr
  · unfold masterStep at hs
    rw [hpc] at hs
    simp only [hgo, if_true] at hs
    exact (Option.some.inj hs).symm
  · unfold masterStep at hs
    rw [hpc, hipi] at hs
    cases hs

/-- A step of a master that has been asked. It leaves the lock to the slave if
the slave has it, and `go[SLAVE]` with it. -/
theorem masterStep_busy {h : Half} (hb : Busy P σ n) (hs0 : σ.s0 ≤ σ.time)
    (hs : masterStep P σ h = some σ') :
    (Busy P σ' n ∨ Served P σ' n) ∧
      (σ.tsclock = some .slave → σ'.tsclock = some .slave ∧ σ'.goSlave = σ.goSlave) ∧
      (σ.tsclock ≠ some .slave → σ'.tsclock ≠ some .slave) := by
  obtain ⟨hipi, hiter, hlt, hm⟩ := hb
  unfold masterStep at hs
  cases hpc : σ.master with
  | idle => rw [hpc] at hm; exact hm.elim
  | enter => rw [hpc] at hm; exact hm.elim
  | wait =>
      rw [hpc] at hs hm
      obtain ⟨hgo, hzero, hlock⟩ := hm
      have hne : ¬ σ.goMaster = 0 := by rw [hgo]; decide
      simp only [if_neg hne] at hs
      cases hs
      exact ⟨.inl ⟨hipi, hiter, hlt, hgo, hzero, hlock⟩, fun hsl => ⟨hsl, rfl⟩, id⟩
  | clear =>
      rw [hpc] at hs hm
      obtain ⟨hgo, hzero, hlock⟩ := hm
      cases hs
      exact ⟨.inl ⟨hipi, hiter, hlt, rfl, hzero, hlock⟩, fun hsl => ⟨hsl, rfl⟩, id⟩
  | lock =>
      rw [hpc] at hs hm
      obtain ⟨hgo, hzero, hlock⟩ := hm
      simp only at hs
      split at hs
      · rename_i hfree
        cases hs
        refine ⟨.inl ⟨hipi, hiter, hlt, hgo, hzero, rfl⟩, ?_, ?_⟩
        · intro hsl
          rw [hfree] at hsl
          cases hsl
        · intro _ hsl
          cases hsl
      · cases hs
  | read =>
      rw [hpc] at hs hm
      obtain ⟨hgo, hzero, hlock⟩ := hm
      cases hs
      refine ⟨.inl ⟨hipi, hiter, hlt, hgo, ⟨hs0, Nat.le_refl _, rfl⟩, hlock⟩, ?_, id⟩
      intro hsl
      rw [hlock] at hsl
      cases hsl
  | store v =>
      rw [hpc] at hs hm
      obtain ⟨hgo, hstamp, hlock⟩ := hm
      cases hs
      refine ⟨.inl ⟨hipi, hiter, hlt, hgo, hstamp, hlock, ?_⟩, ?_, id⟩
      · exact Word.put_put σ.goSlave v h
      · intro hsl
        rw [hlock] at hsl
        cases hsl
  | store2 h' v =>
      rw [hpc] at hs hm
      obtain ⟨hgo, hstamp, hlock, hput⟩ := hm
      cases hs
      refine ⟨.inl ⟨hipi, hiter, hlt, hgo, hlock, v, hput, hstamp⟩, ?_, id⟩
      intro hsl
      rw [hlock] at hsl
      cases hsl
  | unlock =>
      rw [hpc] at hs hm
      obtain ⟨hgo, hlock, v, hv, hstamp⟩ := hm
      cases hs
      refine ⟨.inr ⟨⟨hipi, hgo, ?_⟩, by simp, v, hv, hstamp⟩, ?_, by simp⟩
      · rw [hiter]
        by_cases hmore : n + 1 < NUM_ITERS
        · exact .inl ⟨hmore, if_pos hmore, rfl⟩
        · exact .inr ⟨by omega, if_neg hmore⟩
      · intro hsl
        rw [hlock] at hsl
        cases hsl

/-- The same, whether it has answered already or not. -/
theorem masterStep_serving {h : Half} (hb : Busy P σ n ∨ Served P σ n) (hs0 : σ.s0 ≤ σ.time)
    (hs : masterStep P σ h = some σ') :
    (Busy P σ' n ∨ Served P σ' n) ∧
      (σ.tsclock = some .slave → σ'.tsclock = some .slave ∧ σ'.goSlave = σ.goSlave) ∧
      (σ.tsclock ≠ some .slave → σ'.tsclock ≠ some .slave) := by
  rcases hb with hb | hserved
  · exact masterStep_busy hb hs0 hs
  · rw [masterStep_rest hserved.1 hs]
    exact ⟨.inr hserved, fun hsl => ⟨hsl, rfl⟩, id⟩

/-- A master that nobody has called does not move. -/
theorem masterStep_idle {h : Half} (hpc : σ.master = .idle) (hipi : σ.ipi = false) :
    masterStep P σ h = none := by
  unfold masterStep
  rw [hpc, hipi]
  rfl

theorem Inv.masterStep {h : Half} (hi : Inv P σ) (hs : masterStep P σ h = some σ') : Inv P σ' := by
  have hsame := masterStep_same hs
  obtain ⟨hofst, hcpu, hpc⟩ := hi
  refine ⟨by rw [hsame.ofst]; exact hofst, by rw [hsame.slave, hsame.cpu]; exact hcpu, ?_⟩
  have hrest : ∀ {m}, Rest σ m → σ' = σ := fun hr => masterStep_rest hr hs
  rw [hsame.slave]
  cases hsl : σ.slave with
  | idle | mark =>
      rw [hsl] at hpc
      rw [masterStep_idle hpc.2.2 hpc.2.1] at hs
      cases hs
  | call =>
      rw [hsl] at hpc
      rw [masterStep_idle hpc.2.2.1 hpc.2.1] at hs
      cases hs
  | ready =>
      rw [hsl] at hpc
      obtain ⟨hclear, ⟨hipi, hm, hgo⟩ | ⟨hipi, hm, hgo⟩ | hr⟩ := hpc
      · unfold Tscsync.masterStep at hs
        rw [hm, hipi] at hs
        cases hs
        exact ⟨hclear, .inr (.inl ⟨rfl, rfl, hgo⟩)⟩
      · unfold Tscsync.masterStep at hs
        rw [hm] at hs
        cases hs
        exact ⟨hclear, .inr (.inr ⟨hipi, rfl, .inl ⟨by decide, rfl, rfl⟩⟩)⟩
      · rw [hrest hr]
        exact ⟨hclear, .inr (.inr hr)⟩
  | start => rw [hsl] at hpc; rw [hrest hpc.2.1]; exact hpc
  | ask => rw [hsl] at hpc; rw [hrest hpc.2.1]; exact hpc
  | lock =>
      rw [hsl] at hpc
      obtain ⟨hasked, hlock, hb⟩ := hpc
      obtain ⟨hb', _, hfree⟩ := masterStep_serving hb hasked.1 hs
      exact ⟨hsame.asked hasked, hfree hlock, by rw [hsame.iter]; exact hb'⟩
  | load | retry =>
      rw [hsl] at hpc
      obtain ⟨hasked, hlock, hb⟩ := hpc
      obtain ⟨hb', hkeep, _⟩ := masterStep_serving hb hasked.1 hs
      exact ⟨hsame.asked hasked, (hkeep hlock).1, by rw [hsame.iter]; exact hb'⟩
  | load2 h' x =>
      rw [hsl] at hpc
      obtain ⟨hasked, hlock, hb, hx⟩ := hpc
      obtain ⟨hb', hkeep, _⟩ := masterStep_serving hb hasked.1 hs
      exact ⟨hsame.asked hasked, (hkeep hlock).1, by rw [hsame.iter]; exact hb',
        by rw [(hkeep hlock).2]; exact hx⟩
  | test =>
      rw [hsl] at hpc
      obtain ⟨hasked, hlock, hb, hx⟩ := hpc
      obtain ⟨hb', hkeep, _⟩ := masterStep_serving hb hasked.1 hs
      exact ⟨hsame.asked hasked, (hkeep hlock).1, by rw [hsame.iter]; exact hb',
        by rw [(hkeep hlock).2, hsame.tm]; exact hx⟩
  | unlock => rw [hsl] at hpc; rw [hrest hpc.2.2.1]; exact hpc
  | clear => rw [hsl] at hpc; rw [hrest hpc.2.2.1]; exact hpc
  | clear2 h' => rw [hsl] at hpc; rw [hrest hpc.2.2.1]; exact hpc
  | stop => rw [hsl] at hpc; rw [hrest hpc.2.2.1]; exact hpc
  | finish => rw [hsl] at hpc; rw [hrest hpc.2.1]; exact hpc

/-! ## The slave's steps -/

/-- A slave that has read `go[SLAVE]` as something else than 0 has been answered. -/
theorem served_of_value (hb : Busy P σ n ∨ Served P σ n) (hlock : σ.tsclock = some .slave)
    (hne : σ.goSlave.value ≠ 0) : Rest σ (n + 1) ∧ Stamped P σ σ.goSlave.value := by
  rcases hb with ⟨_, _, _, hm⟩ | ⟨hrest, _, v, hv, hstamp⟩
  · have hzero : σ.goSlave = Word.of 0 → False := by
      intro hz
      rw [hz, Word.value_of] at hne
      exact hne rfl
    cases hpc : σ.master with
    | wait | clear | lock => rw [hpc] at hm; exact (hzero hm.2.1).elim
    | read => rw [hpc] at hm; exact (hzero hm.2.1).elim
    | store v => rw [hpc, hlock] at hm; cases hm.2.2
    | store2 h v => rw [hpc, hlock] at hm; cases hm.2.2.1
    | unlock => rw [hpc, hlock] at hm; cases hm.2.1
    | idle | enter => rw [hpc] at hm; exact hm.elim
  · rw [hv, Word.value_of]
    exact ⟨hrest, hstamp⟩

/-- The slave asks. -/
theorem Rest.ask (hr : Rest σ n) (hn : n < NUM_ITERS) (hclear : Clear σ) (pc : SlavePc) :
    Busy P { σ with goMaster := 1, slave := pc } n := by
  obtain ⟨hipi, _, ⟨_, hpc, hiter⟩ | ⟨hlast, _⟩⟩ := hr
  · refine ⟨hipi, hiter, hn, ?_⟩
    rw [hpc]
    exact ⟨rfl, hclear.1, by rw [hclear.2]; simp⟩
  · omega

/-- The slave takes the lock, or gives it back. -/
theorem serving_lock (hb : Busy P σ n ∨ Served P σ n) {x : Option Party} {pc : SlavePc}
    (hfree : σ.tsclock ≠ some .master) (hx : x ≠ some .master) :
    Busy P { σ with tsclock := x, slave := pc } n ∨
      Served P { σ with tsclock := x, slave := pc } n := by
  rcases hb with ⟨hipi, hiter, hlt, hm⟩ | ⟨hrest, _, hv⟩
  · refine .inl ⟨hipi, hiter, hlt, ?_⟩
    cases hpc : σ.master with
    | wait | clear | lock => rw [hpc] at hm; exact ⟨hm.1, hm.2.1, hx⟩
    | read => rw [hpc] at hm; exact (hfree hm.2.2).elim
    | store v => rw [hpc] at hm; exact (hfree hm.2.2).elim
    | store2 h v => rw [hpc] at hm; exact (hfree hm.2.2.1).elim
    | unlock => rw [hpc] at hm; exact (hfree hm.2.1).elim
    | idle | enter => rw [hpc] at hm; exact hm.elim
  · exact .inr ⟨hrest, hx, hv⟩

theorem Inv.slaveStep {h : Half} {ok : Bool} (hi : Inv P σ) (hs : slaveStep P σ h ok = some σ') :
    Inv P σ' := by
  obtain ⟨hofst, hcpu, hpc⟩ := hi
  unfold Tscsync.slaveStep at hs
  cases hsl : σ.slave with
  | idle => rw [hsl] at hs; cases hs
  | mark =>
      rw [hsl] at hs hpc hcpu
      obtain ⟨hclear, hipi, hm⟩ := hpc
      cases hs
      exact ⟨hofst, fun _ => hcpu (by simp), hclear, hipi, hm, rfl⟩
  | call =>
      rw [hsl] at hs hpc hcpu
      obtain ⟨hclear, hipi, hm, hgo⟩ := hpc
      cases hs
      cases ok with
      | true => exact ⟨hofst, fun _ => hcpu (by simp), hclear, .inl ⟨rfl, hm, hgo⟩⟩
      | false => exact ⟨hofst, fun hne => absurd rfl hne, hclear, hipi, hm⟩
  | ready =>
      rw [hsl] at hs hpc hcpu
      obtain ⟨hclear, hcase⟩ := hpc
      simp only at hs
      split at hs
      · rename_i hgo
        cases hs
        refine ⟨hofst, fun _ => hcpu (by simp), hclear, ?_, Nat.zero_lt_succ 9⟩
        rcases hcase with ⟨_, _, hone⟩ | ⟨_, _, hone⟩ | hr
        · rw [hone] at hgo
          cases hgo
        · rw [hone] at hgo
          cases hgo
        · exact hr
      · cases hs
        refine ⟨hofst, fun _ => hcpu (by simp), ?_⟩
        rw [hsl]
        exact ⟨hclear, hcase⟩
  | start =>
      rw [hsl] at hs hpc hcpu
      obtain ⟨hclear, hr, hlt⟩ := hpc
      cases hs
      exact ⟨hofst, fun _ => hcpu (by simp), hclear, hr, hlt, Nat.le_refl _, rfl⟩
  | ask =>
      rw [hsl] at hs hpc hcpu
      obtain ⟨hclear, hr, hlt, hasked⟩ := hpc
      cases hs
      exact ⟨hofst, fun _ => hcpu (by simp), hasked, by simp [hclear.2],
        .inl (hr.ask hlt hclear .lock)⟩
  | lock =>
      rw [hsl] at hs hpc hcpu
      obtain ⟨hasked, _, hb⟩ := hpc
      simp only at hs
      split at hs
      · rename_i hfree
        cases hs
        exact ⟨hofst, fun _ => hcpu (by simp), hasked, rfl,
          serving_lock hb (by simp [hfree]) (by simp)⟩
      · cases hs
  | load =>
      rw [hsl] at hs hpc hcpu
      obtain ⟨hasked, hlock, hb⟩ := hpc
      cases hs
      exact ⟨hofst, fun _ => hcpu (by simp), hasked, hlock, hb, rfl⟩
  | load2 h' x =>
      rw [hsl] at hs hpc hcpu
      obtain ⟨hasked, hlock, hb, hx⟩ := hpc
      cases hs
      refine ⟨hofst, fun _ => hcpu (by simp), hasked, hlock, hb, ?_⟩
      rw [hx]
      exact Word.join_get σ.goSlave h'
  | test =>
      rw [hsl] at hs hpc hcpu
      obtain ⟨hasked, hlock, hb, htm⟩ := hpc
      by_cases hz : σ.tm = 0
      · simp only [if_pos hz] at hs
        cases hs
        exact ⟨hofst, fun _ => hcpu (by simp), hasked, hlock, hb⟩
      · simp only [if_neg hz] at hs
        cases hs
        obtain ⟨hrest, hstamp⟩ := served_of_value hb hlock (by rw [← htm]; exact hz)
        rw [← htm] at hstamp
        exact ⟨hofst, fun _ => hcpu (by simp), hasked, hlock, hrest, hstamp⟩
  | retry =>
      rw [hsl] at hs hpc hcpu
      obtain ⟨hasked, hlock, hb⟩ := hpc
      cases hs
      exact ⟨hofst, fun _ => hcpu (by simp), hasked, by simp,
        serving_lock hb (by simp [hlock]) (by simp)⟩
  | unlock =>
      rw [hsl] at hs hpc hcpu
      obtain ⟨hasked, _, hrest, hstamp⟩ := hpc
      cases hs
      exact ⟨hofst, fun _ => hcpu (by simp), hasked, rfl, hrest, hstamp⟩
  | clear =>
      rw [hsl] at hs hpc hcpu
      obtain ⟨hasked, hlock, hrest, hstamp⟩ := hpc
      cases hs
      exact ⟨hofst, fun _ => hcpu (by simp), hasked, hlock, hrest, hstamp,
        Word.put_put σ.goSlave 0 h⟩
  | clear2 h' =>
      rw [hsl] at hs hpc hcpu
      obtain ⟨hasked, hlock, hrest, hstamp, hput⟩ := hpc
      cases hs
      exact ⟨hofst, fun _ => hcpu (by simp), hasked, ⟨hput, hlock⟩, hrest, hstamp⟩
  | stop =>
      rw [hsl] at hs hpc hcpu
      obtain ⟨_, hclear, hrest, _⟩ := hpc
      cases hs
      refine ⟨hofst, fun _ => hcpu (by simp), ?_⟩
      by_cases hmore : σ.iter + 1 < NUM_ITERS
      · simp only [if_pos hmore]
        exact ⟨hclear, hrest, hmore⟩
      · simp only [if_neg hmore]
        have hlast : σ.iter + 1 = NUM_ITERS := by
          rcases hrest.2.2 with ⟨hlt, _⟩ | ⟨heq, _⟩
          · exact absurd hlt hmore
          · exact heq
        exact ⟨hclear, by rw [← hlast]; exact hrest, hlast⟩
  | finish =>
      rw [hsl] at hs hpc hcpu
      obtain ⟨hclear, hrest, _⟩ := hpc
      cases hs
      have hne : MASTER_CPU ≠ σ.cpu := Ne.symm (hcpu (by simp))
      have hidle : σ.master = .idle := by
        rcases hrest.2.2 with ⟨hlt, _⟩ | ⟨_, hm⟩
        · exact absurd hlt (Nat.lt_irrefl _)
        · exact hm
      refine ⟨?_, fun hno => absurd rfl hno, hclear, hrest.1, hidle⟩
      unfold finish
      simp only
      split
      · exact hofst
      · rw [Function.update_of_ne hne]
        exact hofst

/-- The handshake holds in every run. -/
theorem inv_invariant (P : Params) : (machine P).Invariant (Inv P) := by
  refine TSys.Invariant.of_inductive ?_ ?_
  · rintro σ rfl
    exact ⟨rfl, fun hne => absurd rfl hne, ⟨rfl, rfl⟩, rfl, rfl⟩
  · intro σ σ' l hi hs
    cases l with
    | sync k tune =>
        change step P σ (.sync k tune) = some σ' at hs
        unfold step at hs
        cases hsl : σ.slave with
        | idle =>
            rw [hsl] at hs
            simp only at hs
            split at hs
            · cases hs
            · rename_i hk
              cases hs
              obtain ⟨hofst, _, hpc⟩ := hi
              rw [hsl] at hpc
              exact ⟨hofst, fun _ => hk, hpc⟩
        | _ => rw [hsl] at hs; cases hs
    | master d h => exact (hi.delay d).masterStep hs
    | slave d h ok => exact (hi.delay d).slaveStep hs

end RtaiDemos.Tscsync
