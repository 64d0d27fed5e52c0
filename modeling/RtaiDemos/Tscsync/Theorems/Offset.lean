import Mathlib.Data.List.Induction
import RtaiDemos.Tscsync.Logic.Handshake

/-!
# What a session measures

In every round the master has read its counter between the two readings of the
slave, and `get_delta` keeps the shortest of the rounds. The difference that it
returns, or smooths, is the offset of the two counters up to half of that round
trip.
-/

namespace RtaiDemos.Tscsync

/-- What the slave's counter shows more than the time, less what `readtsc`
takes off in a session with `tune` set. -/
def Measurement.shift (P : Params) (x : Measurement) : Int :=
  P.counter x.cpu - if x.tune then x.ofst else 0

/-- The offset of the two counters as `readtsc` shows them. -/
def Measurement.offset (P : Params) (x : Measurement) : Int := x.shift P - P.counter MASTER_CPU

/-- A round as it should be: the master's reading is of this round. -/
def Round.Sound (slave master : Int) (r : Round) : Prop :=
  r.s0 ≤ r.sm ∧ r.sm ≤ r.s1 ∧ r.t0 = u64 (r.s0 + slave) ∧ r.tm = u64 (r.sm + master) ∧
    r.t1 = u64 (r.s1 + slave)

/-- The best of some rounds. -/
def bestOf (rounds : List Round) : Best :=
  rounds.foldl (fun b r => b.update r.t0 r.tm r.t1) Best.start

/-- A session that is over. -/
structure Measurement.Sound (P : Params) (x : Measurement) : Prop where
  length : x.rounds.length = NUM_ITERS
  rounds : ∀ r ∈ x.rounds, r.Sound (x.shift P) (P.counter MASTER_CPU)
  rt : x.rt = u64 ((bestOf x.rounds).t1 - (bestOf x.rounds).t0)
  diff : x.diff = (bestOf x.rounds).diff
  delta : x.delta = if x.tune then signed x.diff else smooth x.ofst x.diff

/-- The loop of `get_delta` has been entered. -/
def SlavePc.looping : SlavePc → Bool
  | .idle | .mark | .call | .ready => false
  | _ => true

/-- The rounds so far, and the sessions that are over. -/
structure Booked (P : Params) (σ : State) : Prop where
  looping : σ.slave.looping = true → σ.rounds.length = σ.iter ∧
    (∀ r ∈ σ.rounds, r.Sound (σ.shift P σ.cpu) (σ.shift P MASTER_CPU)) ∧ σ.best = bestOf σ.rounds
  measured : ∀ x ∈ σ.measured, x.Sound P
  ofst : ∀ k, σ.ofst k = ((σ.measured.filter fun x => x.cpu == k && !x.tune).map (·.diff)).foldl
    smooth 0

variable {P : Params} {σ σ' : State}

theorem bestOf_append (l : List Round) (r : Round) :
    bestOf (l ++ [r]) = (bestOf l).update r.t0 r.tm r.t1 := by
  unfold bestOf
  rw [List.foldl_append]
  rfl

/-! ## Steps -/

/-- A step that touches none of it. -/
theorem Booked.frame (h : Booked P σ) (hloop : σ'.slave.looping = true → σ.slave.looping = true)
    (htune : σ'.tune = σ.tune) (hcpu : σ'.cpu = σ.cpu) (hofst : σ'.ofst = σ.ofst)
    (hiter : σ'.iter = σ.iter) (hbest : σ'.best = σ.best) (hrounds : σ'.rounds = σ.rounds)
    (hmeasured : σ'.measured = σ.measured) : Booked P σ' := by
  refine ⟨?_, by rw [hmeasured]; exact h.measured, by rw [hmeasured, hofst]; exact h.ofst⟩
  intro hl
  obtain ⟨hlen, hsound, hb⟩ := h.looping (hloop hl)
  have hshift : ∀ c, σ'.shift P c = σ.shift P c := by
    intro c
    unfold State.shift
    rw [htune, hofst]
  rw [hrounds, hiter, hbest, hcpu, hshift, hshift]
  exact ⟨hlen, hsound, hb⟩

/-- The end of a round. -/
theorem Booked.stop (hb : Booked P σ) (hi : Inv P σ) (hsl : σ.slave = .stop) {h : Half} {ok : Bool}
    (hs : slaveStep P σ h ok = some σ') : Booked P σ' := by
  obtain ⟨_, _, hpc⟩ := hi
  rw [hsl] at hpc
  obtain ⟨⟨hs0, ht0⟩, _, _, hsm0, hsm1, htm⟩ := hpc
  obtain ⟨hlen, hsound, hbest⟩ := hb.looping (by rw [hsl]; rfl)
  unfold slaveStep at hs
  rw [hsl] at hs
  cases hs
  refine ⟨?_, hb.measured, hb.ofst⟩
  intro _
  refine ⟨by simp [hlen], ?_, ?_⟩
  · intro r hr
    rcases List.mem_append.mp hr with hr | hr
    · exact hsound r hr
    · rw [List.mem_singleton.mp hr]
      exact ⟨hsm0, hsm1, ht0, htm, rfl⟩
  · show σ.best.update _ _ _ = bestOf (σ.rounds ++ [_])
    rw [bestOf_append, hbest]

/-- The end of a session. -/
theorem Booked.finish (hb : Booked P σ) (hi : Inv P σ) (hsl : σ.slave = .finish) :
    Booked P (finish σ) := by
  obtain ⟨hofst, _, hpc⟩ := hi
  rw [hsl] at hpc
  obtain ⟨hlen, hsound, hbest⟩ := hb.looping (by rw [hsl]; rfl)
  have hmaster : σ.shift P MASTER_CPU = P.counter MASTER_CPU := by
    unfold State.shift
    rw [hofst]
    split <;> omega
  refine ⟨(by intro hl; cases hl), ?_, ?_⟩
  · intro x hx
    rcases List.mem_append.mp hx with hx | hx
    · exact hb.measured x hx
    · rw [List.mem_singleton.mp hx]
      refine ⟨hlen.trans hpc.2.2, ?_, by rw [← hbest], by rw [← hbest], rfl⟩
      rw [← hmaster]
      exact hsound
  · intro k
    show (if σ.tune then σ.ofst else Function.update σ.ofst σ.cpu
      (if σ.tune then signed σ.best.diff else smooth (σ.ofst σ.cpu) σ.best.diff)) k = _
    simp only [Tscsync.finish, List.filter_append, List.map_append, List.foldl_append]
    rw [← hb.ofst k]
    cases htune : σ.tune with
    | true => simp
    | false =>
        by_cases hk : k = σ.cpu
        · subst hk
          simp
        · have hne : σ.cpu ≠ k := fun h => hk h.symm
          simp [Function.update_of_ne hk, hne]

theorem Booked.slaveStep (hb : Booked P σ) (hi : Inv P σ) {h : Half} {ok : Bool}
    (hs : slaveStep P σ h ok = some σ') : Booked P σ' := by
  cases hsl : σ.slave with
  | stop => exact hb.stop hi hsl hs
  | finish =>
      unfold Tscsync.slaveStep at hs
      rw [hsl] at hs
      cases hs
      exact hb.finish hi hsl
  | idle => unfold Tscsync.slaveStep at hs; rw [hsl] at hs; cases hs
  | ready =>
      unfold Tscsync.slaveStep at hs
      rw [hsl] at hs
      simp only at hs
      split at hs
      · cases hs
        refine ⟨fun _ => ⟨rfl, (by intro r hr; cases hr), rfl⟩, hb.measured, hb.ofst⟩
      · cases hs
        exact hb
  | call =>
      unfold Tscsync.slaveStep at hs
      rw [hsl] at hs
      cases hs
      cases ok
      · exact hb.frame (by intro hl; cases hl) rfl rfl rfl rfl rfl rfl rfl
      · exact hb.frame (by intro hl; cases hl) rfl rfl rfl rfl rfl rfl rfl
  | lock =>
      unfold Tscsync.slaveStep at hs
      rw [hsl] at hs
      simp only at hs
      split at hs
      · cases hs
        exact hb.frame (fun _ => by rw [hsl]; rfl) rfl rfl rfl rfl rfl rfl rfl
      · cases hs
  | mark =>
      unfold Tscsync.slaveStep at hs
      rw [hsl] at hs
      cases hs
      exact hb.frame (by intro hl; cases hl) rfl rfl rfl rfl rfl rfl rfl
  | _ =>
      unfold Tscsync.slaveStep at hs
      rw [hsl] at hs
      cases hs
      exact hb.frame (fun _ => by rw [hsl]; rfl) rfl rfl rfl rfl rfl rfl rfl

theorem booked_invariant (P : Params) : (machine P).Invariant (Booked P) := by
  refine TSys.Invariant.of_inductive_with (inv_invariant P) ?_ ?_
  · rintro σ rfl
    exact ⟨(by intro hl; cases hl), (by intro x hx; cases hx), fun _ => rfl⟩
  · intro σ σ' l hi hb hs
    cases l with
    | sync k tune =>
        change step P σ (.sync k tune) = some σ' at hs
        unfold step at hs
        cases hsl : σ.slave with
        | idle =>
            rw [hsl] at hs
            simp only at hs
            split at hs
            · cases hs
            · cases hs
              exact ⟨(by intro hl; cases hl), hb.measured, hb.ofst⟩
        | _ => rw [hsl] at hs; cases hs
    | master d h =>
        have hsame := masterStep_same hs
        exact hb.frame (by rw [hsame.slave]; exact id) hsame.tune hsame.cpu hsame.ofst hsame.iter
          hsame.best hsame.rounds hsame.measured
    | slave d h ok =>
        have hb' : Booked P { σ with time := σ.time + d } :=
          hb.frame id rfl rfl rfl rfl rfl rfl rfl
        exact hb'.slaveStep (hi.delay d) hs

/-! ## The best round -/

/-- The best of the rounds is one of them, unless it is still the start value, and
none is shorter. -/
theorem bestOf_spec (l : List Round) :
    (bestOf l = Best.start ∨ ∃ r ∈ l, bestOf l = ⟨r.t0, r.t1, r.tm⟩) ∧
      ∀ r ∈ l, u64 ((bestOf l).t1 - (bestOf l).t0) ≤ u64 (r.t1 - r.t0) := by
  induction l using List.reverseRecOn with
  | nil => exact ⟨.inl rfl, (by intro r hr; cases hr)⟩
  | append_singleton l r ih =>
      obtain ⟨hone, hleast⟩ := ih
      rw [bestOf_append]
      unfold Best.update
      split
      · rename_i hlt
        refine ⟨.inr ⟨r, by simp, rfl⟩, ?_⟩
        intro r' hr'
        rcases List.mem_append.mp hr' with hr' | hr'
        · exact Int.le_trans (Int.le_of_lt hlt) (hleast r' hr')
        · rw [List.mem_singleton.mp hr']
      · rename_i hge
        refine ⟨?_, ?_⟩
        · rcases hone with hstart | ⟨r', hr', heq⟩
          · exact .inl hstart
          · exact .inr ⟨r', List.mem_append_left _ hr', heq⟩
        · intro r' hr'
          rcases List.mem_append.mp hr' with hr' | hr'
          · exact hleast r' hr'
          · rw [List.mem_singleton.mp hr']
            exact Int.not_lt.mp hge

/-- The slave's counter neither wraps around nor reaches its last value in the round. -/
def Round.Plain (slave : Int) (r : Round) : Prop :=
  0 ≤ r.s0 + slave ∧ r.s1 + slave < 18446744073709551615

instance (slave : Int) (r : Round) : Decidable (r.Plain slave) :=
  inferInstanceAs (Decidable (_ ∧ _))

/-- A round without a wrap takes as long as its readings say. -/
theorem Round.Sound.trip {slave master : Int} {r : Round} (h : r.Sound slave master)
    (hp : r.Plain slave) : u64 (r.t1 - r.t0) = r.s1 - r.s0 ∧ r.t0 = r.s0 + slave ∧
      r.t1 = r.s1 + slave := by
  obtain ⟨h₀, h₁, ht0, _, ht1⟩ := h
  obtain ⟨hlo, hhi⟩ := hp
  unfold u64 at *
  omega

/-- Measured against the real offset. -/
theorem Measurement.Sound.bounds {x : Measurement} (h : x.Sound P)
    (hp : ∀ r ∈ x.rounds, r.Plain (x.shift P)) :
    ∃ r ∈ x.rounds, x.rt = r.s1 - r.s0 ∧ (∀ r' ∈ x.rounds, x.rt ≤ r'.s1 - r'.s0) ∧
      ∃ err, x.diff = u64 (x.offset P + err) ∧ -(x.rt + 1) ≤ 2 * err ∧ 2 * err ≤ x.rt := by
  obtain ⟨hone, hleast⟩ := bestOf_spec x.rounds
  rw [← h.rt] at hleast
  have hne : x.rounds ≠ [] := by
    intro hnil
    have := h.length
    rw [hnil] at this
    cases this
  rcases hone with hstart | ⟨r, hr, hbest⟩
  · -- a round of all but 2^64 cycles
    obtain ⟨r, hr⟩ := List.exists_mem_of_ne_nil _ hne
    have htrip := ((h.rounds r hr).trip (hp r hr)).1
    have hlong := hleast r hr
    rw [h.rt, hstart] at hlong
    obtain ⟨hlo, hhi⟩ := hp r hr
    have hu : u64 (Best.start.t1 - Best.start.t0) = 18446744073709551615 := by decide
    rw [hu] at hlong
    omega
  · obtain ⟨htrip, ht0, ht1⟩ := (h.rounds r hr).trip (hp r hr)
    obtain ⟨hsm0, hsm1, _, htm, _⟩ := h.rounds r hr
    have hrt : x.rt = r.s1 - r.s0 := by rw [h.rt, hbest]; exact htrip
    refine ⟨r, hr, hrt, ?_, ?_⟩
    · intro r' hr'
      rw [← ((h.rounds r' hr').trip (hp r' hr')).1]
      exact hleast r' hr'
    · have hmid := Estimate.mid_sub_bounds (Int.ofNat_le.mpr hsm0) (Int.ofNat_le.mpr hsm1)
        (x.shift P) (P.counter MASTER_CPU)
      refine ⟨Estimate.mid (r.s0 + x.shift P) (r.s1 + x.shift P) -
        (r.sm + P.counter MASTER_CPU) - (x.shift P - P.counter MASTER_CPU), ?_, ?_, ?_⟩
      · rw [h.diff, hbest]
        unfold Best.diff Measurement.offset
        simp only [ht0, ht1, htm]
        unfold u64
        omega
      · rw [hrt]
        omega
      · rw [hrt]
        exact hmid.2

/-- In every run, whatever the interleaving of the two CPUs, the order of the
half words and the delays: each session that is over consists of `NUM_ITERS`
rounds, in each of which the master has read its counter after the slave read
`t0` and before it read `t1`, untorn; and if the slave's counter did not wrap
around, `rt` is the shortest of the round trips and the difference computed is
the offset of the counters with an error of at most half of it, rounded up. -/
theorem offset_within_half_round_trip (P : Params) : (machine P).Invariant fun σ =>
    ∀ x ∈ σ.measured, x.rounds.length = NUM_ITERS ∧
      (∀ r ∈ x.rounds, r.Sound (x.shift P) (P.counter MASTER_CPU)) ∧
      ((∀ r ∈ x.rounds, r.Plain (x.shift P)) →
        ∃ r ∈ x.rounds, x.rt = r.s1 - r.s0 ∧ (∀ r' ∈ x.rounds, x.rt ≤ r'.s1 - r'.s0) ∧
          ∃ err, x.diff = u64 (x.offset P + err) ∧ -(x.rt + 1) ≤ 2 * err ∧ 2 * err ≤ x.rt) := by
  intro σ hr x hx
  have hsound := (booked_invariant P σ hr).measured x hx
  exact ⟨hsound.length, hsound.rounds, hsound.bounds⟩

/-- One round, each statement a cycle after the one before. -/
def roundLabels : List Label :=
  List.replicate 2 (.slave 1 .lo true) ++ List.replicate 7 (.master 1 .hi) ++
    List.replicate 8 (.slave 1 .lo true)

/-- A session on CPU `k` without `tune`. -/
def sessionLabels (k : Cpu) : List Label :=
  [.sync k false, .slave 1 .lo true, .slave 1 .lo true, .master 1 .lo, .master 1 .lo,
    .slave 1 .lo true] ++ (List.replicate NUM_ITERS roundLabels).flatten ++ [.slave 1 .lo true]

/-- The counter of CPU 1 is 900 ahead of the master's. -/
def demoParams : Params := ⟨fun c => if c = 1 then 1000 else 100⟩

theorem offset_within_half_round_trip_session :
    ∃ σ, (machine demoParams).Reachable σ ∧ ∃ x ∈ σ.measured, x.rt = 16 ∧ x.diff = 903 ∧
      ∃ err, x.diff = u64 (x.offset demoParams + err) ∧ -(x.rt + 1) ≤ 2 * err ∧
        2 * err ≤ x.rt := by
  have hrun : (machine demoParams).leadsTo initState (sessionLabels 1) (fun σ =>
      decide (∃ x ∈ σ.measured, (∀ r ∈ x.rounds, r.Plain (x.shift demoParams)) ∧ x.rt = 16 ∧
        x.diff = 903)) = true := by
    decide +kernel
  obtain ⟨σ, hr, hask⟩ := TSys.Reachable.of_leadsTo rfl hrun
  obtain ⟨x, hx, hplain, hrt, hdiff⟩ := of_decide_eq_true hask
  obtain ⟨-, -, hall⟩ := offset_within_half_round_trip demoParams σ hr x hx
  obtain ⟨r, -, -, -, herr⟩ := hall hplain
  exact ⟨σ, hr, x, hx, hrt, hdiff, herr⟩

end RtaiDemos.Tscsync
