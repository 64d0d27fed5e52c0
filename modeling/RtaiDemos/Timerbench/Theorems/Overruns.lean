import Mathlib.Order.Bounds.Basic
import RtaiDemos.Timerbench.Theorems.Statistics

/-!
# Catching up after overruns

The `while` loop of `eval_inner_loop`, round by round and with the conversions
between `long` and `unsigned long` that the source warns of: it ends, the release
date moves on by the least number of periods that reaches the present, and all of
them but one are counted as overruns.
-/

namespace RtaiDemos.Timerbench

/-- What the loop changes. -/
@[ext]
structure Catching where
  dt : Int
  overruns : Int
  date : BitVec 64
  deriving DecidableEq, Repr

namespace Catching

variable (w period : Nat)

/-- The condition of the loop. -/
def behind (v : Catching) : Prop := v.dt > 0 ∧ v.dt % 2 ^ w > period

/-- The body of the loop. -/
def round (v : Catching) : Catching where
  dt := long w (v.dt % 2 ^ w - period)
  overruns := long w (v.overruns + 1)
  date := v.date + BitVec.ofNat 64 period

/-- The loop runs its body `n` times. -/
def EndsAfter (n : Nat) (v : Catching) : Prop :=
  (∀ k < n, ((round w period)^[k] v).behind w period) ∧ ¬ ((round w period)^[n] v).behind w period

end Catching

variable {w period : Nat} {dt : Int}

theorem unsignedLong_of_pos (hw : 32 ≤ w) (hdt : IsLong w dt) (hpos : 0 < dt) :
    dt % 2 ^ w = dt := by
  have htwo := two_longEnd hw
  push_cast at htwo
  unfold IsLong at hdt
  exact Int.emod_eq_of_lt (by omega) (by omega)

/-- The conversions of the condition lose nothing. -/
theorem behind_iff (hw : 32 ≤ w) {v : Catching} (hdt : IsLong w v.dt) :
    v.behind w period ↔ v.dt > 0 ∧ v.dt > period := by
  unfold Catching.behind
  refine and_congr_right ?_
  intro hpos
  rw [unsignedLong_of_pos hw hdt hpos]

/-- Nor do those of the body. -/
theorem round_eq (hw : 32 ≤ w) {v : Catching} (hdt : IsLong w v.dt) (hover : v.dt > period) :
    v.round w period =
      ⟨v.dt - period, long w (v.overruns + 1), v.date + BitVec.ofNat 64 period⟩ := by
  have hfits : long w (v.dt - period) = v.dt - period := by
    unfold IsLong at hdt
    exact long_of_fits hw (by omega) (by omega)
  unfold Catching.round
  rw [unsignedLong_of_pos hw hdt (by omega), hfits]

/-- The rounds of the loop are those of the model, however much fuel is left over. -/
theorem overrunLoop_eq (hw : 32 ≤ w) {fuel n : Nat} {v : Catching} (hdt : IsLong w v.dt)
    (hend : v.EndsAfter w period n) (hfuel : n ≤ fuel) :
    overrunLoop w period fuel v.dt v.overruns v.date =
      (((Catching.round w period)^[n] v).overruns, ((Catching.round w period)^[n] v).date) := by
  induction fuel generalizing n v with
  | zero =>
      obtain rfl : n = 0 := by omega
      rfl
  | succ fuel ih =>
      unfold overrunLoop
      cases n with
      | zero =>
          have hnot : ¬ (v.dt > 0 ∧ v.dt > period) := fun h =>
            hend.2 ((behind_iff hw hdt).mpr h)
          rw [if_neg hnot]
          rfl
      | succ n =>
          have hbehind := (behind_iff hw hdt).mp (hend.1 0 (Nat.succ_pos n))
          have hnext := round_eq hw hdt hbehind.2
          have hfits : IsLong w (v.round w period).dt := by
            rw [hnext]
            unfold IsLong at hdt ⊢
            dsimp only
            omega
          have hrest : (v.round w period).EndsAfter w period n :=
            ⟨fun k hk => hend.1 (k + 1) (by omega), hend.2⟩
          rw [if_pos hbehind, Function.iterate_succ_apply, ← ih hfits hrest (by omega), hnext]

/-- There are `k` overruns if the `k`-th period ends before the delay does. -/
theorem le_overruns_iff (hperiod : 0 < period) (dt : Int) {k : Nat} (hk : 1 ≤ k) :
    (k : Int) ≤ overruns period dt ↔ k * period < dt := by
  have hmul : 0 < (k : Int) * period := Int.mul_pos (by omega) (by omega)
  unfold overruns
  split
  · rw [Int.le_ediv_iff_mul_le (by omega)]
    omega
  · omega

/-- The variables after `k` of the rounds that the overruns call for. -/
theorem iterate_round (hw : 32 ≤ w) (hperiod : 0 < period) {v : Catching} (hdt : IsLong w v.dt)
    (hlong : IsLong w v.overruns) {k : Nat} (hk : (k : Int) ≤ overruns period v.dt) :
    (Catching.round w period)^[k] v =
      ⟨v.dt - k * period, long w (v.overruns + k), v.date + BitVec.ofNat 64 (k * period)⟩ := by
  induction k with
  | zero =>
      have hfits : long w v.overruns = v.overruns := long_of_fits hw hlong.1 hlong.2
      simp [hfits]
  | succ k ih =>
      have hlate := (le_overruns_iff hperiod v.dt (Nat.succ_pos k)).mp hk
      push_cast at hlate
      rw [Int.add_mul, Int.one_mul] at hlate
      have hpos : 0 ≤ (k : Int) * period := Int.mul_nonneg (by omega) (by omega)
      have hfits : IsLong w (v.dt - k * period) := by
        unfold IsLong at hdt ⊢
        omega
      rw [Function.iterate_succ_apply', ih (by omega), round_eq hw hfits (by dsimp only; omega),
        long_add]
      refine Catching.ext ?_ ?_ ?_
      · push_cast
        rw [Int.add_mul, Int.one_mul, Int.sub_sub]
      · rw [Int.add_assoc]
        rfl
      · rw [BitVec.add_assoc, ← BitVec.ofNat_add, Nat.succ_mul]

/-- The loop ends, after as many rounds as there are overruns. -/
theorem endsAfter_overruns (hw : 32 ≤ w) (hperiod : 0 < period) {v : Catching}
    (hdt : IsLong w v.dt) (hlong : IsLong w v.overruns) :
    v.EndsAfter w period (overruns period v.dt).toNat := by
  have hnonneg := overruns_nonneg period v.dt
  have hbehind : ∀ k : Nat, (k : Int) ≤ overruns period v.dt →
      (((Catching.round w period)^[k] v).behind w period ↔ (k : Int) < overruns period v.dt) := by
    intro k hk
    have hfits : IsLong w (v.dt - k * period) := by
      have hpos : 0 ≤ (k : Int) * period := Int.mul_nonneg (by omega) (by omega)
      have hle : (k : Int) * period ≤ max v.dt 0 := by
        rcases Nat.eq_zero_or_pos k with rfl | hk1
        · simp
        · have hlate := (le_overruns_iff hperiod v.dt hk1).mp hk
          omega
      have hend := int_lt_longEnd hw
      unfold IsLong at hdt ⊢
      omega
    have hnext := le_overruns_iff hperiod v.dt (Nat.succ_pos k)
    push_cast at hnext
    rw [Int.add_mul, Int.one_mul] at hnext
    rw [iterate_round hw hperiod hdt hlong hk, behind_iff hw hfits]
    dsimp only
    omega
  refine ⟨?_, ?_⟩
  · intro k hk
    exact (hbehind k (by omega)).mpr (by omega)
  · rw [hbehind _ (by omega)]
    omega

/-- A number of periods reaches the present if it is over the number of overruns. -/
theorem reaches_iff (hperiod : 0 < period) (date : Int) (k : Nat) :
    1 ≤ k ∧ date + dt ≤ date + k * period ↔ overruns period dt < k := by
  have hnonneg := overruns_nonneg period dt
  by_cases hk : 1 ≤ k
  · have hiff := le_overruns_iff hperiod dt hk
    omega
  · omega

/-- **The overrun loop catches up.** It ends after `m - 1` rounds, where `m` is the
least number of periods, one at least, whose end is not before the present; the
release date is then `m` periods on, and `m - 1` overruns more are counted. -/
theorem eval_inner_loop_catches_up (hw : 32 ≤ w) (ctx : Context) (hperiod : 0 < ctx.period)
    (hlong : IsLong w ctx.curr.overruns) {dt : Int} (hdt : IsLong w dt) :
    ∃ m : Nat,
      IsLeast {k : Nat | 1 ≤ k ∧ (ctx.date.toNat : Int) + dt ≤ ctx.date.toNat + k * ctx.period} m ∧
      Catching.EndsAfter w ctx.period (m - 1)
        ⟨dt, ctx.curr.overruns, ctx.date + BitVec.ofNat 64 ctx.period⟩ ∧
      (eval_inner_loop w ctx dt).isSome =
        (countIn w ctx (!ctx.warmup) ctx.histogram_avg dt).isSome ∧
      ∀ ctx', eval_inner_loop w ctx dt = some ctx' →
        ctx'.date = ctx.date + BitVec.ofNat 64 (m * ctx.period) ∧
        (ctx.date.toNat + m * ctx.period < 2 ^ 64 →
          ctx'.date.toNat = ctx.date.toNat + m * ctx.period) ∧
        ctx'.curr.overruns = long w (ctx.curr.overruns + (m - 1)) ∧
        (IsLong w (ctx.curr.overruns + (m - 1)) →
          ctx'.curr.overruns = ctx.curr.overruns + (m - 1)) := by
  have hnonneg := overruns_nonneg ctx.period dt
  let v : Catching := ⟨dt, ctx.curr.overruns, ctx.date + BitVec.ofNat 64 ctx.period⟩
  obtain ⟨n, hn⟩ : ∃ n : Nat, (n : Int) = overruns ctx.period dt :=
    ⟨_, Int.toNat_of_nonneg hnonneg⟩
  have hend : v.EndsAfter w ctx.period n := by
    have hall := endsAfter_overruns (v := v) hw hperiod hdt hlong
    rwa [show overruns ctx.period v.dt = n from hn.symm] at hall
  refine ⟨n + 1, ⟨?_, ?_⟩, hend, ?_, ?_⟩
  · exact (reaches_iff hperiod _ _).mpr (by omega)
  · intro k hk
    have hle := (reaches_iff hperiod _ _).mp hk
    omega
  · unfold eval_inner_loop
    rw [Option.isSome_map]
  · intro ctx' hctx'
    have hfuel : n ≤ dt.toNat := by
      rcases Nat.eq_zero_or_pos n with rfl | hpos
      · exact Nat.zero_le _
      · have hlate := (le_overruns_iff hperiod dt hpos).mp (Int.le_of_eq hn)
        have hle : (n : Int) ≤ n * ctx.period := by
          exact_mod_cast Nat.le_mul_of_pos_right n hperiod
        omega
    have hloop := overrunLoop_eq (v := v) hw hdt hend hfuel
    rw [iterate_round hw hperiod hdt hlong (Int.le_of_eq hn)] at hloop
    obtain ⟨histogram, _, rfl⟩ := Option.map_eq_some_iff.mp hctx'
    have hdate : (ctx.date + BitVec.ofNat 64 ctx.period) + BitVec.ofNat 64 (n * ctx.period) =
        ctx.date + BitVec.ofNat 64 ((n + 1) * ctx.period) := by
      rw [BitVec.add_assoc, ← BitVec.ofNat_add, Nat.succ_mul, Nat.add_comm ctx.period]
    have hcount : ctx.curr.overruns + ((n + 1 : Nat) - 1 : Int) = ctx.curr.overruns + n := by
      omega
    rw [hcount]
    dsimp only [v] at hloop
    refine ⟨?_, ?_, ?_, ?_⟩
    · dsimp only
      rw [hloop]
      exact hdate
    · intro hwrap
      dsimp only
      rw [hloop, hdate, BitVec.toNat_add, BitVec.toNat_ofNat, Nat.add_mod_mod,
        Nat.mod_eq_of_lt hwrap]
    · dsimp only
      rw [hloop]
    · intro hfits
      dsimp only
      rw [hloop]
      exact long_of_fits hw hfits.1 hfits.2

/-- Two and a half periods late. -/
def late : Context := { blank with period := 100, date := 1000 }

theorem late_catches_up :
    0 < late.period ∧ IsLong 64 late.curr.overruns ∧ IsLong 64 250 ∧
      ∃ m : Nat,
        IsLeast {k : Nat | 1 ≤ k ∧ (late.date.toNat : Int) + 250 ≤ late.date.toNat + k * 100} m ∧
        Catching.EndsAfter 64 100 (m - 1) ⟨250, 0, 1100⟩ := by
  have hlong : IsLong 64 late.curr.overruns := ⟨by decide, by decide⟩
  have hdt : IsLong 64 250 := ⟨by decide, by decide⟩
  refine ⟨by decide, hlong, hdt, ?_⟩
  obtain ⟨m, hleast, hend, _⟩ :=
    eval_inner_loop_catches_up (w := 64) (by decide) late (by decide) hlong hdt
  exact ⟨m, hleast, hend⟩

end RtaiDemos.Timerbench
