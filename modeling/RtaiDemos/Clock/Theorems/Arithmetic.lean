import RtaiDemos.Clock.Fields
import RtaiDemos.Clock.Logic.Hours

/-!
# The arithmetic of time

On the fields of an hour that is in range, the functions on ints are the functions
on `MenageHmsh_tHour`, so times stay valid and count hundredths modulo a day. The
one exception is the number of seconds that no int comes after.
-/

namespace RtaiDemos.Clock.Fields

open CInt

/-! ### Operations on valid fields -/

theorem advance_natCast {k n : Nat} (hk : k < n) (hn : n ≤ 100) :
    advance k n = some (((k + 1) % n : Nat) : Int) := by
  have hfits : Fits ((k : Int) + 1) := ⟨by omega, by omega⟩
  unfold advance
  rw [checked_of_fits hfits, Option.map_some, Int.tmod_eq_emod_of_nonneg (by omega)]
  rfl

theorem initialise_ofHour : MenageHmsh_Initialise = ofHour Clock.MenageHmsh_Initialise := rfl

theorem advanceHours_ofHour (v : MenageHmsh_tHour) :
    MenageHmsh_AdvanceHours (ofHour v) = some (ofHour (Clock.MenageHmsh_AdvanceHours v)) := by
  unfold MenageHmsh_AdvanceHours
  rw [show (ofHour v).hours = (v.hours : Int) from rfl, show (24 : Int) = ((24 : Nat) : Int) from rfl,
    advance_natCast v.hours_lt (by decide)]
  rfl

theorem advanceMinutes_ofHour (v : MenageHmsh_tHour) :
    MenageHmsh_AdvanceMinutes (ofHour v) = some (ofHour (Clock.MenageHmsh_AdvanceMinutes v)) := by
  unfold MenageHmsh_AdvanceMinutes
  rw [show (ofHour v).minutes = (v.minutes : Int) from rfl,
    show (60 : Int) = ((60 : Nat) : Int) from rfl, advance_natCast v.minutes_lt (by decide)]
  rfl

theorem advanceSeconds_ofHour (v : MenageHmsh_tHour) :
    MenageHmsh_AdvanceSeconds (ofHour v) = some (ofHour (Clock.MenageHmsh_AdvanceSeconds v)) := by
  unfold MenageHmsh_AdvanceSeconds
  rw [show (ofHour v).seconds = (v.seconds : Int) from rfl,
    show (60 : Int) = ((60 : Nat) : Int) from rfl, advance_natCast v.seconds_lt (by decide)]
  rfl

theorem plusOneSecond_ofHour (v : MenageHmsh_tHour) :
    MenageHmsh_PlusOneSecond (ofHour v) = some (ofHour (Clock.MenageHmsh_PlusOneSecond v)) := by
  have hseconds : ∀ v : MenageHmsh_tHour, (ofHour v).seconds = 0 ↔ v.seconds = 0 :=
    fun v => Int.natCast_eq_zero
  have hminutes : ∀ v : MenageHmsh_tHour, (ofHour v).minutes = 0 ↔ v.minutes = 0 :=
    fun v => Int.natCast_eq_zero
  unfold MenageHmsh_PlusOneSecond Clock.MenageHmsh_PlusOneSecond
  rw [advanceSeconds_ofHour, Option.bind_some]
  simp only
  by_cases hs : (Clock.MenageHmsh_AdvanceSeconds v).seconds = 0
  · rw [if_pos hs, if_pos ((hseconds _).mpr hs), advanceMinutes_ofHour, Option.bind_some]
    by_cases hm : (Clock.MenageHmsh_AdvanceMinutes (Clock.MenageHmsh_AdvanceSeconds v)).minutes = 0
    · rw [if_pos hm, if_pos ((hminutes _).mpr hm), advanceHours_ofHour]
    · rw [if_neg hm, if_neg (mt (hminutes _).mp hm)]
  · rw [if_neg hs, if_neg (mt (hseconds _).mp hs)]

theorem plusOneUnit_ofHour (v : MenageHmsh_tHour) :
    MenageHmsh_PlusOneUnit (ofHour v) =
      some (ofHour (Clock.MenageHmsh_PlusOneUnit v).1, (Clock.MenageHmsh_PlusOneUnit v).2) := by
  unfold MenageHmsh_PlusOneUnit Clock.MenageHmsh_PlusOneUnit
  rw [show (ofHour v).hundredthes = (v.hundredthes : Int) from rfl,
    show (100 : Int) = ((100 : Nat) : Int) from rfl, advance_natCast v.hundredthes_lt (by decide),
    Option.bind_some]
  simp only [Int.natCast_eq_zero, decide_eq_true_eq]
  by_cases hc : (v.hundredthes + 1) % 100 = 0
  · have hsecond := plusOneSecond_ofHour { v with
      hundredthes := (v.hundredthes + 1) % 100, hundredthes_lt := Nat.mod_lt _ (by decide) }
    rw [if_pos hc, if_pos hc, decide_eq_true hc]
    unfold ofHour at hsecond ⊢
    rw [hsecond, Option.map_some]
  · rw [if_neg hc, if_neg hc, decide_eq_false hc]
    rfl

/-- The loop makes one step for every `i` up to `n`. -/
theorem plusNSecondsFrom_ofHour {n : Int} (hn : n < 2147483647) (k : Nat) :
    ∀ (i : Int) (v : MenageHmsh_tHour), n + 1 - i = k →
      plusNSecondsFrom n i (ofHour v) = some (ofHour (Clock.MenageHmsh_PlusNSeconds k v)) := by
  induction k with
  | zero =>
      intro i v hk
      rw [plusNSecondsFrom, if_neg (by omega)]
      rfl
  | succ k ih =>
      intro i v hk
      rw [plusNSecondsFrom, if_pos (by omega), plusOneSecond_ofHour, Option.bind_some,
        if_pos (by omega), ih (i + 1) _ (by omega)]
      unfold Clock.MenageHmsh_PlusNSeconds
      rw [Function.iterate_succ_apply]

theorem plusNSeconds_ofHour {n : Int} (hn : n < 2147483647) (v : MenageHmsh_tHour) :
    MenageHmsh_PlusNSeconds n (ofHour v) =
      some (ofHour (Clock.MenageHmsh_PlusNSeconds n.toNat v)) := by
  unfold MenageHmsh_PlusNSeconds
  by_cases h0 : 0 ≤ n
  · exact plusNSecondsFrom_ofHour hn n.toNat 1 v (by omega)
  · have hnat : n.toNat = 0 := by omega
    rw [plusNSecondsFrom, if_neg (by omega), hnat]
    rfl

/-- Up to the last int the loop never ends: the counter overflows first. -/
theorem plusNSecondsFrom_last {n : Int} (hn : 2147483647 ≤ n) (k : Nat) :
    ∀ (i : Int) (h : Hour), i ≤ 2147483647 → 2147483647 - i = k →
      plusNSecondsFrom n i h = none := by
  induction k with
  | zero =>
      intro i h hi hk
      rw [plusNSecondsFrom, if_pos (by omega)]
      rcases MenageHmsh_PlusOneSecond h with _ | h'
      · rfl
      · rw [Option.bind_some, if_neg (by omega)]
  | succ k ih =>
      intro i h hi hk
      rw [plusNSecondsFrom, if_pos (by omega)]
      rcases MenageHmsh_PlusOneSecond h with _ | h'
      · rfl
      · rw [Option.bind_some, if_pos (by omega), ih (i + 1) h' (by omega) (by omega)]

theorem plusNSeconds_last {n : Int} (hn : 2147483647 ≤ n) (h : Hour) :
    MenageHmsh_PlusNSeconds n h = none :=
  plusNSecondsFrom_last hn 2147483646 1 h (by omega) (by omega)

theorem equal_ofHour (v v' : MenageHmsh_tHour) :
    MenageHmsh_Equal (ofHour v) (ofHour v') = Clock.MenageHmsh_Equal v v' := by
  have hnat : ∀ m n : Nat, ((m : Int) == (n : Int)) = (m == n) := by
    intro m n
    rw [Bool.eq_iff_iff, beq_iff_eq, beq_iff_eq, Int.ofNat_inj]
  unfold MenageHmsh_Equal Clock.MenageHmsh_Equal ofHour
  simp only [hnat]

theorem count_ofHour (v : MenageHmsh_tHour) : (ofHour v).count = (v.count : Int) := by
  unfold Hour.count MenageHmsh_tHour.count ofHour
  push_cast
  rfl

/-! ### Convert -/

theorem digit_tens {n : Nat} (hn : n < 100) : digit ((n : Int).tdiv 10) = some (tens n hn) := by
  have hdiv : (n : Int).tdiv 10 = ((n / 10 : Nat) : Int) := rfl
  unfold digit
  rw [hdiv, dif_pos ⟨by omega, by omega⟩]
  rfl

theorem digit_units (n : Nat) : digit ((n : Int).tmod 10) = some (units n) := by
  have hmod : (n : Int).tmod 10 = ((n % 10 : Nat) : Int) := rfl
  unfold digit
  rw [hmod, dif_pos ⟨by omega, by omega⟩]
  rfl

theorem convert_ofHour (v : MenageHmsh_tHour) (hundredthes : Bool) (chain : MenageHmsh_tChain11) :
    MenageHmsh_Convert (ofHour v) hundredthes chain =
      some (Clock.MenageHmsh_Convert v hundredthes chain) := by
  unfold MenageHmsh_Convert ofHour
  simp only [digit_tens (Nat.lt_trans v.hours_lt (by decide)), digit_units,
    digit_tens (Nat.lt_trans v.minutes_lt (by decide)),
    digit_tens (Nat.lt_trans v.seconds_lt (by decide)), digit_tens v.hundredthes_lt,
    Option.bind_eq_bind, Option.bind_some]
  cases hundredthes <;> rfl

/-- Every index of `digits` that is used is one of `digits`. -/
theorem indices_ofHour (v : MenageHmsh_tHour) (hundredthes : Bool) :
    ∀ i ∈ indices (ofHour v) hundredthes, 0 ≤ i ∧ i ≤ 9 := by
  have htens : ∀ n : Nat, n < 100 → 0 ≤ (n : Int).tdiv 10 ∧ (n : Int).tdiv 10 ≤ 9 := by
    intro n hn
    rw [show (n : Int).tdiv 10 = ((n / 10 : Nat) : Int) from rfl]
    omega
  have hunits : ∀ n : Nat, 0 ≤ (n : Int).tmod 10 ∧ (n : Int).tmod 10 ≤ 9 := by
    intro n
    rw [show (n : Int).tmod 10 = ((n % 10 : Nat) : Int) from rfl]
    omega
  intro i hi
  have hh := v.hours_lt
  have hm := v.minutes_lt
  have hs := v.seconds_lt
  unfold indices ofHour at hi
  rcases List.mem_append.mp hi with hi | hi
  · simp only [List.mem_cons, List.not_mem_nil, or_false] at hi
    rcases hi with rfl | rfl | rfl | rfl | rfl | rfl
    · exact htens _ (by omega)
    · exact hunits _
    · exact htens _ (by omega)
    · exact hunits _
    · exact htens _ (by omega)
    · exact hunits _
  · cases hundredthes with
    | false => cases hi
    | true =>
        simp only [if_true, List.mem_cons, List.not_mem_nil, or_false] at hi
        rcases hi with rfl | rfl
        · exact htens _ v.hundredthes_lt
        · exact hunits _

theorem digits_injective : Function.Injective digits := by decide

/-- Two digits give back a number below 100. -/
theorem tens_units_injective {m n b : Nat} (hb : b ≤ 100) (hm : m < b) (hn : n < b)
    (ht : tens m (Nat.lt_of_lt_of_le hm hb) = tens n (Nat.lt_of_lt_of_le hn hb))
    (hu : units m = units n) : m = n := by
  have h10 : m / 10 = n / 10 := congrArg Fin.val (digits_injective ht)
  have h1 : m % 10 = n % 10 := congrArg Fin.val (digits_injective hu)
  omega

/-- A chain gives back the time up to the second. -/
theorem convert_seconds {v v' : MenageHmsh_tHour} {hundredthes : Bool} {chain : MenageHmsh_tChain11}
    (h : Clock.MenageHmsh_Convert v hundredthes chain =
      Clock.MenageHmsh_Convert v' hundredthes chain) :
    v.hours = v'.hours ∧ v.minutes = v'.minutes ∧ v.seconds = v'.seconds :=
  ⟨tens_units_injective (by decide) v.hours_lt v'.hours_lt (congrFun h 1) (congrFun h 2),
    tens_units_injective (by decide) v.minutes_lt v'.minutes_lt (congrFun h 4) (congrFun h 5),
    tens_units_injective (by decide) v.seconds_lt v'.seconds_lt (congrFun h 7) (congrFun h 8)⟩

theorem convert_injective {v v' : MenageHmsh_tHour} {chain : MenageHmsh_tChain11}
    (h : Clock.MenageHmsh_Convert v true chain = Clock.MenageHmsh_Convert v' true chain) :
    v = v' := by
  obtain ⟨hh, hm, hs⟩ := convert_seconds h
  have hc : v.hundredthes = v'.hundredthes :=
    tens_units_injective (by decide) v.hundredthes_lt v'.hundredthes_lt (congrFun h 10)
      (congrFun h 11)
  exact MenageHmsh_tHour.ext hh hm hs hc

/-- Without hundredths, the chain is that of the second. -/
theorem convert_second_iff (v v' : MenageHmsh_tHour) (chain : MenageHmsh_tChain11) :
    Clock.MenageHmsh_Convert v false chain = Clock.MenageHmsh_Convert v' false chain ↔
      v.count / 100 = v'.count / 100 := by
  have hm := v.minutes_lt
  have hm' := v'.minutes_lt
  have hs := v.seconds_lt
  have hs' := v'.seconds_lt
  have hc := v.hundredthes_lt
  have hc' := v'.hundredthes_lt
  constructor
  · intro h
    obtain ⟨hh, hm, hs⟩ := convert_seconds h
    unfold MenageHmsh_tHour.count
    omega
  · intro h
    unfold MenageHmsh_tHour.count at h
    have hh : v.hours = v'.hours := by omega
    have hm : v.minutes = v'.minutes := by omega
    have hs : v.seconds = v'.seconds := by omega
    unfold Clock.MenageHmsh_Convert
    simp only [hh, hm, hs, Bool.false_eq_true, if_false]

/-! ### Sequences of operations -/

/-- On valid fields, the operations are those on hours in range. -/
theorem apply_ofHour (v : MenageHmsh_tHour) {op : Operation}
    (hop : ∀ n, op = .PlusNSeconds n → n < 2147483647) :
    op.apply (ofHour v) = some (ofHour (op.on v)) := by
  cases op with
  | Initialise => rfl
  | InitialiseHundredthes => rfl
  | AdvanceHours => exact advanceHours_ofHour v
  | AdvanceMinutes => exact advanceMinutes_ofHour v
  | AdvanceSeconds => exact advanceSeconds_ofHour v
  | PlusOneSecond => exact plusOneSecond_ofHour v
  | PlusNSeconds n => exact plusNSeconds_ofHour (hop n rfl) v
  | PlusOneUnit =>
      unfold Operation.apply Operation.on
      simp only
      rw [plusOneUnit_ofHour, Option.map_some]

/-- An operation that returns is none with too many seconds. -/
theorem apply_returned {h h' : Hour} {op : Operation} (happly : op.apply h = some h') :
    ∀ n, op = .PlusNSeconds n → n < 2147483647 := by
  rintro n rfl
  by_contra hn
  have hnone : MenageHmsh_PlusNSeconds n h = none := plusNSeconds_last (by omega) h
  unfold Operation.apply at happly
  simp only at happly
  rw [hnone] at happly
  cases happly

theorem foldlM_ofHour {ops : List Operation} {v : MenageHmsh_tHour}
    (hops : ∀ n, .PlusNSeconds n ∈ ops → n < 2147483647) :
    ops.foldlM Operation.apply (ofHour v) = some (ofHour (ops.foldl Operation.on v)) := by
  induction ops generalizing v with
  | nil => rfl
  | cons op ops ih =>
      rw [List.foldlM_cons, apply_ofHour v fun n hn => hops n (hn ▸ List.mem_cons_self)]
      exact ih fun n hn => hops n (List.mem_cons_of_mem op hn)

theorem foldlM_returned {ops : List Operation} {h h' : Hour}
    (hrun : ops.foldlM Operation.apply h = some h') :
    ∀ n, .PlusNSeconds n ∈ ops → n < 2147483647 := by
  induction ops generalizing h with
  | nil =>
      intro n hn
      cases hn
  | cons op ops ih =>
      rw [List.foldlM_cons] at hrun
      obtain ⟨h₁, happly, hrest⟩ := Option.bind_eq_some_iff.mp hrun
      intro n hn
      rcases List.mem_cons.mp hn with heq | hn
      · exact apply_returned happly n heq.symm
      · exact ih hrest n hn

/-- After operations from `MenageHmsh_Initialise` the time is one in range. -/
theorem run_ofHour {ops : List Operation} {h : Hour} (hrun : run ops = some h) :
    ∃ v, ofHour v = h := by
  unfold run at hrun
  have hops := foldlM_returned hrun
  rw [initialise_ofHour, foldlM_ofHour hops] at hrun
  exact ⟨_, Option.some.inj hrun⟩

theorem plusUnits_ofHour (n : Nat) (v : MenageHmsh_tHour) :
    ∃ v', plusUnits n (ofHour v) = some (ofHour v') ∧ v'.count = (v.count + n) % day := by
  unfold plusUnits
  induction n with
  | zero => exact ⟨v, rfl, (Nat.mod_eq_of_lt (count_lt v)).symm⟩
  | succ n ih =>
      obtain ⟨v', hv', hcount⟩ := ih
      refine ⟨(Clock.MenageHmsh_PlusOneUnit v').1, ?_, ?_⟩
      · rw [Function.iterate_succ_apply', hv', Option.bind_some, plusOneUnit_ofHour,
          Option.map_some]
      · rw [plusOneUnit_count, hcount, Nat.mod_add_mod, Nat.add_assoc]

/-- Seconds are hundreds of units. -/
theorem plusNSeconds_eq_plusUnits {n : Int} (hn : n < 2147483647) (v : MenageHmsh_tHour) :
    MenageHmsh_PlusNSeconds n (ofHour v) = plusUnits (100 * n.toNat) (ofHour v) := by
  obtain ⟨v', hv', hcount⟩ := plusUnits_ofHour (100 * n.toNat) v
  rw [plusNSeconds_ofHour hn, hv']
  refine congrArg some (congrArg ofHour (count_injective ?_))
  rw [plusNSeconds_count, hcount]

/-! ### Time arithmetic -/

/-- What is expected of the functions on times, and of `MenageHmsh_PlusNSeconds` at
`n`. -/
structure TimeArithmetic (n : Int) : Prop where
  /-- A unit is 1 modulo a day, reported when it completes a second. -/
  plusOneUnit : ∀ h, Valid h → ∃ h' reportSeconds,
    MenageHmsh_PlusOneUnit h = some (h', reportSeconds) ∧ Valid h' ∧
      h'.count = (h.count + 1) % 8640000 ∧ (reportSeconds = true ↔ (h.count + 1) % 100 = 0)
  /-- `n` seconds are `100 * n` units. -/
  plusNSeconds : ∀ h, Valid h →
    (MenageHmsh_PlusNSeconds n h).isSome ∧ MenageHmsh_PlusNSeconds n h = plusUnits (100 * n.toNat) h
  equal : ∀ h1 h2, Valid h1 → Valid h2 → (MenageHmsh_Equal h1 h2 = true ↔ h1.count = h2.count)
  /-- Every operation keeps times valid. -/
  operation : ∀ op : Operation, ∀ h h', Valid h → op.apply h = some h' → Valid h'
  /-- The operations return, with no more than `n` seconds at a time. -/
  returns : ∀ ops, (∀ m, .PlusNSeconds m ∈ ops → m ≤ n) → (run ops).isSome
  /-- After every sequence of them `MenageHmsh_Convert` finds its digits. -/
  sequence : ∀ ops h, run ops = some h → Valid h ∧ ∀ hundredthes chain,
    (∀ i ∈ indices h hundredthes, 0 ≤ i ∧ i ≤ 9) ∧ (MenageHmsh_Convert h hundredthes chain).isSome
  convert : ∀ h1 h2 chain, Valid h1 → Valid h2 →
    (MenageHmsh_Convert h1 true chain = MenageHmsh_Convert h2 true chain ↔ h1 = h2) ∧
      (MenageHmsh_Convert h1 false chain = MenageHmsh_Convert h2 false chain ↔
        h1.count / 100 = h2.count / 100)

theorem plusOneUnit_valid (h : Hour) (hv : Valid h) : ∃ h' reportSeconds,
    MenageHmsh_PlusOneUnit h = some (h', reportSeconds) ∧ Valid h' ∧
      h'.count = (h.count + 1) % 8640000 ∧ (reportSeconds = true ↔ (h.count + 1) % 100 = 0) := by
  obtain ⟨v, rfl⟩ := hv.exists_ofHour
  refine ⟨_, _, plusOneUnit_ofHour v, ofHour_valid _, ?_, ?_⟩
  · rw [count_ofHour, count_ofHour, plusOneUnit_count]
    rfl
  · rw [plusOneUnit_carry, decide_eq_true_eq, count_ofHour]
    omega

theorem convert_iff {h1 h2 : Hour} (chain : MenageHmsh_tChain11) (hv1 : Valid h1)
    (hv2 : Valid h2) :
    (MenageHmsh_Convert h1 true chain = MenageHmsh_Convert h2 true chain ↔ h1 = h2) ∧
      (MenageHmsh_Convert h1 false chain = MenageHmsh_Convert h2 false chain ↔
        h1.count / 100 = h2.count / 100) := by
  obtain ⟨v1, rfl⟩ := hv1.exists_ofHour
  obtain ⟨v2, rfl⟩ := hv2.exists_ofHour
  rw [convert_ofHour, convert_ofHour, convert_ofHour, convert_ofHour, Option.some.injEq,
    Option.some.injEq, convert_second_iff, count_ofHour, count_ofHour]
  refine ⟨⟨fun h => congrArg ofHour (convert_injective h), fun h => ?_⟩, by omega⟩
  rw [ofHour_injective h]

/-- The arithmetic of time is right, with `MenageHmsh_PlusNSeconds` for every number
of seconds but the last int: there the counter of its loop overflows. -/
theorem time_arithmetic_iff {n : Int} (hn : 0 ≤ n ∧ n ≤ 2147483647) :
    TimeArithmetic n ↔ n < 2147483647 := by
  constructor
  · intro h
    by_contra hlast
    have hsome := (h.plusNSeconds _ (ofHour_valid Clock.MenageHmsh_Initialise)).1
    rw [plusNSeconds_last (by omega)] at hsome
    cases hsome
  · intro hlast
    refine ⟨plusOneUnit_valid, ?_, ?_, ?_, ?_, ?_, fun h1 h2 chain => convert_iff chain⟩
    · intro h hv
      obtain ⟨v, rfl⟩ := hv.exists_ofHour
      refine ⟨?_, plusNSeconds_eq_plusUnits hlast v⟩
      rw [plusNSeconds_ofHour hlast]
      rfl
    · intro h1 h2 hv1 hv2
      obtain ⟨v1, rfl⟩ := hv1.exists_ofHour
      obtain ⟨v2, rfl⟩ := hv2.exists_ofHour
      rw [equal_ofHour, equal_iff, count_ofHour, count_ofHour, Int.ofNat_inj]
    · intro op h h' hv happly
      obtain ⟨v, rfl⟩ := hv.exists_ofHour
      rw [apply_ofHour v (apply_returned happly)] at happly
      rw [← Option.some.inj happly]
      exact ofHour_valid _
    · intro ops hops
      unfold run
      rw [initialise_ofHour, foldlM_ofHour fun m hm => lt_of_le_of_lt (hops m hm) hlast]
      rfl
    · intro ops h hrun
      obtain ⟨v, rfl⟩ := run_ofHour hrun
      refine ⟨ofHour_valid v, fun hundredthes chain => ⟨indices_ofHour v hundredthes, ?_⟩⟩
      rw [convert_ofHour]
      rfl

/-- Three seconds, as for the intermediate times. -/
theorem time_arithmetic_three : (0 ≤ (3 : Int) ∧ (3 : Int) ≤ 2147483647) ∧
    (TimeArithmetic 3 ↔ (3 : Int) < 2147483647) :=
  ⟨by decide, time_arithmetic_iff (by decide)⟩

/-- With the last int the loop does not end. -/
theorem time_arithmetic_last :
    ¬ ∀ n : Int, 0 ≤ n ∧ n ≤ 2147483647 → TimeArithmetic n := by
  intro h
  have hsome := ((h 2147483647 (by decide)).plusNSeconds _
    (ofHour_valid Clock.MenageHmsh_Initialise)).1
  rw [plusNSeconds_last (by decide)] at hsome
  cases hsome

end RtaiDemos.Clock.Fields
