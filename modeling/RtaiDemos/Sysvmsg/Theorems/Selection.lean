import Mathlib.Algebra.Order.Ring.Int
import RtaiDemos.Sysvmsg.Select

/-!
# The message that is picked

`convert_mode` and the scan pick the message that the contract of `msgrcv` names,
for every `msgtyp` but one: the negation of `LONG_MIN` is `LONG_MIN`, and no type
is that low.
-/

namespace RtaiDemos.Sysvmsg

/-- The message that `_rt_msgrcv` picks from `q_messages`. -/
def picked (w : Nat) (msgtyp : Int) (msgflg : BitVec 32) (msgs : List Msg) : Option Msg :=
  let (mode, msgtyp) := convert_mode w msgtyp msgflg
  scan mode msgtyp none msgs

/-- The message may be picked, by the contract. -/
def qualifies (msgtyp : Int) (msgflg : BitVec 32) (msg : Msg) : Bool :=
  if msgtyp = 0 then true
  else if msgtyp < 0 then msg.m_type ≤ -msgtyp
  else if hasFlag msgflg MSG_EXCEPT then msg.m_type ≠ msgtyp
  else msg.m_type = msgtyp

/-- The lowest type that is not above `type`. -/
def lowestType (type : Int) (msgs : List Msg) : Option Int :=
  ((msgs.filter fun m => m.m_type ≤ type).map Msg.m_type).min?

/-- The message that the contract names: the first that qualifies or, for a
negative `msgtyp`, the first of the lowest type that does. -/
def named (msgtyp : Int) (msgflg : BitVec 32) (msgs : List Msg) : Option Msg :=
  if msgtyp < 0 then
    (lowestType (-msgtyp) msgs).bind fun type => msgs.find? fun m => m.m_type = type
  else msgs.find? (qualifies msgtyp msgflg)

theorem lowestType_some {type t : Int} {msgs : List Msg} :
    lowestType type msgs = some t ↔
      (∃ m ∈ msgs, m.m_type = t) ∧ t ≤ type ∧ ∀ m ∈ msgs, m.m_type ≤ type → t ≤ m.m_type := by
  unfold lowestType
  rw [List.min?_eq_some_iff]
  constructor
  · rintro ⟨hmem, hle⟩
    obtain ⟨m, hm, rfl⟩ := List.mem_map.mp hmem
    obtain ⟨hm, hmle⟩ := List.mem_filter.mp hm
    refine ⟨⟨m, hm, rfl⟩, of_decide_eq_true hmle, ?_⟩
    intro x hx hxle
    exact hle _ (List.mem_map_of_mem (List.mem_filter.mpr ⟨hx, decide_eq_true hxle⟩))
  · rintro ⟨⟨m, hm, rfl⟩, hmle, hle⟩
    refine ⟨List.mem_map_of_mem (List.mem_filter.mpr ⟨hm, decide_eq_true hmle⟩), ?_⟩
    intro t ht
    obtain ⟨x, hx, rfl⟩ := List.mem_map.mp ht
    obtain ⟨hx, hxle⟩ := List.mem_filter.mp hx
    exact hle x hx (of_decide_eq_true hxle)

theorem lowestType_none {type : Int} {msgs : List Msg} :
    lowestType type msgs = none ↔ ∀ m ∈ msgs, type < m.m_type := by
  unfold lowestType
  rw [List.min?_eq_none_iff, List.map_eq_nil_iff, List.filter_eq_nil_iff]
  simp only [decide_eq_true_eq, not_le]

/-- Outside of `SEARCH_LESSEQUAL` the scan stops at the first hit. -/
theorem scan_eq_find? {mode : SearchMode} (hmode : mode ≠ .lessequal) (msgtyp : Int)
    (msgs : List Msg) :
    scan mode msgtyp none msgs = msgs.find? fun m => testmsg m msgtyp mode := by
  induction msgs with
  | nil => rfl
  | cons msg rest ih =>
      unfold scan
      cases htest : testmsg msg msgtyp mode with
      | true =>
          rw [if_pos rfl, if_neg (fun h => hmode h.1)]
          exact (List.find?_cons_of_pos (p := fun m => testmsg m msgtyp mode) htest).symm
      | false =>
          rw [if_neg (by decide), ih]
          refine (List.find?_cons_of_neg (p := fun m => testmsg m msgtyp mode) ?_).symm
          rw [htest]
          decide

/-- A message of too high a type does not count. -/
theorem lowestType_cons_above {type : Int} {msg : Msg} (h : ¬ msg.m_type ≤ type)
    (rest : List Msg) : lowestType type (msg :: rest) = lowestType type rest := by
  unfold lowestType
  rw [List.filter_cons_of_neg (by simpa using h)]

/-- The first message has the lowest type when no later one is lower. -/
theorem lowestType_cons_first {type : Int} {msg : Msg} {rest : List Msg} (h : msg.m_type ≤ type)
    (hrest : lowestType (msg.m_type - 1) rest = none) :
    lowestType type (msg :: rest) = some msg.m_type := by
  have hnone := lowestType_none.mp hrest
  refine lowestType_some.mpr ⟨⟨msg, List.mem_cons_self, rfl⟩, h, ?_⟩
  intro m hm _
  rcases List.mem_cons.mp hm with rfl | hm
  · exact Int.le_refl _
  · have := hnone m hm
    omega

/-- A later message has the lowest type when it is lower than the first. -/
theorem lowestType_cons_later {type t : Int} {msg : Msg} {rest : List Msg} (h : msg.m_type ≤ type)
    (hrest : lowestType (msg.m_type - 1) rest = some t) :
    lowestType type (msg :: rest) = some t := by
  obtain ⟨⟨m, hm, hmtype⟩, ht, hleast⟩ := lowestType_some.mp hrest
  refine lowestType_some.mpr ⟨⟨m, List.mem_cons_of_mem msg hm, hmtype⟩, by omega, ?_⟩
  intro x hx _
  rcases List.mem_cons.mp hx with rfl | hx
  · omega
  · by_cases hxle : x.m_type ≤ msg.m_type - 1
    · exact hleast x hx hxle
    · omega

/-- A message of another type is passed over. -/
theorem find?_type_cons {type : Int} {msg : Msg} (h : msg.m_type ≠ type) (rest : List Msg) :
    ((msg :: rest).find? fun m => m.m_type = type) = rest.find? fun m => m.m_type = type :=
  List.find?_cons_of_neg (by simpa using h)

/-- In `SEARCH_LESSEQUAL` what was found before is kept unless a lower type comes. -/
theorem scan_lessequal (msgs : List Msg) (htypes : ∀ m ∈ msgs, 1 ≤ m.m_type) (msgtyp : Int)
    (found : Option Msg) :
    scan .lessequal msgtyp found msgs =
      match lowestType msgtyp msgs with
      | some type => msgs.find? fun m => m.m_type = type
      | none => found := by
  induction msgs generalizing msgtyp found with
  | nil => rfl
  | cons msg rest ih =>
      have hrest := fun m hm => htypes m (List.mem_cons_of_mem msg hm)
      unfold scan
      by_cases hle : msg.m_type ≤ msgtyp
      · have htest : testmsg msg msgtyp .lessequal = true := decide_eq_true hle
        rw [if_pos htest]
        by_cases hone : msg.m_type = 1
        · -- the scan stops, as no type is lower than 1
          have hnone : lowestType (msg.m_type - 1) rest = none := by
            refine lowestType_none.mpr fun m hm => ?_
            have := hrest m hm
            omega
          rw [if_neg (fun h => h.2 hone), lowestType_cons_first hle hnone]
          exact (List.find?_cons_of_pos (by simp)).symm
        · rw [if_pos ⟨rfl, hone⟩, ih hrest]
          cases hlower : lowestType (msg.m_type - 1) rest with
          | none =>
              rw [lowestType_cons_first hle hlower]
              exact (List.find?_cons_of_pos (by simp)).symm
          | some type =>
              obtain ⟨-, htype, -⟩ := lowestType_some.mp hlower
              rw [lowestType_cons_later hle hlower]
              exact (find?_type_cons (by omega) rest).symm
      · have htest : ¬ testmsg msg msgtyp .lessequal = true := by
          rw [testmsg, decide_eq_true_eq]
          exact hle
        rw [if_neg htest, ih hrest, lowestType_cons_above hle]
        cases hlowest : lowestType msgtyp rest with
        | none => rfl
        | some type =>
            obtain ⟨-, htype, -⟩ := lowestType_some.mp hlowest
            exact (find?_type_cons (by omega) rest).symm

theorem two_longs {w : Nat} (hw : 32 ≤ w) : ((2 ^ w : Nat) : Int) = 2 * 2 ^ (w - 1) := by
  rw [← Nat.two_pow_pred_mul_two (by omega), Nat.mul_comm]
  push_cast
  rfl

theorem negLong_of_fits {w : Nat} (hw : 32 ≤ w) {x : Int} (hlo : -2 ^ (w - 1) < x) (hneg : x < 0) :
    negLong w x = -x := by
  have htwo := two_longs hw
  exact Int.bmod_eq_of_le_mul_two (by omega) (by omega)

theorem negLong_min {w : Nat} (hw : 32 ≤ w) : negLong w (-2 ^ (w - 1)) = -2 ^ (w - 1) := by
  unfold negLong
  rw [Int.neg_neg]
  exact Int.bmod_eq_neg (Int.pow_nonneg (by decide)) (two_longs hw)

theorem picked_lessequal {w : Nat} {msgtyp : Int} (hneg : msgtyp < 0) (msgflg : BitVec 32)
    {msgs : List Msg} (htypes : ∀ m ∈ msgs, 1 ≤ m.m_type) :
    picked w msgtyp msgflg msgs =
      (lowestType (negLong w msgtyp) msgs).bind fun type => msgs.find? fun m => m.m_type = type := by
  unfold picked convert_mode
  rw [if_neg (by omega), if_pos hneg]
  show scan .lessequal (negLong w msgtyp) none msgs = _
  rw [scan_lessequal msgs htypes]
  cases lowestType (negLong w msgtyp) msgs <;> rfl

theorem picked_eq_find? {w : Nat} {msgtyp : Int} (hnonneg : ¬ msgtyp < 0) (msgflg : BitVec 32)
    (msgs : List Msg) : picked w msgtyp msgflg msgs = msgs.find? (qualifies msgtyp msgflg) := by
  unfold picked convert_mode
  by_cases hzero : msgtyp = 0
  · rw [if_pos hzero]
    show scan .any msgtyp none msgs = _
    rw [scan_eq_find? (by decide)]
    congr 1
    funext m
    simp [testmsg, qualifies, hzero]
  · rw [if_neg hzero, if_neg hnonneg]
    by_cases hexcept : hasFlag msgflg MSG_EXCEPT
    · rw [if_pos hexcept]
      show scan .notequal msgtyp none msgs = _
      rw [scan_eq_find? (by decide)]
      congr 1
      funext m
      simp [testmsg, qualifies, hzero, hnonneg, hexcept]
    · rw [if_neg hexcept]
      show scan .equal msgtyp none msgs = _
      rw [scan_eq_find? (by decide)]
      congr 1
      funext m
      simp [testmsg, qualifies, hzero, hnonneg, hexcept]

/-- Some message is named when one qualifies. -/
theorem named_none_iff (msgtyp : Int) (msgflg : BitVec 32) (msgs : List Msg) :
    named msgtyp msgflg msgs = none ↔ ∀ m ∈ msgs, qualifies msgtyp msgflg m = false := by
  unfold named
  by_cases hneg : msgtyp < 0
  · rw [if_pos hneg]
    have hqual : (∀ m ∈ msgs, qualifies msgtyp msgflg m = false) ↔
        ∀ m ∈ msgs, -msgtyp < m.m_type := by
      refine forall_congr' fun m => forall_congr' fun _ => ?_
      unfold qualifies
      rw [if_neg (by omega), if_pos hneg, decide_eq_false_iff_not, Int.not_le]
    rw [hqual, ← lowestType_none]
    cases hlowest : lowestType (-msgtyp) msgs with
    | none => simp
    | some type =>
        obtain ⟨⟨m, hm, hmtype⟩, -, -⟩ := lowestType_some.mp hlowest
        simp only [Option.bind_some, List.find?_eq_none, decide_eq_true_eq, reduceCtorEq, iff_false]
        intro hnone
        exact hnone m hm hmtype
  · rw [if_neg hneg, List.find?_eq_none]
    simp only [Bool.not_eq_true]

/-- Of messages of any types, for any `long`: the message picked is the one that
the contract names, and none is picked exactly when none qualifies. -/
theorem msgrcv_selects {w : Nat} (hw : 32 ≤ w) {msgtyp : Int}
    (hlong : -2 ^ (w - 1) ≤ msgtyp ∧ msgtyp < 2 ^ (w - 1)) (msgflg : BitVec 32) {msgs : List Msg}
    (htypes : ∀ m ∈ msgs, 1 ≤ m.m_type ∧ m.m_type ≤ INT_MAX) :
    (picked w msgtyp msgflg msgs = named msgtyp msgflg msgs ∧
      (picked w msgtyp msgflg msgs = none ↔ ∀ m ∈ msgs, qualifies msgtyp msgflg m = false)) ↔
      msgtyp ≠ -2 ^ (w - 1) ∨ msgs = [] := by
  have hint : (2 : Int) ^ 31 ≤ 2 ^ (w - 1) := pow_le_pow_right₀ (by decide) (by omega)
  constructor
  · rintro ⟨hsame, -⟩
    by_contra hnot
    push Not at hnot
    obtain ⟨rfl, hne⟩ := hnot
    -- the lowest `long` is its own negation, below every type
    have hneg : (-2 ^ (w - 1) : Int) < 0 := by omega
    have hpicked : picked w (-2 ^ (w - 1)) msgflg msgs = none := by
      rw [picked_lessequal hneg msgflg fun m hm => (htypes m hm).1, negLong_min hw,
        lowestType_none.mpr]
      · rfl
      · intro m hm
        have := htypes m hm
        omega
    rw [hpicked] at hsame
    obtain ⟨m, hm⟩ := List.exists_mem_of_ne_nil msgs hne
    have hfalse := (named_none_iff _ msgflg msgs).mp hsame.symm m hm
    unfold qualifies at hfalse
    rw [if_neg (by omega), if_pos hneg, decide_eq_false_iff_not] at hfalse
    have htype := htypes m hm
    unfold INT_MAX at htype
    omega
  · intro hcond
    have hsame : picked w msgtyp msgflg msgs = named msgtyp msgflg msgs := by
      unfold named
      by_cases hneg : msgtyp < 0
      · rw [if_pos hneg, picked_lessequal hneg msgflg fun m hm => (htypes m hm).1]
        rcases hcond with hmin | rfl
        · rw [negLong_of_fits hw (by omega) hneg]
        · rfl
      · rw [if_neg hneg, picked_eq_find? hneg]
    exact ⟨hsame, hsame ▸ named_none_iff msgtyp msgflg msgs⟩

/-- Messages of these types. -/
def ofTypes (types : List Int) : List Msg :=
  types.map fun type => { mid := 0, m_type := type, m_ts := 0, m_text := [] }

/-- The first of the two messages of type 2. -/
theorem msgrcv_selects_lowest :
    picked 64 (-3) 0 (ofTypes [5, 2, 3, 2]) = named (-3) 0 (ofTypes [5, 2, 3, 2]) :=
  ((msgrcv_selects (by decide) (by decide) 0 (by decide)).mpr (.inl (by decide))).1

/-- `LONG_MIN` picks nothing where every message qualifies. -/
theorem msgrcv_misses :
    ¬ (picked 64 (-2 ^ 63) 0 (ofTypes [1]) = named (-2 ^ 63) 0 (ofTypes [1]) ∧
      (picked 64 (-2 ^ 63) 0 (ofTypes [1]) = none ↔
        ∀ m ∈ ofTypes [1], qualifies (-2 ^ 63) 0 m = false)) := by
  decide

end RtaiDemos.Sysvmsg
