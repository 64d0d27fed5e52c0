import Mathlib.Data.List.TakeWhile
import Mathlib.Data.Nat.GCD.Basic
import RtaiDemos.Clock.Read

/-!
# The start handshake

In `sem_clock` the reports are added up bit by bit, so a letter counts once however often
it comes. In `msg_clock` they are summed, and a letter that comes twice before the other
takes the sum past the one value it is compared with: the tasks then stay where they are.
-/

namespace RtaiDemos.Clock

/-! ## From keys to reports -/

/-- The reports so far add up to the value that starts the tasks. -/
def ReadVariant.Reaches (v : ReadVariant) (run : BitVec 32) (w : List Letter) : Prop :=
  ∃ q, q <+: w ∧ q ≠ [] ∧ q.foldl (fun run l => v.report run l.code) run = v.complete

theorem ReadVariant.reaches_nil (v : ReadVariant) (run : BitVec 32) : ¬ v.Reaches run [] := by
  rintro ⟨q, hq, hne, -⟩
  exact hne (List.prefix_nil.mp hq)

theorem ReadVariant.reaches_cons (v : ReadVariant) (run : BitVec 32) (l : Letter)
    (w : List Letter) : v.Reaches run (l :: w) ↔
      v.report run l.code = v.complete ∨ v.Reaches (v.report run l.code) w := by
  constructor
  · rintro ⟨q, hq, hne, hsum⟩
    rcases List.prefix_cons_iff.mp hq with rfl | ⟨q', rfl, hq'⟩
    · exact absurd rfl hne
    · by_cases hnil : q' = []
      · subst hnil
        exact .inl hsum
      · exact .inr ⟨q', hq', hnil, hsum⟩
  · rintro (heq | ⟨q, hq, -, hsum⟩)
    · exact ⟨[l], by simp, by simp, heq⟩
    · exact ⟨l :: q, (List.prefix_cons_inj l).mpr hq, by simp, hsum⟩

/-- An action that has to do with the start. -/
def ReadAction.starts : ReadAction → Bool
  | .rt_sem_signal | .rt_send _ _ => true
  | _ => false

/-- A key does its part of the handshake if it is a letter, and none otherwise. -/
theorem ReadVariant.round_letter (v : ReadVariant) (σ : ReadState) {ch : Char} {l : Letter}
    (h : Letter.ofKey ch = some l) : v.round σ ch =
      ({ σ with run := v.report σ.run l.code },
        if v.report σ.run l.code = v.complete then v.start (v.report σ.run l.code) else []) := by
  unfold Letter.ofKey at h
  unfold round
  split at h
  · rename_i hch
    cases h
    simp only [hch]
    rfl
  · rename_i hch
    cases h
    simp only [hch]
    rfl
  · cases h

theorem ReadVariant.round_other (v : ReadVariant) (hfin : ∀ x ∈ v.finish, x.starts = false)
    (σ : ReadState) {ch : Char} (h : Letter.ofKey ch = none) :
    (v.round σ ch).1.run = σ.run ∧ ∀ x ∈ (v.round σ ch).2, x.starts = false := by
  unfold Letter.ofKey at h
  unfold round
  simp only
  split
  all_goals first
    | exact ⟨rfl, hfin⟩
    | exact ⟨rfl, by simp [ReadAction.starts]⟩
    | (rename_i hch; rw [hch] at h; cases h)

/-- The sums that start the tasks, in their order. -/
def ReadVariant.hits (v : ReadVariant) (run : BitVec 32) : List Letter → List (BitVec 32)
  | [] => []
  | l :: w =>
    if v.report run l.code = v.complete then
      v.report run l.code :: v.hits (v.report run l.code) w
    else v.hits (v.report run l.code) w

theorem ReadVariant.reaches_iff_hits (v : ReadVariant) (run : BitVec 32) (w : List Letter) :
    v.Reaches run w ↔ v.hits run w ≠ [] := by
  induction w generalizing run with
  | nil => exact iff_of_false (v.reaches_nil run) (fun h => h rfl)
  | cons l w ih =>
      rw [v.reaches_cons, hits]
      split
      · rename_i heq
        exact iff_of_true (.inl heq) (List.cons_ne_nil _ _)
      · rename_i hne
        rw [← ih]
        exact ⟨fun h => h.resolve_left hne, .inr⟩

/-- What the thread does for the start is what it does at the hits. -/
theorem ReadVariant.loop_starts (v : ReadVariant) (hstart : ∀ run, ∀ x ∈ v.start run, x.starts)
    (hfin : ∀ x ∈ v.finish, x.starts = false) {keys : List Char}
    (hkeys : ∀ ch ∈ keys, ch.toUpper ≠ 'F') (σ : ReadState) (hσ : σ.atEnd = false) :
    (v.loop σ keys).filter ReadAction.starts =
      (v.hits σ.run (reports keys)).flatMap v.start := by
  induction keys generalizing σ with
  | nil => rfl
  | cons ch keys ih =>
      have hrest : ∀ ch ∈ keys, ch.toUpper ≠ 'F' := fun c hc => hkeys c (List.mem_cons_of_mem _ hc)
      rw [loop, if_neg (by simp [hσ]), List.filter_append, reports]
      cases hletter : Letter.ofKey ch with
      | some l =>
          rw [List.filterMap_cons_some hletter, hits, v.round_letter σ hletter]
          rw [ih hrest { σ with run := v.report σ.run l.code } hσ]
          by_cases heq : v.report σ.run l.code = v.complete
          · rw [if_pos heq, if_pos heq, List.filter_eq_self.mpr (hstart _), List.flatMap_cons]
            rfl
          · rw [if_neg heq, if_neg heq]
            rfl
      | none =>
          obtain ⟨hrun, hno⟩ := v.round_other hfin σ hletter
          have hend : (v.round σ ch).1.atEnd = false := by
            have hne := hkeys ch List.mem_cons_self
            unfold round
            simp only
            split
            all_goals first | exact hσ | exact absurd ‹_› hne
          rw [List.filterMap_cons_none hletter, ih hrest _ hend, hrun,
            List.filter_eq_nil_iff.mpr (by simpa using hno)]
          rfl

/-! ## The two programs -/

/-- The keys before `F`. -/
def NoEnd (keys : List Char) : Prop := ∀ ch ∈ keys, ch.toUpper ≠ 'F'

theorem Sem.released_iff {keys : List Char} (h : NoEnd keys) :
    Sem.Released keys ↔ Sem.reader.Reaches 0#32 (reports keys) := by
  have hstarts := Sem.reader.loop_starts (by simp [Sem.reader, ReadAction.starts])
    (by simp [Sem.reader, ReadAction.starts]) h ⟨0#32, 0#32, false⟩ rfl
  have hcount : (Sem.ClockChrono_Read keys).count .rt_sem_signal =
      2 * (Sem.reader.hits 0#32 (reports keys)).length := by
    rw [← List.count_filter (p := ReadAction.starts) rfl]
    change (((Sem.reader.loop ⟨0#32, 0#32, false⟩ keys).filter ReadAction.starts).count _) = _
    rw [hstarts, List.count_flatMap]
    have hconst : (List.count .rt_sem_signal ∘ Sem.reader.start) = fun _ => 2 := rfl
    rw [hconst, List.map_const', List.sum_replicate_nat, Nat.mul_comm]
  rw [Sem.Released, hcount, ReadVariant.reaches_iff_hits, ← List.length_pos_iff]
  omega

theorem Msg.released_iff {keys : List Char} (h : NoEnd keys) :
    Msg.Released keys ↔ Msg.reader.Reaches 0#32 (reports keys) := by
  have hstarts := Msg.reader.loop_starts (by simp [Msg.reader, ReadAction.starts])
    (by simp [Msg.reader, ReadAction.starts]) h ⟨0#32, 0#32, false⟩ rfl
  have hmem : ∀ task run, .rt_send task run ∈ Msg.ClockChrono_Read keys ↔
      run ∈ Msg.reader.hits 0#32 (reports keys) := by
    intro task run
    have hfilter : .rt_send task run ∈ Msg.ClockChrono_Read keys ↔ .rt_send task run ∈
        (Msg.reader.loop ⟨0#32, 0#32, false⟩ keys).filter ReadAction.starts := by
      rw [List.mem_filter]
      exact ⟨fun hm => ⟨hm, rfl⟩, fun hm => hm.1⟩
    rw [hfilter, hstarts, List.mem_flatMap]
    constructor
    · rintro ⟨r, hr, hin⟩
      cases task <;> simp_all [Msg.reader]
    · intro hr
      refine ⟨run, hr, ?_⟩
      cases task <;> simp [Msg.reader]
  rw [ReadVariant.reaches_iff_hits]
  constructor
  · intro hall
    obtain ⟨run, hrun⟩ := hall .CLOCK
    exact List.ne_nil_of_mem ((hmem _ _).mp hrun)
  · intro hne task
    obtain ⟨run, hrun⟩ := List.exists_mem_of_ne_nil _ hne
    exact ⟨run, (hmem _ _).mpr hrun⟩

/-! ## Bit by bit -/

/-- The reports added up: which of the letters have come. -/
def seen (k d : Bool) : BitVec 32 :=
  (if k then Letter.K.code else 0) ||| (if d then Letter.D.code else 0)

theorem Sem.reaches_iff (w : List Letter) : ∀ k d, ¬ (k = true ∧ d = true) →
    (Sem.reader.Reaches (seen k d) w ↔ (k = true ∨ .K ∈ w) ∧ (d = true ∨ .D ∈ w)) := by
  induction w with
  | nil =>
      intro k d hboth
      refine iff_of_false (ReadVariant.reaches_nil _ _) ?_
      rintro ⟨hk, hd⟩
      exact hboth ⟨hk.resolve_right (by simp), hd.resolve_right (by simp)⟩
  | cons l w ih =>
      intro k d hboth
      rw [ReadVariant.reaches_cons]
      cases l with
      | K =>
          have hrun : Sem.reader.report (seen k d) Letter.K.code = seen true d := by
            cases k <;> cases d <;> rfl
          rw [hrun]
          cases d with
          | true => exact iff_of_true (.inl rfl) ⟨.inr List.mem_cons_self, .inl rfl⟩
          | false =>
              have hne : seen true false ≠ Sem.reader.complete := by decide
              rw [ih true false (by decide)]
              simp [hne]
      | D =>
          have hrun : Sem.reader.report (seen k d) Letter.D.code = seen k true := by
            cases k <;> cases d <;> rfl
          rw [hrun]
          cases k with
          | true => exact iff_of_true (.inl rfl) ⟨.inl rfl, .inr List.mem_cons_self⟩
          | false =>
              have hne : seen false true ≠ Sem.reader.complete := by decide
              rw [ih false true (by decide)]
              simp [hne]

/-- `sem_clock` releases the tasks with the key that completes the two. -/
theorem Sem.handshake {keys : List Char} (h : NoEnd keys) :
    HandshakeOk Sem.Released keys := by
  intro p hp
  have hno : NoEnd p := fun ch hch => h ch (hp.subset hch)
  rw [Sem.released_iff hno, show 0#32 = seen false false from rfl,
    Sem.reaches_iff _ false false (by decide)]
  simp [BothSeen]

/-! ## By sums -/

theorem ReadVariant.reaches_append (v : ReadVariant) (u w : List Letter) (run : BitVec 32) :
    v.Reaches run (u ++ w) ↔
      v.Reaches run u ∨ v.Reaches (u.foldl (fun run l => v.report run l.code) run) w := by
  induction u generalizing run with
  | nil =>
      rw [List.nil_append]
      exact ⟨.inr, fun h => h.resolve_left (v.reaches_nil run)⟩
  | cons l u ih =>
      rw [List.cons_append, v.reaches_cons, ih, v.reaches_cons, or_assoc]
      rfl

theorem ReadVariant.Reaches.mono {v : ReadVariant} {run : BitVec 32} {u w : List Letter}
    (h : v.Reaches run u) (hu : u <+: w) : v.Reaches run w := by
  obtain ⟨q, hq, hne, hsum⟩ := h
  exact ⟨q, hq.trans hu, hne, hsum⟩

/-- The handshake of `msg_clock`, seen on the reports alone. -/
def SumsOk (w : List Letter) : Prop :=
  ∀ q, q <+: w → (Msg.reader.Reaches 0#32 q ↔ .K ∈ q ∧ .D ∈ q)

theorem Msg.handshakeOk_iff {keys : List Char} (h : NoEnd keys) :
    HandshakeOk Msg.Released keys ↔ SumsOk (reports keys) := by
  have hno : ∀ p, p <+: keys → NoEnd p := fun p hp ch hch => h ch (hp.subset hch)
  constructor
  · intro hok q hq
    obtain ⟨p, hp, rfl⟩ := List.prefix_filterMap_iff.mp hq
    exact (Msg.released_iff (hno p hp)).symm.trans (hok p hp)
  · intro hok p hp
    rw [Msg.released_iff (hno p hp)]
    exact hok _ (hp.filterMap _)

/-- A letter that keeps coming. -/
theorem Msg.sum_replicate (n : Nat) (l : Letter) (run : BitVec 32) :
    (List.replicate n l).foldl (fun run l => Msg.reader.report run l.code) run =
      run + BitVec.ofNat 32 (n * l.code.toNat) := by
  induction n generalizing run with
  | zero => simp
  | succ n ih =>
      rw [List.replicate_succ, List.foldl_cons, ih, Nat.succ_mul, Nat.add_comm, BitVec.ofNat_add,
        BitVec.ofNat_toNat, BitVec.setWidth_eq, ← BitVec.add_assoc]
      rfl

theorem Msg.reaches_replicate (n : Nat) (l : Letter) :
    Msg.reader.Reaches 0#32 (List.replicate n l) ↔
      ∃ j, 0 < j ∧ j ≤ n ∧ j * l.code.toNat % 2 ^ 32 = 143 := by
  have hsum : ∀ j, (List.replicate j l).foldl (fun run l => Msg.reader.report run l.code) 0#32 =
      Msg.reader.complete ↔ j * l.code.toNat % 2 ^ 32 = 143 := by
    intro j
    rw [Msg.sum_replicate, BitVec.zero_add, ← BitVec.toNat_inj, BitVec.toNat_ofNat]
    rfl
  constructor
  · rintro ⟨q, hq, hne, hcomplete⟩
    obtain ⟨hle, heq⟩ := List.prefix_replicate_iff.mp hq
    rw [heq] at hcomplete
    exact ⟨q.length, List.length_pos_iff.mpr hne, hle, (hsum _).mp hcomplete⟩
  · rintro ⟨j, hpos, hle, hmod⟩
    refine ⟨List.replicate j l, ?_, ?_, (hsum j).mpr hmod⟩
    · rw [List.prefix_replicate_iff, List.length_replicate]
      exact ⟨hle, rfl⟩
    · rw [ne_eq, List.replicate_eq_nil_iff]
      omega

/-- One letter alone: it must not reach the value by itself. -/
theorem sumsOk_replicate (n : Nat) (l : Letter) :
    SumsOk (List.replicate n l) ↔ ¬ Msg.reader.Reaches 0#32 (List.replicate n l) := by
  have hnot : ∀ q, q <+: List.replicate n l → ¬ (.K ∈ q ∧ .D ∈ q) := by
    rintro q hq ⟨hk, hd⟩
    have hkl := List.eq_of_mem_replicate (hq.subset hk)
    have hdl := List.eq_of_mem_replicate (hq.subset hd)
    rw [← hkl] at hdl
    cases hdl
  constructor
  · intro hok hreach
    exact hnot _ List.prefix_rfl ((hok _ List.prefix_rfl).mp hreach)
  · intro hno q hq
    exact iff_of_false (fun hreach => hno (hreach.mono hq)) (hnot q hq)

/-- The second letter must bring the sum to the value, and the first must not. -/
theorem sumsOk_append {n : Nat} (hn : 0 < n) {x y : Letter} (hxy : x ≠ y) (rest : List Letter) :
    SumsOk (List.replicate n x ++ y :: rest) ↔
      ¬ Msg.reader.Reaches 0#32 (List.replicate n x) ∧
        (n * x.code.toNat + y.code.toNat) % 2 ^ 32 = 143 := by
  have hnot : ∀ q, q <+: List.replicate n x → ¬ (.K ∈ q ∧ .D ∈ q) := by
    rintro q hq ⟨hk, hd⟩
    have hkx := List.eq_of_mem_replicate (hq.subset hk)
    have hdx := List.eq_of_mem_replicate (hq.subset hd)
    rw [← hkx] at hdx
    cases hdx
  have hboth : .K ∈ List.replicate n x ++ [y] ∧ .D ∈ List.replicate n x ++ [y] := by
    have hx : x ∈ List.replicate n x := List.mem_replicate.mpr ⟨by omega, rfl⟩
    cases x <;> cases y <;> simp_all
  have hsecond : Msg.reader.Reaches 0#32 (List.replicate n x ++ [y]) ↔
      Msg.reader.Reaches 0#32 (List.replicate n x) ∨
        (n * x.code.toNat + y.code.toNat) % 2 ^ 32 = 143 := by
    rw [ReadVariant.reaches_append, Msg.sum_replicate, ReadVariant.reaches_cons,
      or_iff_left (ReadVariant.reaches_nil _ _), BitVec.zero_add, ← BitVec.toNat_inj]
    have hadd : (Msg.reader.report (BitVec.ofNat 32 (n * x.code.toNat)) y.code).toNat =
        (n * x.code.toNat + y.code.toNat) % 2 ^ 32 := by
      change (BitVec.ofNat 32 (n * x.code.toNat) + y.code).toNat = _
      rw [BitVec.toNat_add, BitVec.toNat_ofNat, Nat.mod_add_mod]
    rw [hadd]
    rfl
  have hshort : List.replicate n x <+: List.replicate n x ++ y :: rest := List.prefix_append _ _
  have hlong : List.replicate n x ++ [y] <+: List.replicate n x ++ y :: rest :=
    (List.prefix_append_right_inj _).mpr (by simp)
  constructor
  · intro hok
    have hno : ¬ Msg.reader.Reaches 0#32 (List.replicate n x) :=
      fun hreach => hnot _ List.prefix_rfl ((hok _ hshort).mp hreach)
    exact ⟨hno, (hsecond.mp ((hok _ hlong).mpr hboth)).resolve_left hno⟩
  · rintro ⟨hno, hmod⟩ q hq
    have hreach := hsecond.mpr (.inr hmod)
    -- a prefix either stops before the second letter or goes at least as far
    rcases List.prefix_or_prefix_of_prefix hq hlong with hq' | hq'
    · rcases List.prefix_concat_iff.mp hq' with rfl | hq''
      · exact iff_of_true hreach hboth
      · exact iff_of_false (fun h => hno (h.mono hq'')) (hnot q hq'')
    · exact iff_of_true (hreach.mono hq') (hboth.imp (hq'.subset ·) (hq'.subset ·))

/-- A list from its first letter on: how often it comes before the other. -/
theorem takeWhile_split (x y : Letter) (hxy : x ≠ y) (w : List Letter) :
    (y ∉ w ∧ w = List.replicate w.length x) ∨
      ∃ rest, y ∈ w ∧ w = List.replicate (w.takeWhile (· = x)).length x ++ y :: rest := by
  induction w with
  | nil => exact .inl ⟨List.not_mem_nil, rfl⟩
  | cons l w ih =>
      by_cases hl : l = x
      · subst hl
        rw [List.takeWhile_cons_of_pos (by simp)]
        rcases ih with ⟨hno, heq⟩ | ⟨rest, hmem, heq⟩
        · refine .inl ⟨?_, ?_⟩
          · rw [List.mem_cons]
            rintro (h | h)
            · exact hxy h.symm
            · exact hno h
          · rw [List.length_cons, List.replicate_succ, ← heq]
        · refine .inr ⟨rest, List.mem_cons_of_mem _ hmem, ?_⟩
          rw [List.length_cons, List.replicate_succ, List.cons_append, ← heq]
      · have hy : l = y := by
          cases l <;> cases x <;> cases y <;> first | rfl | exact absurd rfl hl | exact absurd rfl hxy
        subst hy
        rw [List.takeWhile_cons_of_neg (by simpa using hl)]
        exact .inr ⟨w, List.mem_cons_self, rfl⟩

/-- Division by a number with an inverse. -/
theorem mod_of_mul_mod {n a u m : Nat} (hu : a * u % m = 1) : n % m = n * a % m * u % m :=
  calc n % m = n * (a * u) % m := by rw [Nat.mul_mod, hu, Nat.mul_one, Nat.mod_mod]
    _ = n * a % m * u % m := by rw [← Nat.mul_assoc, Nat.mod_mul_mod]

/-- `K` alone comes to the value after 3836837453 times, and not before. -/
theorem Msg.reaches_K (n : Nat) :
    Msg.reader.Reaches 0#32 (List.replicate n .K) ↔ 3836837453 ≤ n := by
  rw [Msg.reaches_replicate, show Letter.K.code.toNat = 75 from rfl]
  constructor
  · rintro ⟨j, hpos, hle, hmod⟩
    have hj := mod_of_mul_mod (n := j) (a := 75) (u := 2519714147) (m := 2 ^ 32) (by decide)
    rw [hmod, show 143 * 2519714147 % 2 ^ 32 = 3836837453 from rfl] at hj
    rw [← hj]
    exact (Nat.mod_le j _).trans hle
  · intro hge
    exact ⟨3836837453, by omega, hge, by decide⟩

/-- `D` alone never does: the value is odd. -/
theorem Msg.not_reaches_D (n : Nat) : ¬ Msg.reader.Reaches 0#32 (List.replicate n .D) := by
  rw [Msg.reaches_replicate, show Letter.D.code.toNat = 68 from rfl]
  rintro ⟨j, hpos, hle, hmod⟩
  have hodd : j * 68 % 2 ^ 32 % 2 = j * 68 % 2 := Nat.mod_mod_of_dvd _ (by decide)
  rw [hmod] at hodd
  omega

/-- One of a letter and one of the other make the value; `n` more of the first must make 0. -/
theorem sum_eq_iff (n : Nat) {x y : Nat} (hxy : x + y = 143) :
    ((n + 1) * x + y) % 2 ^ 32 = 143 ↔ 2 ^ 32 ∣ n * x := by
  rw [Nat.add_mul, Nat.one_mul, Nat.add_assoc, hxy, Nat.dvd_iff_mod_eq_zero]
  generalize n * x = s
  omega

theorem more_K (n : Nat) : 2 ^ 32 ∣ n * 75 ↔ 2 ^ 32 ∣ n :=
  Nat.Coprime.dvd_mul_right (by decide)

theorem more_D (n : Nat) : 2 ^ 32 ∣ n * 68 ↔ 2 ^ 30 ∣ n := by
  rw [show n * 68 = 4 * (n * 17) by omega, show 2 ^ 32 = 4 * 2 ^ 30 from rfl,
    Nat.mul_dvd_mul_iff_left (by decide)]
  exact Nat.Coprime.dvd_mul_right (by decide)

theorem sumsOk_iff_K (w : List Letter) : SumsOk (.K :: w) ↔ InStep (.K :: w) := by
  rcases takeWhile_split .K .D (by decide) w with ⟨hno, heq⟩ | ⟨rest, hmem, heq⟩
  · have hall : Letter.K :: w = List.replicate (w.length + 1) .K := by
      rw [List.replicate_succ, ← heq]
    rw [InStep, if_neg hno, hall, sumsOk_replicate, Msg.reaches_K]
    omega
  · generalize (w.takeWhile (· = .K)).length = m at heq
    have hsplit : Letter.K :: w = List.replicate (m + 1) .K ++ .D :: rest := by
      rw [List.replicate_succ, List.cons_append, ← heq]
    have hhead : w.head? = some .D ↔ m = 0 := by
      rw [heq]
      cases m with
      | zero => simp
      | succ m => simp [List.replicate_succ]
    rw [InStep, if_pos hmem, hhead, hsplit, sumsOk_append (by omega) (by decide), Msg.reaches_K,
      show Letter.K.code.toNat = 75 from rfl, show Letter.D.code.toNat = 68 from rfl,
      sum_eq_iff m rfl, more_K]
    -- 2 ^ 32 more of them would do, and that is too many
    omega

theorem sumsOk_iff_D (w : List Letter) : SumsOk (.D :: w) ↔ InStep (.D :: w) := by
  rcases takeWhile_split .D .K (by decide) w with ⟨hno, heq⟩ | ⟨rest, hmem, heq⟩
  · have hall : Letter.D :: w = List.replicate (w.length + 1) .D := by
      rw [List.replicate_succ, ← heq]
    rw [InStep, hall, sumsOk_replicate]
    exact iff_of_true (Msg.not_reaches_D _) (fun hmem => absurd hmem hno)
  · have hsplit : Letter.D :: w =
        List.replicate ((w.takeWhile (· = .D)).length + 1) .D ++ .K :: rest := by
      rw [List.replicate_succ, List.cons_append, ← heq]
    rw [InStep, hsplit, sumsOk_append (by omega) (by decide), and_iff_right (Msg.not_reaches_D _),
      forall_prop_of_true hmem, show Letter.K.code.toNat = 75 from rfl,
      show Letter.D.code.toNat = 68 from rfl, sum_eq_iff _ rfl, more_D, Nat.dvd_iff_mod_eq_zero]

/-- The sums come out right exactly on the sequences described by `InStep`. -/
theorem sumsOk_iff (w : List Letter) : SumsOk w ↔ InStep w := by
  cases w with
  | nil => exact iff_of_true ((sumsOk_replicate 0 .K).mpr (ReadVariant.reaches_nil _ _)) trivial
  | cons l w =>
      cases l with
      | K => exact sumsOk_iff_K w
      | D => exact sumsOk_iff_D w

/-! ## Both programs -/

/-- `sem_clock` always releases the tasks with the key that completes the two letters;
`msg_clock` does exactly if the reports are in step. -/
theorem handshake_iff (keys : List Char) (h : NoEnd keys) :
    HandshakeOk Sem.Released keys ∧
      (HandshakeOk Sem.Released keys ∧ HandshakeOk Msg.Released keys ↔
        InStep (reports keys)) := by
  have hsem := Sem.handshake h
  refine ⟨hsem, ?_⟩
  rw [and_iff_right hsem, Msg.handshakeOk_iff h, sumsOk_iff]

theorem handshake_knd :
    HandshakeOk Sem.Released ['k', 'n', 'D'] ∧
      (HandshakeOk Sem.Released ['k', 'n', 'D'] ∧ HandshakeOk Msg.Released ['k', 'n', 'D'] ↔
        InStep (reports ['k', 'n', 'D'])) := by
  have hend : NoEnd ['k', 'n', 'D'] := by
    intro ch hch
    simp only [List.mem_cons, List.not_mem_nil, or_false] at hch
    rcases hch with rfl | rfl | rfl <;> decide
  exact handshake_iff ['k', 'n', 'D'] hend

/-- The keyboard reports, the user presses `k`, the display reports: nobody is released. -/
theorem second_k_stalls : ¬ ∀ keys, (∀ ch ∈ keys, ch.toUpper ∈ ['K', 'D', 'N']) →
    HandshakeOk Sem.Released keys ∧ HandshakeOk Msg.Released keys := by
  intro hclaim
  have hkeys : ∀ ch ∈ ['k', 'k', 'd'], ch.toUpper ∈ ['K', 'D', 'N'] := by
    intro ch hch
    simp only [List.mem_cons, List.not_mem_nil, or_false] at hch
    rcases hch with rfl | rfl | rfl <;> decide
  have hok := (hclaim ['k', 'k', 'd'] hkeys).2 _ List.prefix_rfl
  have hboth : BothSeen ['k', 'k', 'd'] := by
    unfold BothSeen
    decide
  obtain ⟨run, hsent⟩ := hok.mpr hboth .CLOCK
  have hnone : Msg.ClockChrono_Read ['k', 'k', 'd'] = [] := by decide
  rw [hnone] at hsent
  cases hsent

end RtaiDemos.Clock
