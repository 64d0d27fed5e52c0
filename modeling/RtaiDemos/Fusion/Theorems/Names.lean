import RtaiDemos.Core.Numeral
import RtaiDemos.Fusion.Bind

/-!
# What a name becomes

`nam2id` reads the first six characters of a name as the digits of a number in
base 39. No digit is 0, so the digits come back from the number whatever their
count is, and six of them stay clear of the id of the empty name.
-/

namespace RtaiDemos.Fusion

open Numeral

/-- A letter, a digit or an underscore. -/
def WordChar (c : Nat) : Prop :=
  (97 ≤ c ∧ c ≤ 122) ∨ (65 ≤ c ∧ c ≤ 90) ∨ (48 ≤ c ∧ c ≤ 57) ∨ c = 95

/-- The lower case of a letter; every other character as it is. -/
def lower (c : Nat) : Nat :=
  if 65 ≤ c ∧ c ≤ 90 then c + 32 else c

/-- Two characters that a name does not tell apart: the same but for the case, or
both foreign to names. -/
def Alike (c d : Nat) : Prop :=
  (WordChar c ∧ WordChar d ∧ lower c = lower d) ∨ (¬ WordChar c ∧ ¬ WordChar d)

/-- The codes of the characters of a name that count. -/
def codes (name : List UInt8) : List Nat :=
  (name.take 6).map fun c => nameDigit c.toNat

/-! ### Digits -/

/-- A digit is none of a number's leading zeros. -/
theorem nameDigit_pos (c : Nat) : 0 < nameDigit c := by
  unfold nameDigit
  split
  · omega
  split
  · omega
  split
  · omega
  split <;> omega

theorem nameDigit_lt (c : Nat) : nameDigit c < 39 := by
  unfold nameDigit
  split
  · omega
  split
  · omega
  split
  · omega
  split <;> omega

/-- Exactly the characters that are foreign to names have the last code. -/
theorem nameDigit_foreign (c : Nat) : nameDigit c = 38 ↔ ¬ WordChar c := by
  unfold nameDigit WordChar
  split
  · omega
  split
  · omega
  split
  · omega
  split <;> omega

/-- Within names, the code says what the character is up to its case. -/
theorem nameDigit_word {c : Nat} (hc : WordChar c) :
    nameDigit c =
      if lower c = 95 then 37 else if lower c ≤ 57 then lower c - 47 else lower c - 86 := by
  unfold WordChar at hc
  unfold nameDigit
  split
  · have hl : lower c = c := if_neg (by omega)
    rw [hl, if_neg (by omega), if_neg (by omega)]
    omega
  split
  · have hl : lower c = c + 32 := if_pos (by omega)
    rw [hl, if_neg (by omega), if_neg (by omega)]
    omega
  split
  · have hl : lower c = c := if_neg (by omega)
    rw [hl, if_neg (by omega), if_pos (by omega)]
    omega
  · have hl : lower c = c := if_neg (by omega)
    rw [hl, if_pos (by omega), if_pos (by omega)]

/-- The lower case of a name's character is a small letter, a digit or the underscore. -/
theorem lower_word {c : Nat} (hc : WordChar c) :
    (97 ≤ lower c ∧ lower c ≤ 122) ∨ (48 ≤ lower c ∧ lower c ≤ 57) ∨ lower c = 95 := by
  unfold WordChar at hc
  unfold lower
  split <;> omega

/-- Two characters share a code if and only if names do not tell them apart. -/
theorem nameDigit_eq_iff (c d : Nat) : nameDigit c = nameDigit d ↔ Alike c d := by
  unfold Alike
  by_cases hc : WordChar c
  · by_cases hd : WordChar d
    · have hlc := lower_word hc
      have hld := lower_word hd
      constructor
      · intro h
        rw [nameDigit_word hc, nameDigit_word hd] at h
        refine .inl ⟨hc, hd, ?_⟩
        split at h <;> split at h <;> (try split at h) <;> (try split at h) <;> omega
      · rintro (⟨_, _, h⟩ | ⟨h, _⟩)
        · rw [nameDigit_word hc, nameDigit_word hd, h]
        · exact absurd hc h
    · have h38 := (nameDigit_foreign d).mpr hd
      have hne := mt (nameDigit_foreign c).mp (not_not_intro hc)
      constructor
      · intro h
        exact absurd (h.trans h38) hne
      · rintro (⟨_, h, _⟩ | ⟨h, _⟩)
        · exact absurd h hd
        · exact absurd hc h
  · have h38 := (nameDigit_foreign c).mpr hc
    constructor
    · intro h
      exact .inr ⟨hc, (nameDigit_foreign d).mp (h.symm.trans h38)⟩
    · rintro (⟨h, _, _⟩ | ⟨_, hd⟩)
      · exact absurd h hc
      · exact h38.trans ((nameDigit_foreign d).mpr hd).symm

/-! ### Ids -/

theorem codes_digits (name : List UInt8) : ∀ d ∈ codes name, 0 < d ∧ d < 39 := by
  intro d hd
  obtain ⟨c, _, rfl⟩ := List.mem_map.mp hd
  exact ⟨nameDigit_pos _, nameDigit_lt _⟩

theorem codes_length (name : List UInt8) : (codes name).length ≤ 6 := by
  unfold codes
  rw [List.length_map]
  exact List.length_take_le 6 name

theorem codes_eq_nil {name : List UInt8} : codes name = [] ↔ name = [] := by
  cases name with
  | nil => exact iff_of_true rfl rfl
  | cons c name => exact iff_of_false (List.cons_ne_nil _ _) (List.cons_ne_nil _ _)

/-- The loop of `nam2id` computes the numeral, in the words of the machine. -/
theorem foldl_word (w : Nat) (chars : List UInt8) (a : Nat) :
    chars.foldl (fun retval c => retval * 39#w + BitVec.ofNat w (nameDigit c.toNat))
        (BitVec.ofNat w a) =
      BitVec.ofNat w ((chars.map fun c => nameDigit c.toNat).foldl
        (fun retval c => retval * 39 + c) a) := by
  induction chars generalizing a with
  | nil => rfl
  | cons c chars ih =>
      rw [List.foldl_cons, List.map_cons, List.foldl_cons, ← ih, BitVec.ofNat_add,
        BitVec.ofNat_mul]

/-- Six digits leave room: the numeral and the offset stay below the empty name's id. -/
theorem numeral_codes_lt (name : List UInt8) : numeral 39 (codes name) + 2 < 4294967295 := by
  have hlt := numeral_lt (by decide : 1 < 39) fun d hd => (codes_digits name d hd).2
  have hle : 39 ^ (codes name).length ≤ 39 ^ 6 :=
    Nat.pow_le_pow_right (by decide) (codes_length name)
  have h6 : 39 ^ 6 = 3518743761 := by decide
  omega

/-- The id of a name is the numeral of its codes and 2. -/
theorem nam2id_toNat {w : Nat} (hw : 32 ≤ w) {name : List UInt8} (hne : name ≠ []) :
    (nam2id w name).toNat = numeral 39 (codes name) + 2 := by
  have hlt := numeral_codes_lt name
  have hpow : 2 ^ 32 ≤ 2 ^ w := Nat.pow_le_pow_right (by decide) hw
  unfold nam2id
  rw [if_neg hne, foldl_word, ← BitVec.ofNat_add, BitVec.toNat_ofNat]
  exact Nat.mod_eq_of_lt (lt_of_lt_of_le (hlt.trans (by decide)) hpow)

theorem nam2id_nil {w : Nat} (hw : 32 ≤ w) : (nam2id w []).toNat = 4294967295 := by
  have hpow : 2 ^ 32 ≤ 2 ^ w := Nat.pow_le_pow_right (by decide) hw
  show (BitVec.ofNat w 4294967295).toNat = 4294967295
  rw [BitVec.toNat_ofNat]
  exact Nat.mod_eq_of_lt (lt_of_lt_of_le (by decide) hpow)

/-- Names that are not empty are the same id if and only if their codes are the same. -/
theorem nam2id_eq_of_ne {w : Nat} (hw : 32 ≤ w) {s t : List UInt8} (hs : s ≠ []) (ht : t ≠ []) :
    nam2id w s = nam2id w t ↔ codes s = codes t := by
  rw [← BitVec.toNat_inj, nam2id_toNat hw hs, nam2id_toNat hw ht]
  constructor
  · intro h
    exact numeral_injective (by decide) (codes_digits s) (codes_digits t) (by omega)
  · intro h
    rw [h]

theorem nam2id_eq_nil_iff {w : Nat} (hw : 32 ≤ w) (s : List UInt8) :
    nam2id w s = 0xFFFFFFFF#w ↔ s = [] := by
  constructor
  · intro h
    by_contra hs
    have hnil := nam2id_nil hw
    have heq : nam2id w s = nam2id w [] := h
    rw [← heq, nam2id_toNat hw hs] at hnil
    have := numeral_codes_lt s
    omega
  · rintro rfl
    rfl

/-- Every id fits in 32 bits. -/
theorem nam2id_lt {w : Nat} (hw : 32 ≤ w) (s : List UInt8) : (nam2id w s).toNat < 4294967296 := by
  by_cases hs : s = []
  · rw [hs, nam2id_nil hw]
    decide
  · have := numeral_codes_lt s
    rw [nam2id_toNat hw hs]
    omega

/-! ### Names -/

/-- `nam2id` tells two names apart if and only if the codes of their first six
characters differ, and the codes tell two characters apart if and only if they are
not alike. Every id fits in 32 bits, and 0xFFFFFFFF is the id of the empty name alone. -/
theorem nam2id_names {w : Nat} (hw : 32 ≤ w) :
    (∀ s t : List UInt8, nam2id w s = nam2id w t ↔ codes s = codes t) ∧
      (∀ c d : UInt8, nameDigit c.toNat = nameDigit d.toNat ↔ Alike c.toNat d.toNat) ∧
      (∀ s : List UInt8, (nam2id w s).toNat < 4294967296) ∧
      ∀ s : List UInt8, nam2id w s = 0xFFFFFFFF#w ↔ s = [] := by
  refine ⟨?_, fun c d => nameDigit_eq_iff _ _, nam2id_lt hw, nam2id_eq_nil_iff hw⟩
  intro s t
  by_cases hs : s = []
  · subst hs
    rw [eq_comm, show nam2id w [] = 0xFFFFFFFF#w from rfl, nam2id_eq_nil_iff hw,
      show codes [] = [] from rfl, eq_comm (b := codes t), codes_eq_nil]
  · by_cases ht : t = []
    · subst ht
      rw [show nam2id w [] = 0xFFFFFFFF#w from rfl, nam2id_eq_nil_iff hw,
        show codes [] = [] from rfl, codes_eq_nil]
    · exact nam2id_eq_of_ne hw hs ht

/-- With 64 bits, `Sem_01` and `sEM_0` differ, and `queue12` is `QUEUE1`. -/
theorem nam2id_names_long :
    32 ≤ 64 ∧
      (nam2id 64 [83, 101, 109, 95, 48, 49] = nam2id 64 [115, 69, 77, 95, 48] ↔
        codes [83, 101, 109, 95, 48, 49] = codes [115, 69, 77, 95, 48]) ∧
      (nam2id 64 [113, 117, 101, 117, 101, 49, 50] = nam2id 64 [81, 85, 69, 85, 69, 49] ↔
        codes [113, 117, 101, 117, 101, 49, 50] = codes [81, 85, 69, 85, 69, 49]) :=
  ⟨by decide, (nam2id_names (by decide)).1 _ _, (nam2id_names (by decide)).1 _ _⟩

end RtaiDemos.Fusion
