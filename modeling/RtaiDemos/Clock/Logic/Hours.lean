import Mathlib.Data.Nat.ModEq
import RtaiDemos.Clock.Hmsh

/-!
# Hours as numbers

An hour is a number of hundredths below those of a day, and the `MenageHmsh` functions
are arithmetic modulo a day on that number.
-/

namespace RtaiDemos.Clock

/-- The hundredths of a day. -/
def day : Nat := 24 * 60 * 60 * 100

/-- The hundredths since midnight. -/
def MenageHmsh_tHour.count (h : MenageHmsh_tHour) : Nat :=
  ((h.hours * 60 + h.minutes) * 60 + h.seconds) * 100 + h.hundredthes

theorem count_lt (h : MenageHmsh_tHour) : h.count < day := by
  have hh := h.hours_lt
  have hm := h.minutes_lt
  have hs := h.seconds_lt
  have hc := h.hundredthes_lt
  unfold MenageHmsh_tHour.count day
  omega

theorem count_injective {h h' : MenageHmsh_tHour} (heq : h.count = h'.count) : h = h' := by
  have hm := h.minutes_lt
  have hm' := h'.minutes_lt
  have hs := h.seconds_lt
  have hs' := h'.seconds_lt
  have hc := h.hundredthes_lt
  have hc' := h'.hundredthes_lt
  unfold MenageHmsh_tHour.count at heq
  ext <;> omega

theorem initialise_count : MenageHmsh_Initialise.count = 0 := rfl

theorem equal_iff (h h' : MenageHmsh_tHour) : MenageHmsh_Equal h h' = true ↔ h.count = h'.count := by
  constructor
  · intro heq
    have hfields : ((h.hours = h'.hours ∧ h.minutes = h'.minutes) ∧ h.seconds = h'.seconds) ∧
        h.hundredthes = h'.hundredthes := by
      simpa [MenageHmsh_Equal] using heq
    unfold MenageHmsh_tHour.count
    obtain ⟨⟨⟨hh, hm⟩, hs⟩, hc⟩ := hfields
    rw [hh, hm, hs, hc]
  · intro heq
    rw [count_injective heq]
    simp [MenageHmsh_Equal]

theorem plusOneSecond_count (h : MenageHmsh_tHour) :
    (MenageHmsh_PlusOneSecond h).count = (h.count + 100) % day := by
  have hh := h.hours_lt
  have hm := h.minutes_lt
  have hs := h.seconds_lt
  have hc := h.hundredthes_lt
  unfold MenageHmsh_PlusOneSecond MenageHmsh_AdvanceSeconds MenageHmsh_AdvanceMinutes
    MenageHmsh_AdvanceHours day
  simp only
  split
  · split
    · unfold MenageHmsh_tHour.count
      simp only
      omega
    · unfold MenageHmsh_tHour.count
      simp only
      omega
  · unfold MenageHmsh_tHour.count
    simp only
    omega

theorem plusNSeconds_count (n : Nat) (h : MenageHmsh_tHour) :
    (MenageHmsh_PlusNSeconds n h).count = (h.count + 100 * n) % day := by
  unfold MenageHmsh_PlusNSeconds
  induction n with
  | zero => exact (Nat.mod_eq_of_lt (count_lt h)).symm
  | succ n ih =>
      rw [Function.iterate_succ_apply', plusOneSecond_count, ih, Nat.mod_add_mod, Nat.mul_succ,
        Nat.add_assoc]

theorem plusOneUnit_count (h : MenageHmsh_tHour) :
    (MenageHmsh_PlusOneUnit h).1.count = (h.count + 1) % day := by
  have hh := h.hours_lt
  have hm := h.minutes_lt
  have hs := h.seconds_lt
  have hc := h.hundredthes_lt
  unfold MenageHmsh_PlusOneUnit
  simp only
  split
  · rw [plusOneSecond_count]
    unfold MenageHmsh_tHour.count day
    simp only
    omega
  · unfold MenageHmsh_tHour.count day
    simp only
    omega

/-- The carry: a unit completes a second. -/
theorem plusOneUnit_carry (h : MenageHmsh_tHour) :
    (MenageHmsh_PlusOneUnit h).2 = decide ((h.count + 1) % 100 = 0) := by
  have hmod : (h.hundredthes + 1) % 100 = (h.count + 1) % 100 := by
    unfold MenageHmsh_tHour.count
    omega
  unfold MenageHmsh_PlusOneUnit
  simp only
  rw [← hmod]
  split
  · rename_i hzero
    exact (decide_eq_true hzero).symm
  · rename_i hne
    exact (decide_eq_false hne).symm

/-! ## The display of a number -/

/-- What the display has for a number of hundredths since midnight; the first character
of a chain is not shown. -/
def face (first : Char) (n : Nat) (hundredthes : Bool) : MenageHmsh_tChain11 :=
  ![first,
    units (n / 3600000), units (n / 360000), ':',
    units (n / 60000 % 6), units (n / 6000), ':',
    units (n / 1000 % 6), units (n / 100),
    if hundredthes then '.' else ' ',
    if hundredthes then units (n / 10) else ' ',
    if hundredthes then units n else ' ']

theorem units_eq {m n : Nat} (h : m % 10 = n % 10) : units m = units n := by
  unfold units
  exact congrArg digits (Fin.ext h)

theorem tens_eq {m n : Nat} (hm : m < 100) (h : m / 10 = n % 10) : tens m hm = units n := by
  unfold tens units
  exact congrArg digits (Fin.ext h)

/-- `MenageHmsh_Convert` writes the digits of the number. -/
theorem convert_eq_face (h : MenageHmsh_tHour) (hundredthes : Bool) (chain : MenageHmsh_tChain11) :
    MenageHmsh_Convert h hundredthes chain = face (chain 0) h.count hundredthes := by
  have hh := h.hours_lt
  have hm := h.minutes_lt
  have hs := h.seconds_lt
  have hc := h.hundredthes_lt
  have hcount : h.count = ((h.hours * 60 + h.minutes) * 60 + h.seconds) * 100 + h.hundredthes := rfl
  generalize h.count = n at hcount
  unfold MenageHmsh_Convert face
  rw [tens_eq (n := n / 3600000) _ (by omega), tens_eq (n := n / 60000 % 6) _ (by omega),
    tens_eq (n := n / 1000 % 6) _ (by omega), tens_eq (n := n / 10) _ (by omega),
    units_eq (m := h.hours) (n := n / 360000) (by omega),
    units_eq (m := h.minutes) (n := n / 6000) (by omega),
    units_eq (m := h.seconds) (n := n / 100) (by omega),
    units_eq (m := h.hundredthes) (n := n) (by omega)]

end RtaiDemos.Clock
