import Mathlib.Data.Nat.Digits.Defs

/-!
# Numerals without a zero

The number that a list of digits stands for, read by Horner's rule. When no digit
is 0 the list comes back from the number, whatever its length.
-/

namespace RtaiDemos.Numeral

/-- The number that a list of digits stands for, the first digit the highest. -/
def numeral (b : Nat) (digits : List Nat) : Nat :=
  digits.foldl (fun retval c => retval * b + c) 0

theorem foldl_numeral (b : Nat) (digits : List Nat) (a : Nat) :
    digits.foldl (fun retval c => retval * b + c) a =
      Nat.ofDigits b (digits.reverse ++ [a]) := by
  induction digits generalizing a with
  | nil => rw [List.foldl_nil, List.reverse_nil, List.nil_append, Nat.ofDigits_singleton]
  | cons d digits ih =>
      rw [List.foldl_cons, ih, List.reverse_cons, List.append_assoc, Nat.ofDigits_append,
        Nat.ofDigits_append, Nat.ofDigits_singleton, List.singleton_append, Nat.ofDigits_cons,
        Nat.ofDigits_singleton]
      ring

theorem numeral_eq_ofDigits (b : Nat) (digits : List Nat) :
    numeral b digits = Nat.ofDigits b digits.reverse := by
  unfold numeral
  rw [foldl_numeral, Nat.ofDigits_append_zero]

/-- Numerals without a digit 0 are read back, so no two of them are the same number,
of whatever lengths they are. -/
theorem numeral_injective {b : Nat} (hb : 1 < b) {ds es : List Nat}
    (hds : ∀ d ∈ ds, 0 < d ∧ d < b) (hes : ∀ d ∈ es, 0 < d ∧ d < b)
    (h : numeral b ds = numeral b es) : ds = es := by
  have hread : ∀ {l : List Nat}, (∀ d ∈ l, 0 < d ∧ d < b) →
      Nat.digits b (numeral b l) = l.reverse := by
    intro l hl
    rw [numeral_eq_ofDigits]
    refine Nat.digits_ofDigits b hb l.reverse ?_ ?_
    · intro d hd
      exact (hl d (List.mem_reverse.mp hd)).2
    · intro hne
      exact (hl _ (List.mem_reverse.mp (List.getLast_mem hne))).1.ne'
  rw [← List.reverse_inj, ← hread hds, ← hread hes, h]

/-- A numeral is below the power of the base that its length says. -/
theorem numeral_lt {b : Nat} (hb : 1 < b) {digits : List Nat} (h : ∀ d ∈ digits, d < b) :
    numeral b digits < b ^ digits.length := by
  rw [numeral_eq_ofDigits, ← List.length_reverse]
  exact Nat.ofDigits_lt_base_pow_length hb fun d hd => h d (List.mem_reverse.mp hd)

end RtaiDemos.Numeral
