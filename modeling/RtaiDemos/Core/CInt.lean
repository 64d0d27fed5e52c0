import Mathlib.Algebra.Order.Ring.Int

/-!
# Values of type int

An `int` has 32 bits. An operation on ints whose result is not one is undefined;
a conversion to int takes the value modulo 2^32.
-/

namespace RtaiDemos.CInt

/-- An int has this value. -/
def Fits (x : Int) : Prop := -2147483648 ≤ x ∧ x ≤ 2147483647

instance : DecidablePred Fits := fun _ => inferInstanceAs (Decidable (_ ∧ _))

/-- The value of an operation on ints, if it is defined. -/
def checked (x : Int) : Option Int := if Fits x then some x else none

theorem checked_of_fits {x : Int} (h : Fits x) : checked x = some x := if_pos h

theorem checked_eq_some {x y : Int} : checked x = some y ↔ Fits x ∧ y = x := by
  unfold checked
  split
  · rename_i h
    rw [Option.some.injEq]
    exact ⟨fun hxy => ⟨h, hxy.symm⟩, fun hxy => hxy.2.symm⟩
  · rename_i h
    exact ⟨nofun, fun hxy => absurd hxy.1 h⟩

/-- The division of ints, towards 0. -/
def divide (x y : Int) : Option Int := if y = 0 then none else checked (x.tdiv y)

theorem divide_zero (x : Int) : divide x 0 = none := if_pos rfl

theorem divide_of_pos {x y : Int} (hx : Fits x) (hy : 0 < y) : divide x y = some (x.tdiv y) := by
  unfold divide
  rw [if_neg (by omega)]
  refine checked_of_fits ?_
  unfold Fits at hx ⊢
  rcases le_total 0 x with hpos | hneg
  · have hle := Int.tdiv_le_self y hpos
    have hnonneg := Int.tdiv_nonneg hpos hy.le
    omega
  · have hle := Int.tdiv_le_self y (Int.neg_nonneg_of_nonpos hneg)
    have hnonneg := Int.tdiv_nonneg (Int.neg_nonneg_of_nonpos hneg) hy.le
    rw [Int.neg_tdiv] at hle hnonneg
    omega

/-- The conversion to int. -/
def toInt (x : Int) : Int := x.bmod 4294967296

theorem toInt_of_fits {x : Int} (h : Fits x) : toInt x = x := by
  obtain ⟨hlo, hhi⟩ := h
  unfold toInt
  exact Int.bmod_eq_of_le (by omega) (by omega)

theorem toInt_fits (x : Int) : Fits (toInt x) := by
  have hlo := Int.le_bmod (x := x) (m := 4294967296) (by decide)
  have hhi := Int.bmod_lt (x := x) (m := 4294967296) (by decide)
  unfold Fits toInt
  omega

end RtaiDemos.CInt
