import Mathlib.Data.Fin.Basic
import Mathlib.Algebra.Group.Fin.Basic
import Mathlib.Algebra.GroupWithZero.Nat

/-!
# A token that goes round a ring

`W i` is how often station `i` has taken the token, `P i` how often it has passed
it on. A station takes it at most as often as the one before has passed it on; the
first may take it once more.
-/

namespace RtaiDemos

/-- The counts of a ring with one token. -/
structure Relay {n : Nat} [NeZero n] (W P : Fin n → Nat) : Prop where
  passes : ∀ i, P i ≤ W i ∧ W i ≤ P i + 1
  next : ∀ i, i ≠ 0 → W i ≤ P (i - 1)
  back : W 0 ≤ P (0 - 1) + 1

namespace Relay

variable {n : Nat} [NeZero n] {W P : Fin n → Nat}

theorem val_pred {i : Fin n} (h : i ≠ 0) : (i - 1).val + 1 = i.val := by
  have hpos : 0 < i.val := Nat.pos_of_ne_zero fun h0 => h (Fin.ext h0)
  have hsub := Fin.val_sub_one_of_ne_zero h
  omega

theorem val_last : (0 - 1 : Fin n).val = n - 1 := by
  have hn := Nat.pos_of_ne_zero (NeZero.ne n)
  rcases Nat.lt_or_ge 1 n with h | h
  · have hone : (1 : Fin n).val = 1 := Nat.mod_eq_of_lt h
    rw [Fin.sub_def]
    simp only [hone, Fin.val_zero, Nat.add_zero]
    exact Nat.mod_eq_of_lt (by omega)
  · have := (0 - 1 : Fin n).isLt
    omega

/-- The stations ahead have passed the token on at least as often. -/
theorem antitone (h : Relay W P) {i j : Fin n} (hij : i ≤ j) : P j ≤ P i := by
  obtain ⟨d, hd⟩ := Nat.exists_eq_add_of_le (Fin.le_def.mp hij)
  induction d generalizing j with
  | zero =>
      rw [show j = i from Fin.ext hd]
  | succ d ih =>
      have hne : j ≠ 0 := by
        rintro rfl
        rw [Fin.val_zero] at hd
        omega
      have hval := val_pred hne
      have hle : i.val ≤ (j - 1).val := by omega
      exact Nat.le_trans (Nat.le_trans (h.passes j).1 (h.next j hne))
        (ih (Fin.le_def.mpr hle) (by omega))

/-- And at most once more. -/
theorem spread (h : Relay W P) (i j : Fin n) : P i ≤ P j + 1 := by
  have hlast : j ≤ 0 - 1 := by
    rw [Fin.le_def, val_last]
    omega
  have hfirst : (0 : Fin n) ≤ i := Fin.le_def.mpr (Nat.zero_le _)
  have hstart := h.antitone hfirst
  have hend := h.antitone hlast
  have hback := h.back
  have hpass := (h.passes 0).1
  omega

/-- The station that has the token is where the counts differ. -/
theorem holder (h : Relay W P) {i : Fin n} (hi : W i = P i + 1) (j : Fin n) :
    P j = P i + if j < i then 1 else 0 := by
  have hspread := h.spread j i
  have hlast : j ≤ 0 - 1 := by
    rw [Fin.le_def, val_last]
    omega
  have hend := h.antitone hlast
  have hback := h.back
  have hpass := (h.passes 0).1
  by_cases hzero : i = 0
  · subst hzero
    have hlt : ¬ j < 0 := by
      rw [Fin.lt_def, Fin.val_zero]
      omega
    have hdown := h.antitone (Fin.le_def.mpr (Nat.zero_le _) : (0 : Fin n) ≤ j)
    rw [if_neg hlt]
    omega
  · have hnext := h.next i hzero
    have hval := val_pred hzero
    have hfirst := h.antitone (Fin.le_def.mpr (Nat.zero_le _) : (0 : Fin n) ≤ i - 1)
    split
    · rename_i hji
      have hbefore := h.antitone (show j ≤ i - 1 by rw [Fin.le_def]; rw [Fin.lt_def] at hji; omega)
      omega
    · rename_i hji
      have hdown := h.antitone (Fin.not_lt.mp hji)
      omega

/-- Only one station has the token. -/
theorem unique (h : Relay W P) {i : Fin n} (hi : W i = P i + 1) {j : Fin n} (hj : j ≠ i) :
    W j = P j := by
  by_contra hne
  have hpass := h.passes j
  have hthere := h.holder (show W j = P j + 1 by omega) i
  have hhere := h.holder hi j
  rcases Nat.lt_or_gt_of_ne fun heq => hj (Fin.ext heq) with hlt | hgt
  · rw [if_pos (Fin.lt_def.mpr hlt)] at hhere
    omega
  · rw [if_pos (Fin.lt_def.mpr hgt)] at hthere
    omega

/-- When no station has the token, one that has not passed it on `c` times could take it. -/
theorem at_rest (h : Relay W P) {c : Nat} (hrest : ∀ i, W i = P i)
    (hwait : ∀ i, P i < c → W i = P (i - 1) + if i = 0 then 1 else 0) (i : Fin n) : c ≤ P i := by
  by_contra hlt
  have hlast : i ≤ 0 - 1 := by
    rw [Fin.le_def, val_last]
    omega
  have hend := h.antitone hlast
  -- by induction on `j`: all that wait have passed it on once more than the last
  have hmore : ∀ j : Fin n, P j < c → P j = P (0 - 1) + 1 := by
    intro j
    obtain ⟨m, hm⟩ : ∃ m, m = j.val := ⟨_, rfl⟩
    induction m generalizing j with
    | zero =>
        intro hj
        have hzero : j = 0 := Fin.ext hm.symm
        subst hzero
        have htake := hwait 0 hj
        rw [if_pos rfl, hrest] at htake
        exact htake
    | succ m ih =>
        intro hj
        have hne : j ≠ 0 := by
          rintro rfl
          cases hm
        have htake := hwait j hj
        rw [if_neg hne, hrest] at htake
        have hval := val_pred hne
        have hbefore := ih (j - 1) (by omega) (by omega)
        omega
  have := hmore (0 - 1) (by omega)
  omega

end Relay

end RtaiDemos
