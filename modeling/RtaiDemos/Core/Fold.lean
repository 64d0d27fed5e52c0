import Mathlib.Order.Bounds.Basic

/-!
# Loops that may fail

`List.foldlM` in `Option`: an invariant of what has been seen so far, kept by
every element that is good and broken off at the first that is not. Then the
greatest value kept in a loop, and the counting of a list by the values of a function.
-/

namespace RtaiDemos.Fold

variable {α β : Type}

section Loop

variable {f : β → α → Option β} {Inv : List α → β → Prop} {Dom : α → Prop}

/-- A loop over good elements succeeds and keeps its invariant. -/
theorem foldlM_some {Good : α → Prop} (hstep : ∀ seen b a, Inv seen b → Dom a → Good a →
      ∃ b', f b a = some b' ∧ Inv (seen ++ [a]) b')
    {l : List α} (hdom : ∀ a ∈ l, Dom a) (hgood : ∀ a ∈ l, Good a) {seen : List α} {b : β}
    (h : Inv seen b) : ∃ b', l.foldlM f b = some b' ∧ Inv (seen ++ l) b' := by
  induction l generalizing seen b with
  | nil =>
      refine ⟨b, rfl, ?_⟩
      rw [List.append_nil]
      exact h
  | cons a l ih =>
      obtain ⟨b₁, hb₁, hinv⟩ := hstep seen b a h (hdom a List.mem_cons_self)
        (hgood a List.mem_cons_self)
      obtain ⟨b', hb', hrest⟩ := ih (fun x hx => hdom x (List.mem_cons_of_mem a hx))
        (fun x hx => hgood x (List.mem_cons_of_mem a hx)) hinv
      refine ⟨b', ?_, ?_⟩
      · rw [List.foldlM_cons, hb₁]
        exact hb'
      · rw [List.append_assoc] at hrest
        exact hrest

/-- A loop over a list with an element that is not good fails. -/
theorem foldlM_none (Good : α → Prop) (hstep : ∀ seen b a, Inv seen b → Dom a → Good a →
      ∃ b', f b a = some b' ∧ Inv (seen ++ [a]) b')
    (hfail : ∀ seen b a, Inv seen b → Dom a → ¬ Good a → f b a = none)
    {l : List α} (hdom : ∀ a ∈ l, Dom a) (hbad : ∃ a ∈ l, ¬ Good a) {seen : List α} {b : β}
    (h : Inv seen b) : l.foldlM f b = none := by
  induction l generalizing seen b with
  | nil =>
      obtain ⟨a, ha, _⟩ := hbad
      cases ha
  | cons a l ih =>
      by_cases hgood : Good a
      · obtain ⟨b₁, hb₁, hinv⟩ := hstep seen b a h (hdom a List.mem_cons_self) hgood
        rw [List.foldlM_cons, hb₁]
        refine ih (fun x hx => hdom x (List.mem_cons_of_mem a hx)) ?_ hinv
        obtain ⟨x, hx, hxbad⟩ := hbad
        rcases List.mem_cons.mp hx with rfl | hx
        · exact absurd hgood hxbad
        · exact ⟨x, hx, hxbad⟩
      · rw [List.foldlM_cons, hfail seen b a h (hdom a List.mem_cons_self) hgood]
        rfl

/-- A fold by an operation that selects gives its start or an element. -/
theorem foldl_select (op : α → α → α) (hop : ∀ a b, op a b = a ∨ op a b = b) (l : List α) (s : α) :
    l.foldl op s = s ∨ l.foldl op s ∈ l := by
  induction l generalizing s with
  | nil => exact .inl rfl
  | cons a l ih =>
      rcases ih (op s a) with hstart | hmem
      · rw [List.foldl_cons, hstart]
        rcases hop s a with hs | ha
        · exact .inl hs
        · rw [ha]
          exact .inr List.mem_cons_self
      · exact .inr (List.mem_cons_of_mem a hmem)

end Loop

section Greatest

variable [LinearOrder β]

/-- `if (x > m) { m = x; }` -/
def raise (m x : β) : β := if x > m then x else m

/-- Raised by every element in turn, the start becomes the greatest of it and them. -/
theorem isGreatest_foldl_raise (f : α → β) (l : List α) (m : β) :
    IsGreatest {x | x = m ∨ ∃ a ∈ l, x = f a} (l.foldl (fun m a => raise m (f a)) m) := by
  induction l generalizing m with
  | nil =>
      refine ⟨.inl rfl, ?_⟩
      rintro x (rfl | ⟨a, ha, _⟩)
      · exact le_rfl
      · cases ha
  | cons a l ih =>
      obtain ⟨hmem, hle⟩ := ih (raise m (f a))
      have hraise : m ≤ raise m (f a) ∧ f a ≤ raise m (f a) ∧
          (raise m (f a) = m ∨ raise m (f a) = f a) := by
        unfold raise
        split
        · rename_i hlt
          exact ⟨le_of_lt hlt, le_rfl, .inr rfl⟩
        · rename_i hge
          exact ⟨le_rfl, le_of_not_gt hge, .inl rfl⟩
      obtain ⟨hm, ha, hcases⟩ := hraise
      have hstart := hle (.inl rfl)
      rw [List.foldl_cons]
      constructor
      · rcases hmem with heq | ⟨b, hb, heq⟩
        · rcases hcases with hc | hc
          · exact .inl (heq.trans hc)
          · exact .inr ⟨a, List.mem_cons_self, heq.trans hc⟩
        · exact .inr ⟨b, List.mem_cons_of_mem a hb, heq⟩
      · rintro x (rfl | ⟨b, hb, rfl⟩)
        · exact hm.trans hstart
        · rcases List.mem_cons.mp hb with rfl | hb
          · exact ha.trans hstart
          · exact hle (.inr ⟨b, hb, rfl⟩)

end Greatest

section Tally

variable {κ : Type} [DecidableEq κ]

/-- How many elements have the value `k`. -/
def tally (g : α → κ) (l : List α) (k : κ) : Nat := l.countP fun a => g a = k

theorem tally_append (g : α → κ) (l l' : List α) (k : κ) :
    tally g (l ++ l') k = tally g l k + tally g l' k := List.countP_append

theorem tally_singleton (g : α → κ) (a : α) (k : κ) :
    tally g [a] k = if g a = k then 1 else 0 := by
  unfold tally
  rw [List.countP_singleton]
  simp

theorem tally_le_length (g : α → κ) (l : List α) (k : κ) : tally g l k ≤ l.length :=
  List.countP_le_length

theorem tally_congr {g g' : α → κ} {l : List α} (h : ∀ a ∈ l, g a = g' a) {k : κ} :
    tally g l k = tally g' l k := by
  refine List.countP_congr ?_
  intro a ha
  rw [h a ha]

/-- Two functions of which one takes the value `k` wherever the other does take it
equally often only if they take it at the same elements. -/
theorem tally_eq {g g' : α → κ} {k : κ} {l : List α} (hsub : ∀ a ∈ l, g a = k → g' a = k)
    (heq : tally g l k = tally g' l k) : ∀ a ∈ l, g' a = k → g a = k := by
  induction l with
  | nil =>
      intro a ha
      cases ha
  | cons a l ih =>
      have hmono : tally g l k ≤ tally g' l k := by
        refine List.countP_mono_left ?_
        intro x hx hgx
        simpa using hsub x (List.mem_cons_of_mem a hx) (by simpa using hgx)
      have hcons : ∀ h : α → κ, tally h (a :: l) k = tally h [a] k + tally h l k :=
        fun h => tally_append h [a] l k
      rw [hcons g, hcons g', tally_singleton, tally_singleton] at heq
      intro x hx hgx
      rcases List.mem_cons.mp hx with rfl | hx
      · by_contra hne
        rw [if_neg hne, if_pos hgx] at heq
        omega
      · refine ih (fun y hy => hsub y (List.mem_cons_of_mem a hy)) ?_ x hx hgx
        by_cases hga : g a = k
        · rw [if_pos hga, if_pos (hsub a List.mem_cons_self hga)] at heq
          omega
        · rw [if_neg hga] at heq
          split at heq <;> omega

end Tally

end RtaiDemos.Fold
