import Mathlib.Data.List.Basic

/-!
# Loops over a bounds-checked buffer

A C array that a function gets by pointer is a list, and an access outside it
is `none`. The two loops are `for (i = lo; i < lo + n; i++)` with `buf[i] =
f(buf[i])` and with `acc = g(acc, buf[i])` as the body. Inside the bounds each
has a closed form over the list.
-/

namespace RtaiDemos

namespace Buffer

variable {α β : Type}

/-- `buf[i] = x`. -/
def store (buf : List α) (i : Nat) (x : α) : Option (List α) :=
  if i < buf.length then some (buf.set i x) else none

/-- `for (i = lo; i < lo + n; i++) buf[i] = f(buf[i])`. -/
def update (f : α → α) : Nat → Nat → List α → Option (List α)
  | _, 0, buf => some buf
  | lo, n + 1, buf => do
    let x ← buf[lo]?
    let buf ← store buf lo (f x)
    update f (lo + 1) n buf

/-- `for (i = lo; i < lo + n; i++) acc = g(acc, buf[i])`. -/
def fold (g : β → α → β) : Nat → Nat → β → List α → Option β
  | _, 0, acc, _ => some acc
  | lo, n + 1, acc, buf => do
    let x ← buf[lo]?
    fold g (lo + 1) n (g acc x) buf

theorem store_eq {buf : List α} {i : Nat} (h : i < buf.length) (x : α) :
    store buf i x = some (buf.set i x) := by
  rw [store, if_pos h]

/-- The elements before `lo` stay, the next `n` are updated. -/
theorem update_append (f : α → α) (n : Nat) : ∀ (pre post : List α), n ≤ post.length →
    update f pre.length n (pre ++ post) = some (pre ++ ((post.take n).map f ++ post.drop n)) := by
  induction n with
  | zero =>
      intro pre post _
      simp [update]
  | succ n ih =>
      intro pre post h
      cases post with
      | nil =>
          simp only [List.length_nil] at h
          omega
      | cons x post =>
          have hlen : n ≤ post.length := by
            simp only [List.length_cons] at h
            omega
          have hstep := ih (pre ++ [f x]) post hlen
          rw [List.length_append, List.length_singleton] at hstep
          simpa [update, store] using hstep

theorem update_eq (f : α → α) {n : Nat} {buf : List α} (h : n ≤ buf.length) :
    update f 0 n buf = some ((buf.take n).map f ++ buf.drop n) := by
  simpa using update_append f n [] buf h

theorem fold_append (g : β → α → β) (n : Nat) : ∀ (pre post : List α) (acc : β), n ≤ post.length →
    fold g pre.length n acc (pre ++ post) = some ((post.take n).foldl g acc) := by
  induction n with
  | zero =>
      intro pre post acc _
      simp [fold]
  | succ n ih =>
      intro pre post acc h
      cases post with
      | nil =>
          simp only [List.length_nil] at h
          omega
      | cons x post =>
          have hlen : n ≤ post.length := by
            simp only [List.length_cons] at h
            omega
          have hstep := ih (pre ++ [x]) post (g acc x) hlen
          rw [List.length_append, List.length_singleton, List.append_assoc] at hstep
          simpa [fold] using hstep

theorem fold_eq (g : β → α → β) {n : Nat} {buf : List α} (h : n ≤ buf.length) (acc : β) :
    fold g 0 n acc buf = some ((buf.take n).foldl g acc) := by
  simpa using fold_append g n [] buf acc h

/-- An update by an involution, done twice. -/
theorem update_update {f : α → α} (hf : ∀ x, f (f x) = x) {n : Nat} {buf : List α}
    (h : n ≤ buf.length) :
    update f 0 n ((buf.take n).map f ++ buf.drop n) = some buf := by
  have hlen : ((buf.take n).map f).length = n := by
    rw [List.length_map, List.length_take]
    omega
  have hid : f ∘ f = id := by
    funext x
    exact hf x
  rw [update_eq f (by rw [List.length_append, hlen]; omega), List.take_left' hlen,
    List.drop_left' hlen, List.map_map, hid, List.map_id, List.take_append_drop]

end Buffer

end RtaiDemos
