import Mathlib.Algebra.Order.Ring.Int
import Mathlib.Data.List.Basic

/-!
# A text read through windows

A function that, for an offset and a length, writes a part of a text to a buffer and
says where in the buffer the bytes from the offset on start and how many there are. A
reader advances the offset by that number until it is 0. If every window is right, the
reader gets the text, whatever lengths it asks for.
-/

namespace RtaiDemos.Windows

variable {α : Type}

/-- What a call leaves: the buffer as far as it was written, the start and the number
of the bytes returned. -/
structure Window (α : Type) where
  text : List α
  start : Int
  len : Int
  deriving DecidableEq, Repr

/-- The bytes returned. -/
def Window.bytes (w : Window α) : List α := (w.text.drop w.start.toNat).take w.len.toNat

/-- The bytes returned are some that were written. -/
structure Window.Inside (w : Window α) : Prop where
  start_nonneg : 0 ≤ w.start
  len_nonneg : 0 ≤ w.len
  end_le : w.start + w.len ≤ w.text.length

/-- The window at `offset` is one of `T`, and not an empty one before the end of it. -/
structure Serves (T : List α) (offset : Nat) (w : Window α) : Prop where
  inside : w.Inside
  bytes : w.bytes = (T.drop offset).take w.len.toNat
  end_le : offset + w.len ≤ T.length
  more : offset < T.length → 1 ≤ w.len

/-- The offset and the text so far, after as many calls. -/
def session (f : Int → Int → Option (Window α)) (lengths : Nat → Int) :
    Nat → Option (Int × List α)
  | 0 => some (0, [])
  | k + 1 => do
    let (offset, text) ← session f lengths k
    let w ← f offset (lengths k)
    some (offset + w.len, text ++ w.bytes)

/-- A call of a session before the end of the text: it returns a byte at least, out of
what it has written. -/
def Returns (T : List α) (f : Int → Int → Option (Window α)) (lengths : Nat → Int) (k : Nat) :
    Prop :=
  ∃ (offset : Nat) (text : List α) (w : Window α), session f lengths k = some ((offset : Int), text) ∧
    offset < T.length ∧ f offset (lengths k) = some w ∧ 1 ≤ w.len ∧ w.Inside

/-- A session that ends after `n` calls, with the whole text. -/
structure Complete (T : List α) (f : Int → Int → Option (Window α)) (lengths : Nat → Int)
    (n : Nat) : Prop where
  text : session f lengths n = some ((T.length : Int), T)
  last : ∃ w, f T.length (lengths n) = some w ∧ w.len = 0
  before : ∀ k < n, Returns T f lengths k

variable {T : List α} {f : Int → Int → Option (Window α)} {lengths : Nat → Int}

theorem session_succ {k : Nat} {offset : Int} {text : List α} {w : Window α}
    (hk : session f lengths k = some (offset, text)) (hw : f offset (lengths k) = some w) :
    session f lengths (k + 1) = some (offset + w.len, text ++ w.bytes) := by
  show (session f lengths k).bind _ = _
  rw [hk, Option.bind_some]
  show (f offset (lengths k)).bind _ = _
  rw [hw, Option.bind_some]

/-- What has been read, with the next window, is what is read then. -/
theorem take_append_bytes {offset : Nat} {w : Window α} (h : Serves T offset w) :
    T.take offset ++ w.bytes = T.take (offset + w.len.toNat) := by
  rw [h.bytes, List.take_add]

/-- A reader that has read up to an offset reads the rest. -/
theorem complete_from (hf : ∀ offset : Nat, offset ≤ T.length → ∀ length, 0 < length →
      ∃ w, f offset length = some w ∧ Serves T offset w)
    (hpos : ∀ k, 0 < lengths k) (m : Nat) : ∀ (k offset : Nat), offset ≤ T.length →
      T.length - offset ≤ m → session f lengths k = some ((offset : Int), T.take offset) →
        (∀ j < k, Returns T f lengths j) → ∃ n, Complete T f lengths n := by
  induction m with
  | zero =>
      intro k offset hle hm hk hbefore
      have hend : offset = T.length := by omega
      subst hend
      obtain ⟨w, hw, hserves⟩ := hf T.length le_rfl (lengths k) (hpos k)
      refine ⟨k, ?_, ⟨w, hw, ?_⟩, hbefore⟩
      · rw [List.take_length] at hk
        exact hk
      · have hend := hserves.end_le
        have hnonneg := hserves.inside.len_nonneg
        omega
  | succ m ih =>
      intro k offset hle hm hk hbefore
      rcases Nat.lt_or_eq_of_le hle with hlt | hend
      · obtain ⟨w, hw, hserves⟩ := hf offset hle (lengths k) (hpos k)
        have hmore := hserves.more hlt
        have hend := hserves.end_le
        have hlen : offset + w.len = ((offset + w.len.toNat : Nat) : Int) := by omega
        refine ih (k + 1) (offset + w.len.toNat) (by omega) (by omega) ?_ ?_
        · rw [session_succ hk hw, take_append_bytes hserves, hlen]
        · intro j hj
          rcases Nat.lt_or_eq_of_le (Nat.le_of_lt_succ hj) with hjk | rfl
          · exact hbefore j hjk
          · exact ⟨offset, _, w, hk, hlt, hw, hmore, hserves.inside⟩
      · exact ih k offset hle (by omega) hk hbefore

/-- If every window is right, every session with positive lengths ends with the text. -/
theorem complete (hf : ∀ offset : Nat, offset ≤ T.length → ∀ length, 0 < length →
      ∃ w, f offset length = some w ∧ Serves T offset w)
    (hpos : ∀ k, 0 < lengths k) : ∃ n, Complete T f lengths n :=
  complete_from hf hpos T.length 0 0 (Nat.zero_le _) (Nat.sub_le _ _) rfl
    fun j hj => absurd hj (Nat.not_lt_zero j)

end RtaiDemos.Windows
