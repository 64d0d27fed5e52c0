import RtaiDemos.Sysvmsg.ProcListing
import RtaiDemos.Sysvmsg.Theorems.Delivery

/-!
# The listing under any chunking

`pos` is the length of the text while lines are thrown away, and more than that from
the first line on that is kept. So a line is thrown away only if it ends before the
offset, and the loop is left only after a byte that was asked for.
-/

namespace RtaiDemos.Sysvmsg

open Windows

/-! ### The lines -/

/-- The loop over the lines of the queues. -/
def linesLoop (offset length : Int) : List (List Char) → Walk → Walk × Bool
  | [], w => (w, true)
  | line :: rest, w =>
    if (w.line offset length line).2 then linesLoop offset length rest (w.line offset length line).1
    else ((w.line offset length line).1, false)

/-- With the text `T` written so far: the buffer has it from `begin` on, not behind the
offset, and `pos` is `begin` or has passed the offset and the end of the text. -/
structure Reading (offset : Nat) (T : List Char) (w : Walk) : Prop where
  begin_nonneg : 0 ≤ w.begin
  begin_le : w.begin ≤ offset
  begin_le_length : w.begin ≤ T.length
  text : w.text = T.drop w.begin.toNat
  pos : w.pos = w.begin ∨ (offset ≤ w.pos ∧ offset ≤ T.length ∧ T.length ≤ w.pos)

theorem Reading.length {offset : Nat} {T : List Char} {w : Walk} (h : Reading offset T w) :
    (w.text.length : Int) = T.length - w.begin := by
  have hnonneg := h.begin_nonneg
  have hle := h.begin_le_length
  rw [h.text, List.length_drop]
  omega

/-- A line is thrown away only before the offset, and the loop left only behind it. -/
theorem Reading.line {offset : Nat} {length : Int} {T line : List Char} {w : Walk}
    (h : Reading offset T w) (hlength : 0 < length) (hline : line ≠ []) :
    Reading offset (T ++ line) (w.line offset length line).1 ∧
      ((w.line offset length line).2 = false → offset < (T ++ line).length) := by
  have hnonneg := h.begin_nonneg
  have hle := h.begin_le_length
  have hoffset := h.begin_le
  have hlen := h.length
  have hpos := List.length_pos_of_ne_nil hline
  have htext : w.text ++ line = (T ++ line).drop w.begin.toNat := by
    rw [h.text, List.drop_append_of_le_length (by omega)]
  obtain ⟨pos, hp⟩ : ∃ pos, pos = w.pos + ((w.text ++ line).length : Int) := ⟨_, rfl⟩
  have hp' : pos = w.pos + (w.text.length + line.length) := by
    rw [hp, List.length_append, Nat.cast_add]
  have hT : (T ++ line).length = T.length + line.length := List.length_append
  unfold Walk.line
  simp only [Bool.not_eq_false', decide_eq_true_eq]
  rw [← hp]
  by_cases hbefore : pos < offset
  · -- so far every line was thrown away, and `pos` is where the text ends
    have heq : w.pos = w.begin := by
      rcases h.pos with heq | ⟨hpast, _, _⟩
      · exact heq
      · omega
    have hend : pos = (T ++ line).length := by omega
    rw [if_pos hbefore]
    refine ⟨⟨?_, hbefore.le, hend.le, ?_, .inl rfl⟩, ?_⟩
    · show 0 ≤ pos
      omega
    · show [] = (T ++ line).drop pos.toNat
      exact (List.drop_eq_nil_of_le (by omega)).symm
    · intro hdone
      omega
  · have hreached : offset ≤ (T ++ line).length := by
      rcases h.pos with heq | ⟨_, hreached, _⟩ <;> omega
    have hend : ((T ++ line).length : Int) ≤ pos := by
      rcases h.pos with heq | ⟨_, _, hend⟩ <;> omega
    rw [if_neg hbefore]
    refine ⟨⟨hnonneg, hoffset, ?_, htext, .inr ⟨not_lt.mp hbefore, hreached, hend⟩⟩, ?_⟩
    · show w.begin ≤ _
      omega
    · intro hdone
      rcases h.pos with heq | ⟨_, hreached, _⟩ <;> omega

/-- The loop: what it has written is a beginning of the text, all of it unless it was
left behind the offset. -/
theorem Reading.loop {offset : Nat} {length : Int} (hlength : 0 < length)
    (lines : List (List Char)) : ∀ (T : List Char) (w : Walk), Reading offset T w →
      (∀ line ∈ lines, line ≠ []) → ∃ T', T' <+: T ++ lines.flatten ∧
        Reading offset T' (linesLoop offset length lines w).1 ∧
          (T' = T ++ lines.flatten ∨ offset < T'.length) := by
  induction lines with
  | nil =>
      intro T w h _
      refine ⟨T, List.prefix_append T _, h, .inl ?_⟩
      rw [List.flatten_nil, List.append_nil]
  | cons line lines ih =>
      intro T w h hlines
      obtain ⟨hread, hleft⟩ := h.line hlength (hlines line List.mem_cons_self)
      rw [List.flatten_cons, ← List.append_assoc]
      unfold linesLoop
      split
      · exact ih _ _ hread fun l hl => hlines l (List.mem_cons_of_mem line hl)
      · rename_i hmore
        exact ⟨T ++ line, List.prefix_append _ _, hread, .inr (hleft (by simpa using hmore))⟩

/-- What is returned then. -/
theorem Reading.done {offset : Nat} {length : Int} {T T' : List Char} {w : Walk}
    (h : Reading offset T' w) (hlength : 0 < length) (hpre : T' <+: T) (hle : offset ≤ T.length)
    (hend : T' = T ∨ offset < T'.length) : Serves T offset (w.done offset length) := by
  have hnonneg := h.begin_nonneg
  have hoffset := h.begin_le
  have hlen := h.length
  have hT := hpre.length_le
  have hreached : offset ≤ T'.length := by
    rcases hend with rfl | hlt
    · exact hle
    · exact hlt.le
  have hmore : offset < T.length → offset < T'.length := by
    intro hlt
    rcases hend with rfl | hlt'
    · exact hlt
    · exact hlt'
  have hret : (w.done offset length).len = min length (T'.length - offset) := by
    unfold Walk.done
    simp only
    split <;> split <;> omega
  have hstart : (w.done offset length).start = offset - w.begin := rfl
  have htext : (w.done offset length).text = w.text := rfl
  refine ⟨⟨?_, ?_, ?_⟩, ?_, ?_, ?_⟩
  · omega
  · omega
  · rw [hstart, hret, htext]
    omega
  · obtain ⟨rest, rfl⟩ := hpre
    have hdrop : w.begin.toNat + (offset - w.begin).toNat = offset := by omega
    unfold Window.bytes
    rw [htext, hstart, h.text, List.drop_drop, hdrop, List.drop_append_of_le_length hreached,
      List.take_append_of_le_length]
    rw [List.length_drop]
    omega
  · omega
  · intro hlt
    have := hmore hlt
    omega

/-! ### The listing -/

end RtaiDemos.Sysvmsg
