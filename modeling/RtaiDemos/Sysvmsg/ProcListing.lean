import RtaiDemos.Core.Windows
import RtaiDemos.Sysvmsg.Machine

/-!
# The listing in /proc

`sysvmsg_read_proc`, with the lines that its `sprintf`s write. `none` is a line of a
queue that has been freed. The text fits a page, so an `off_t` holds `pos`, `begin` and,
for the lengths that are asked for, `offset + length`.
-/

namespace RtaiDemos.Sysvmsg

open Windows

/-! ## The lines -/

/-- `pos`, `begin` and the buffer up to `len`. -/
structure Walk where
  pos : Int
  begin : Int
  text : List Char
  deriving DecidableEq, Repr

/-- The body of the loop for a queue with that line: the variables, and whether it goes
on. -/
def Walk.line (offset length : Int) (w : Walk) (line : List Char) : Walk × Bool :=
  let text := w.text ++ line
  let pos := w.pos + text.length
  (if pos < offset then ⟨pos, pos, []⟩ else ⟨pos, w.begin, text⟩, !decide (pos > offset + length))

/-- From `done` on. -/
def Walk.done (offset length : Int) (w : Walk) : Window Char :=
  let len : Int := w.text.length - (offset - w.begin)
  let len := if len > length then length else len
  ⟨w.text, offset - w.begin, if len < 0 then 0 else len⟩

end RtaiDemos.Sysvmsg
