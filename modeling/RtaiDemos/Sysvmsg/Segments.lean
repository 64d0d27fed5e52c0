import Mathlib.Logic.Function.Basic
import RtaiDemos.Core.Chain
import RtaiDemos.Sysvmsg.LoadMsg

/-!
# The segments of a message (`load_msg`, `store_msg`, `free_msg`)

The three functions over the memory they work on: blocks with a `next` pointer and
the text that stands behind the head. Following a pointer to a block that is not
there, `NULL` included, reading behind the text of a block, and freeing a block that
is not there make a function `none`. `o n` is what happens at the `n`-th block.
-/

namespace RtaiDemos.Sysvmsg.Segments

/-- `struct msg_msg` and `struct msg_msgseg`, with the text behind them. -/
structure Block where
  next : Option Nat
  text : List UInt8
  deriving DecidableEq, Repr

/-- The kernel's memory: the blocks that are allocated, the next one `kmalloc` gives
out, every `kfree` so far, and what a block has in it when it is given out: a pointer
and bytes that somebody else has left there. -/
structure Memory where
  next : Nat
  block : Nat → Option Block
  freed : List Nat
  stale : Nat → Option Nat × (Nat → UInt8)

/-- The next block, with room for `alen` bytes, as it is given out. -/
def Memory.fresh (m : Memory) (alen : Nat) : Block :=
  ⟨(m.stale m.next).1, (List.range alen).map (m.stale m.next).2⟩

/-- `kmalloc` of a block with room for `alen` bytes, and its address. -/
def Memory.kmalloc (m : Memory) (alen : Nat) : Nat × Memory :=
  (m.next, { m with
    next := m.next + 1
    block := Function.update m.block m.next (some (m.fresh alen)) })

/-- A write to a block. -/
def Memory.modify (m : Memory) (a : Nat) (f : Block → Block) : Option Memory :=
  (m.block a).map fun b => { m with block := Function.update m.block a (some (f b)) }

/-- `kfree` -/
def Memory.kfree (m : Memory) (a : Nat) : Option Memory :=
  (m.block a).map fun _ =>
    { m with block := Function.update m.block a none, freed := m.freed ++ [a] }

/-- The loop of `free_msg`. -/
def freeSegs : Nat → Memory → Option Nat → Option Memory
  | _, m, none => some m
  | 0, _, some _ => none
  | fuel + 1, m, some seg =>
    (m.block seg).bind fun b => (m.kfree seg).bind fun m => freeSegs fuel m b.next

/-- `free_msg`. There are no more segments than blocks that were given out. -/
def free_msg (m : Memory) (msg : Nat) : Option Memory :=
  (m.block msg).bind fun b => (m.kfree msg).bind fun m => freeSegs m.next m b.next

/-- `out_err` of `load_msg`. -/
def outErr (m : Memory) (msg : Nat) (err : Errno) : Option (Except Errno Nat × Memory) :=
  (free_msg m msg).map fun m => (.error err, m)

/-- The loop of `load_msg`: `pseg` is the block whose `next` is to point to the next
segment, `len` what is left to load from `src`. -/
def loadSegs (L : Layout) (space : Bool) (o : Nat → BlockEnv) (msg pseg : Nat)
    (src : List UInt8) (len n : Nat) (m : Memory) : Option (Except Errno Nat × Memory) :=
  if len = 0 then some (.ok msg, m)
  else
    let alen := if len > L.DATALEN_SEG then L.DATALEN_SEG else len
    if !(o n).kmalloc then outErr m msg .ENOMEM
    else
      let (seg, m) := m.kmalloc alen
      (m.modify pseg fun b => { b with next := some seg }).bind fun m =>
      (m.modify seg fun b => { b with next := none }).bind fun m =>
      if space && !(o n).copy then outErr m msg .EFAULT
      else
        (m.modify seg fun b => { b with text := src.take alen }).bind fun m =>
        loadSegs L space o msg seg (src.drop alen) (len - alen) (n + 1) m
termination_by len
decreasing_by
  have := L.room
  split <;> omega

/-- `load_msg` -/
def load_msg (L : Layout) (space : Bool) (o : Nat → BlockEnv) (src : List UInt8) (len : Nat)
    (m : Memory) : Option (Except Errno Nat × Memory) :=
  let alen := if len > L.DATALEN_MSG then L.DATALEN_MSG else len
  if !(o 0).kmalloc then some (.error .ENOMEM, m)
  else
    let (msg, m) := m.kmalloc alen
    (m.modify msg fun b => { b with next := none }).bind fun m =>
    if space && !(o 0).copy then outErr m msg .EFAULT
    else
      (m.modify msg fun b => { b with text := src.take alen }).bind fun m =>
      loadSegs L space o msg msg (src.drop alen) (len - alen) 1 m

/-- What is behind the head of a block, `alen` bytes of it. -/
def Block.read (b : Block) (alen : Nat) : Option (List UInt8) :=
  if alen ≤ b.text.length then some (b.text.take alen) else none

/-- The loop of `store_msg`: the result and what has been written to `dest`; `copy n`
says whether the `n`-th `copy_to_user` succeeds. -/
def storeSegs (L : Layout) (space : Bool) (copy : Nat → Bool) (m : Memory) (seg : Option Nat)
    (len n : Nat) (dest : List UInt8) : Option (Int × List UInt8) :=
  if len = 0 then some (0, dest)
  else
    let alen := if len > L.DATALEN_SEG then L.DATALEN_SEG else len
    (seg.bind m.block).bind fun b =>
    if space && !copy n then some (-1, dest)
    else (b.read alen).bind fun text =>
      storeSegs L space copy m b.next (len - alen) (n + 1) (dest ++ text)
termination_by len
decreasing_by
  have := L.room
  split <;> omega

/-- `store_msg` -/
def store_msg (L : Layout) (space : Bool) (copy : Nat → Bool) (m : Memory) (msg len : Nat) :
    Option (Int × List UInt8) :=
  let alen := if len > L.DATALEN_MSG then L.DATALEN_MSG else len
  (m.block msg).bind fun b =>
  if space && !copy 0 then some (-1, [])
  else (b.read alen).bind fun text => storeSegs L space copy m b.next (len - alen) 1 text

end RtaiDemos.Sysvmsg.Segments
