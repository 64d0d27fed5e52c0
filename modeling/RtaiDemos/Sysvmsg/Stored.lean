import RtaiDemos.Sysvmsg.Segments

/-!
# The calls over the memory

The machine takes `load_msg` and `store_msg` as copies that succeed or not, and
keeps the text of a message in the message. Here the calls run on the blocks:
`_rt_msgsnd` loads its text with `load_msg`, a receiver gets what `store_msg`
finds behind the pointer, and whoever is done with a message calls `free_msg`.
An access to a block that is not there ends the run with `fault` set.
-/

namespace RtaiDemos.Sysvmsg

open Segments (Memory store_msg)

/-- What the environment supplies to one step: the clock, what happens at each block
of a load and at each copy of a store, whether the other allocations succeed and the
other accesses to user space. -/
structure BlockIo where
  now : Nat
  alloc : Bool
  user : Bool
  blocks : Nat → BlockEnv
  copies : Nat → Bool

/-- What the machine is told of a step that neither loads nor stores. -/
def BlockIo.env (io : BlockIo) : Env := ⟨io.now, io.alloc, io.user⟩

/-- One step of the system over the memory. -/
inductive BlockLabel
  | call (t : Tid) (c : Call) (io : BlockIo)
  | exec (t : Tid) (io : BlockIo)
  | resume (t : Tid)
  | signal (t : Tid) (pending : Bool)

/-- The module and its memory: `addr` is the pointer to the message with this `mid`. -/
structure Stored where
  core : State
  mem : Memory
  addr : Nat → Nat
  fault : Bool

namespace Stored

/-- A wrong access. -/
def crash (σ : Stored) : Stored := { σ with fault := true }

/-- A step that has nothing to do with the blocks. -/
def plain (P : Params) (σ : Stored) (l : Label) : Option Stored :=
  (step P σ.core l).map fun core => { σ with core := core }

/-- `_rt_msgsnd` up to its first lock, with arguments that pass the checks. -/
def load (P : Params) (L : Layout) (σ : Stored) (t : Tid) (io : BlockIo) (msqid mtype : Int)
    (mtext : List UInt8) (msgflg : BitVec 32) (space : Bool) : Option Stored :=
  match Segments.load_msg L space io.blocks mtext mtext.length σ.mem with
  | none => some σ.crash
  | some (res, mem) =>
    let e := loadEnv io.now (res.map fun msg => [msg])
    (step P σ.core (.call t (.msgsnd msqid mtype mtext msgflg space) e)).map fun core =>
      { σ with
        core := core
        mem := mem
        addr := match res with
          | .ok msg => Function.update σ.addr σ.core.nextMsg msg
          | .error _ => σ.addr }

/-- A task enters a call. -/
def call (P : Params) (L : Layout) (σ : Stored) (t : Tid) (c : Call) (io : BlockIo) :
    Option Stored :=
  match (σ.core.tasks t).pc, c with
  | .idle _, .msgsnd msqid mtype mtext msgflg space =>
    if mtext.length > MSGMAX ∨ msqid < 0 ∨ mtype < 1 then
      σ.plain P (.call t (.msgsnd msqid mtype mtext msgflg space) io.env)
    else σ.load P L t io msqid mtype mtext msgflg space
  | _, c => σ.plain P (.call t c io.env)

/-- A step that frees this message. -/
def free (P : Params) (σ : Stored) (l : Label) (msg : Msg) : Option Stored :=
  match Segments.free_msg σ.mem (σ.addr msg.mid) with
  | none => some σ.crash
  | some mem => (step P σ.core l).map fun core => { σ with core := core, mem := mem }

/-- What `store_msg` at `out_success` leaves with the caller, after `put_user` of the type. -/
def fetch (L : Layout) (σ : Stored) (io : BlockIo) (a : RcvArgs) (msg : Msg) : Option Ret :=
  let msgsz := if a.msgsz > msg.m_ts then msg.m_ts else a.msgsz
  if a.space && !io.user then some (.err .EFAULT)
  else (store_msg L a.space io.copies σ.mem (σ.addr msg.mid) msgsz).map fun (r, text) =>
    if r ≠ 0 then .err .EFAULT else .rcv msgsz msg.m_type text

/-- `out_success`: copy out, free the message, return. -/
def copyOut (L : Layout) (σ : Stored) (t : Tid) (io : BlockIo) (a : RcvArgs) (msg : Msg) :
    Stored :=
  match σ.fetch L io a msg, Segments.free_msg σ.mem (σ.addr msg.mid) with
  | some r, some mem =>
    { σ with
      core := (σ.core.log fun h =>
        { h with handed := h.handed ++ [(t, msg)], freed := h.freed ++ [msg] }).ret t r
      mem := mem }
  | _, _ => σ.crash

/-- The next stretch of a task. -/
def exec (P : Params) (L : Layout) (σ : Stored) (t : Tid) (io : BlockIo) : Option Stored :=
  match (σ.core.tasks t).pc with
  | .sndFree _ msg => σ.free P (.exec t io.env) msg
  | .ctlFree _ (msg :: _) => σ.free P (.exec t io.env) msg
  | .rcvCopy a msg => if σ.core.oops.isSome then none else some (σ.copyOut L t io a msg)
  | _ => σ.plain P (.exec t io.env)

/-- One step; after a wrong access there is none. -/
def next (P : Params) (L : Layout) (σ : Stored) (l : BlockLabel) : Option Stored :=
  if σ.fault then none
  else match l with
    | .call t c io => σ.call P L t c io
    | .exec t io => σ.exec P L t io
    | .resume t => σ.plain P (.resume t)
    | .signal t pending => σ.plain P (.signal t pending)

end Stored

/-- The module on a memory without blocks. -/
def storedMachine (P : Params) (L : Layout) : TSys Stored BlockLabel where
  init σ := (machine P).init σ.core ∧ (∃ stale, σ.mem = ⟨0, fun _ => none, [], stale⟩) ∧
    σ.fault = false
  next := Stored.next P L

end RtaiDemos.Sysvmsg
