import RtaiDemos.Core.Buffer
import RtaiDemos.Core.Callers
import RtaiDemos.Sysvmsg.Boxes

/-!
# The test program (`testmsg.c`)

`NTASKS` tasks `mfun` send requests to the queue SMSG, the server `bfun` takes
them from there and answers each to the queue of its sender, and `main` creates
the queues, starts the tasks, ends them one after the other and removes the
queues. The program knows of the module only what its calls return.

A thread is `inside` while one of its calls has not returned. What it does
between two accesses to `end` or to a queue is one step.
-/

namespace RtaiDemos.Sysvmsg.TestMsg

def NTASKS : Nat := 10
def MAXSIZ : Nat := 500

/-! ## Arrays of int as bytes -/

/-- An `int`. -/
abbrev Word := BitVec 32

/-- The bytes of an int in memory. -/
def intBytes (w : Word) : List UInt8 :=
  [.ofNat w.toNat, .ofNat (w.toNat / 256), .ofNat (w.toNat / 65536), .ofNat (w.toNat / 16777216)]

/-- The bytes of an array. -/
def bytesOf (msg : List Word) : List UInt8 := msg.flatMap intBytes

/-- The array that some bytes are. -/
def wordsOf : List UInt8 → List Word
  | a :: b :: c :: d :: rest =>
      .ofNat 32 (a.toNat + 256 * (b.toNat + 256 * (c.toNat + 256 * d.toNat))) :: wordsOf rest
  | _ => []

/-- The array after `mtext` was copied to its front. -/
def receive (msg : List Word) (mtext : List UInt8) : List Word :=
  wordsOf (mtext ++ (bytesOf msg).drop mtext.length)

/-! ## The names of the queues -/

/-- `nam2num` of "SMSG" and of "RMBX0" to "RMBX9": different keys, none of them `IPC_PRIVATE`. -/
structure Names where
  key : Nat → Int
  ne_private : ∀ j ≤ NTASKS, key j ≠ IPC_PRIVATE
  inj : ∀ i ≤ NTASKS, ∀ j ≤ NTASKS, key i = key j → i = j

/-- The number that a failed call returns, negated. -/
def code : Errno → Nat
  | .EPERM => 1
  | .ENOENT => 2
  | .EINTR => 4
  | .E2BIG => 7
  | .EAGAIN => 11
  | .ENOMEM => 12
  | .EACCES => 13
  | .EFAULT => 14
  | .EEXIST => 17
  | .EINVAL => 22
  | .ENOSPC => 28
  | .ENOMSG => 42
  | .EIDRM => 43

/-- The int that a call returns. -/
def value : Ret → Int
  | .ok value | .rcv value _ _ | .info value _ | .stat value _ => value
  | .err e => -code e

/-! ## The client -/

/-- Where `mfun` stands: at a call, or before it looks at `end` or the barrier. -/
inductive MfunPc
  | unborn | getSmbx | getRmbx | barrier | loop | send | recv | done
  deriving DecidableEq, Repr

/-- `mfun`. `wrong` and `failed` say what it has printed; `requests` counts its calls of
`rt_msgsnd_nu`. -/
structure Mfun where
  pc : MfunPc
  inside : Bool
  smbx : Int
  rmbx : Int
  msg : List Word
  cnt : Nat
  wrong : Bool
  failed : Bool
  requests : Nat

/-- The call at which `mfun(t)` stands. -/
def Mfun.call (N : Names) (t : Nat) (x : Mfun) : Option Call :=
  match x.pc with
  | .getSmbx => some (.msgget (N.key 0) 0#32)
  | .getRmbx => some (.msgget (N.key (t + 1)) 0#32)
  | .send => some (.msgsnd x.smbx 1 (bytesOf x.msg) 0#32 true)
  | .recv => some (.msgrcv x.rmbx (4 * (MAXSIZ + 1)) 1 0#32 true)
  | _ => none

/-- `for (i = 1; i < MAXSIZ; i++) msg[MAXSIZ] += (msg[i] = MAXSIZ*randu());` -/
def fill : Nat → List Word → List Word → List Word
  | _, [], msg => msg
  | i, x :: draws, msg => fill (i + 1) draws ((msg.set i x).set MAXSIZ (msg.getD MAXSIZ 0 + x))

/-- What follows when the reply has come. -/
def Mfun.accept (t : Nat) (x : Mfun) (mtext : List UInt8) : Mfun :=
  let msg := receive x.msg mtext
  if msg[0]? ≠ some (.ofNat 32 t) ∨ msg[1]? ≠ some 0xFFFFFFFF#32 then
    { x with msg := msg, wrong := true, pc := .done }
  else { x with msg := msg, cnt := x.cnt + 1, pc := .loop }

/-- `mfun(t)` after its call has returned. -/
def Mfun.ret (t : Nat) (x : Mfun) (r : Ret) : Mfun :=
  let x := { x with inside := false }
  match x.pc with
  | .getSmbx => { x with smbx := value r, pc := .getRmbx }
  | .getRmbx => { x with rmbx := value r, pc := .barrier }
  | .send =>
    if value r = 0 then { x with msg := (x.msg.set 0 0).set 1 0, pc := .recv }
    else { x with failed := true, pc := .done }
  | .recv =>
    match r with
    | .rcv _ _ mtext => x.accept t mtext
    | _ => { x with failed := true, pc := .done }
  | _ => x

/-- `mfun` invokes its call. -/
def Mfun.enter (x : Mfun) : Mfun :=
  { x with inside := true, requests := x.requests + if x.pc = .send then 1 else 0 }

/-! ## The server -/

/-- Where `bfun` stands. -/
inductive BfunPc
  | unborn | getSmbx | getRmbx | barrier | loop | recv | reply | send (rmbx : Int) | done
  deriving DecidableEq, Repr

/-- `bfun`. `unknown` says what it has printed, `failed` that a receive has, which it does
not notice; `oob` that it used an index outside `rmbx`; `replies` counts for each client. -/
structure Bfun where
  pc : BfunPc
  inside : Bool
  smbx : Int
  rmbx : List Int
  msg : List Word
  unknown : Bool
  failed : Bool
  oob : Bool
  replies : Nat → Nat

/-- The call at which `bfun` stands. -/
def Bfun.call (N : Names) (x : Bfun) : Option Call :=
  match x.pc with
  | .getSmbx => some (.msgget (N.key 0) 0#32)
  | .getRmbx => some (.msgget (N.key (x.rmbx.length + 1)) 0#32)
  | .recv => some (.msgrcv x.smbx (4 * (MAXSIZ + 1)) 1 0#32 true)
  | .send rmbx => some (.msgsnd rmbx 1 (bytesOf (x.msg.take 2)) 0#32 true)
  | _ => none

/-- The sum over `msg[1]`, …, `msg[MAXSIZ - 1]` is not `msg[MAXSIZ]`. -/
def unknownMsg (msg : List Word) : Bool :=
  Buffer.fold (· + ·) 1 (MAXSIZ - 1) 0 msg != msg[MAXSIZ]?

/-- `bfun` after its call has returned. -/
def Bfun.ret (x : Bfun) (r : Ret) : Bfun :=
  let x := { x with inside := false }
  match x.pc with
  | .getSmbx => { x with smbx := value r, pc := .getRmbx }
  | .getRmbx =>
    { x with
      rmbx := x.rmbx ++ [value r]
      pc := if x.rmbx.length + 1 < NTASKS then .getRmbx else .barrier }
  | .recv =>
    let x :=
      match r with
      | .rcv _ _ mtext => { x with msg := receive x.msg mtext }
      | _ => { x with failed := true }
    { x with unknown := x.unknown || unknownMsg x.msg, pc := .reply }
  | .send _ => { x with pc := .loop }
  | _ => x

/-- The client that `msg[0]` names. -/
def Bfun.to (x : Bfun) : Nat := (x.msg.getD 0 0).toNat

/-- `bfun` invokes its call. -/
def Bfun.enter (x : Bfun) : Bfun :=
  match x.pc with
  | .send _ =>
    { x with inside := true, replies := Function.update x.replies x.to (x.replies x.to + 1) }
  | _ => { x with inside := true }

/-! ## The main program -/

/-- Where `main` stands: it creates the queues and the threads and waits for a key; then
for each thread it sets `end`, tells it and joins it; at last it removes the queues. -/
inductive MainPc
  | create | spawn (i : Nat) | getchar | game (i : Nat) | tell (i : Nat) | join (i : Nat)
  | rmid (i : Nat) | done
  deriving DecidableEq, Repr

/-- `main`, with the identifiers of SMSG and of the queues RMBX in the order of their creation. -/
structure Main where
  pc : MainPc
  inside : Bool
  ids : List Int

/-- "let's end the game", with its NUL. -/
def gameMsg : List UInt8 := "let's end the game".toList.map (fun c => .ofNat c.toNat) ++ [0]

/-- The queue that `main` turns to at `i`: the clients' in their order, then the server's. -/
def boxNo (i : Nat) : Nat := if i < NTASKS then i + 1 else 0

/-- The call at which `main` stands. -/
def Main.call (N : Names) (x : Main) : Option Call :=
  match x.pc with
  | .create => some (.msgget (N.key x.ids.length) (0x666#32 ||| IPC_CREAT))
  | .tell i => some (.msgsnd (x.ids.getD (boxNo i) 0) 1 gameMsg 0#32 true)
  | .rmid i => some (.msgctl (x.ids.getD (boxNo i) 0) .ipcRmid none true)
  | _ => none

/-- `main` after its call has returned. -/
def Main.ret (x : Main) (r : Ret) : Main :=
  let x := { x with inside := false }
  match x.pc with
  | .create =>
    { x with
      ids := x.ids ++ [value r]
      pc := if x.ids.length < NTASKS then .create else .spawn 0 }
  | .tell i => { x with pc := .join i }
  | .rmid i => { x with pc := if i < NTASKS then .rmid (i + 1) else .done }
  | _ => x

/-! ## The program -/

/-- The threads and the variable `end`. -/
structure Game where
  mfun : Nat → Mfun
  bfun : Bfun
  main : Main
  end_ : Int

/-- A step of a thread outside its calls; `draws` are what `MAXSIZ*randu()` gives. -/
inductive Own
  | mfun (t : Nat) (draws : List Word)
  | bfun
  | main

namespace Game

/-- The call at which a thread stands. The clients are the threads below `NTASKS`. -/
def call (N : Names) (k : Game) (u : Tid) : Option Call :=
  if u < NTASKS then (k.mfun u).call N u
  else if u = NTASKS then k.bfun.call N
  else if u = NTASKS + 1 then k.main.call N
  else none

/-- A call of the thread has not returned. -/
def inside (k : Game) (u : Tid) : Bool :=
  if u < NTASKS then (k.mfun u).inside
  else if u = NTASKS then k.bfun.inside
  else if u = NTASKS + 1 then k.main.inside
  else false

def setMfun (k : Game) (t : Nat) (x : Mfun) : Game := { k with mfun := Function.update k.mfun t x }

/-- A thread invokes its call. -/
def enter (k : Game) (u : Tid) : Game :=
  if u < NTASKS then k.setMfun u (k.mfun u).enter
  else if u = NTASKS then { k with bfun := k.bfun.enter }
  else if u = NTASKS + 1 then { k with main := { k.main with inside := true } }
  else k

/-- A call returns. -/
def ret (k : Game) (u : Tid) (r : Ret) : Game :=
  if u < NTASKS then k.setMfun u ((k.mfun u).ret u r)
  else if u = NTASKS then { k with bfun := k.bfun.ret r }
  else if u = NTASKS + 1 then { k with main := k.main.ret r }
  else k

/-- All have come to `rt_sem_wait_barrier`. -/
def met (k : Game) : Bool :=
  ((List.range NTASKS).all fun t => (k.mfun t).pc ∉ [.unborn, .getSmbx, .getRmbx]) &&
    (k.bfun.pc ∉ [.unborn, .getSmbx, .getRmbx])

/-- `mfun` outside its calls. -/
def ownMfun (k : Game) (t : Nat) (draws : List Word) : Option Game :=
  let x := k.mfun t
  match x.pc with
  | .barrier => if k.met then some (k.setMfun t { x with pc := .loop }) else none
  | .loop =>
    if k.end_ < t then
      if draws.length = MAXSIZ - 1 then
        some (k.setMfun t { x with msg := fill 1 draws (x.msg.set MAXSIZ 0), pc := .send })
      else none
    else some (k.setMfun t { x with pc := .done })
  | _ => none

/-- `bfun` outside its calls. -/
def ownBfun (k : Game) : Option Game :=
  let x := k.bfun
  match x.pc with
  | .barrier => if k.met then some { k with bfun := { x with pc := .loop } } else none
  | .loop =>
    if k.end_ < NTASKS then some { k with bfun := { x with pc := .recv } }
    else some { k with bfun := { x with pc := .done } }
  | .reply =>
    if k.end_ ≥ NTASKS then some { k with bfun := { x with pc := .done } }
    else match x.rmbx[x.to]? with
      | none => some { k with bfun := { x with oob := true, pc := .done } }
      | some rmbx =>
        some { k with bfun := { x with msg := x.msg.set 1 0xFFFFFFFF#32, pc := .send rmbx } }
  | _ => none

/-- `main` outside its calls. The threads start at the first statement of their function,
with whatever is in their array. -/
def ownMain (k : Game) : Option Game :=
  let x := k.main
  match x.pc with
  | .spawn 0 =>
    some { k with bfun := { k.bfun with pc := .getSmbx }, main := { x with pc := .spawn 1 } }
  | .spawn (t + 1) =>
    let y := k.mfun t
    some { k.setMfun t { y with msg := y.msg.set 0 (.ofNat 32 t), pc := .getSmbx } with
      main := { x with pc := if t + 1 < NTASKS then .spawn (t + 2) else .getchar } }
  | .getchar => some { k with main := { x with pc := .game 0 } }
  | .game i => some { k with end_ := i, main := { x with pc := .tell i } }
  | .join i =>
    if i < NTASKS then
      if (k.mfun i).pc = .done then some { k with main := { x with pc := .game (i + 1) } } else none
    else if k.bfun.pc = .done then some { k with main := { x with pc := .rmid 0 } } else none
  | _ => none

/-- Before `main` has done anything; the arrays hold anything. The identifiers are set
before they are used. -/
def start (junk : Tid → List Word) : Game :=
  { mfun := fun t => ⟨.unborn, false, -1, -1, junk t, 0, false, false, 0⟩
    bfun := ⟨.unborn, false, -1, [], junk NTASKS, false, false, false, fun _ => 0⟩
    main := ⟨.create, false, []⟩
    end_ := -1 }

end Game

/-- The program. -/
def program (N : Names) : TSys Game (Move Tid Call Ret Own) where
  init k := ∃ junk, (∀ u, (junk u).length = MAXSIZ + 1) ∧ k = .start junk
  next k
    | .inv u c => if k.inside u = false ∧ k.call N u = some c then some (k.enter u) else none
    | .res u r => if k.inside u = true then some (k.ret u r) else none
    | .own (.mfun t draws) => if t < NTASKS then k.ownMfun t draws else none
    | .own .bfun => k.ownBfun
    | .own .main => k.ownMain

end RtaiDemos.Sysvmsg.TestMsg
