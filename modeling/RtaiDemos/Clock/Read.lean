import Mathlib.Algebra.Order.Ring.Int
import Mathlib.Data.List.Basic

/-!
# The key reader (`ClockChrono_Read`)

The thread that takes the keys out of the mailbox `Keyboard`, passes the commands on
and starts the clock and the chronometer once the keyboard (`K`) and the display
(`D`) have reported. The two programs differ in how they add up the reports, in how
they start the two tasks, and in the order of the last two `Put`s.
-/

namespace RtaiDemos.Clock

/-- The tasks that wait for the start. -/
inductive Waiter
  | CLOCK | CHRONO
  deriving DecidableEq, Repr

/-- What the thread does to the others. -/
inductive ReadAction
  | CommandClock_Put (ch : Char)
  | CommandChrono_Put (ch : Char)
  | Pause (value : Bool)
  | rt_fractionated_sleep
  /-- On `sync_sem`. -/
  | rt_sem_signal
  | rt_send (task : Waiter) (msg : BitVec 32)
  deriving DecidableEq, Repr

/-- The variables of the thread; `atEnd` is set past the label `end`. -/
structure ReadState where
  run : BitVec 32
  hide : BitVec 32
  atEnd : Bool
  deriving DecidableEq, Repr

/-- What the two programs do differently. -/
structure ReadVariant where
  /-- The assignment to `run`. -/
  report : BitVec 32 → BitVec 32 → BitVec 32
  /-- What `run` is compared with. -/
  complete : BitVec 32
  start : BitVec 32 → List ReadAction
  finish : List ReadAction

/-- One round of the loop: `ch` comes out of the mailbox. -/
def ReadVariant.round (v : ReadVariant) (σ : ReadState) (ch : Char) :
    ReadState × List ReadAction :=
  let ch := ch.toUpper
  match ch with
  | 'T' | 'R' | 'H' | 'M' | 'S' => (σ, [.CommandClock_Put ch])
  | 'C' | 'I' | 'E' => (σ, [.CommandChrono_Put ch])
  | 'N' => ({ σ with hide := ~~~σ.hide }, [])
  | 'P' => (σ, [.Pause true, .rt_fractionated_sleep, .Pause false])
  | 'K' | 'D' =>
    let run := v.report σ.run (BitVec.ofNat 32 ch.toNat)
    ({ σ with run := run }, if run = v.complete then v.start run else [])
  | 'F' => ({ σ with atEnd := true }, v.finish)
  | _ => (σ, [])

/-- The loop, over the keys that come. -/
def ReadVariant.loop (v : ReadVariant) (σ : ReadState) : List Char → List ReadAction
  | [] => []
  | ch :: keys =>
    if σ.atEnd then []
    else (v.round σ ch).2 ++ v.loop (v.round σ ch).1 keys

/-- The thread from its start: `hide` is still 0. -/
def ReadVariant.read (v : ReadVariant) (keys : List Char) : List ReadAction :=
  v.loop { run := 0#32, hide := 0#32, atEnd := false } keys

/-- `sem_clock` -/
def Sem.reader : ReadVariant where
  report run ch := run ||| ch
  complete := BitVec.ofNat 32 'K'.toNat ||| BitVec.ofNat 32 'D'.toNat
  start _ := [.rt_sem_signal, .rt_sem_signal]
  finish := [.CommandClock_Put 'F', .CommandChrono_Put 'F']

def Sem.ClockChrono_Read (keys : List Char) : List ReadAction := Sem.reader.read keys

/-- `msg_clock` -/
def Msg.reader : ReadVariant where
  report run ch := run + ch
  complete := BitVec.ofNat 32 'K'.toNat + BitVec.ofNat 32 'D'.toNat
  start run := [.rt_send .CLOCK run, .rt_send .CHRONO run]
  finish := [.CommandChrono_Put 'F', .CommandClock_Put 'F']

def Msg.ClockChrono_Read (keys : List Char) : List ReadAction := Msg.reader.read keys

/-! ## The handshake -/

/-- Both tasks have got past `rt_sem_wait(sync_sem)`. -/
def Sem.Released (keys : List Char) : Prop :=
  2 ≤ (Sem.ClockChrono_Read keys).count .rt_sem_signal

/-- Both tasks have got past `rt_receive`. -/
def Msg.Released (keys : List Char) : Prop :=
  ∀ task, ∃ run, .rt_send task run ∈ Msg.ClockChrono_Read keys

/-- The two letters that report. -/
inductive Letter
  | K | D
  deriving DecidableEq, Repr

/-- The letter on a key, in either case. -/
def Letter.ofKey (ch : Char) : Option Letter :=
  match ch.toUpper with
  | 'K' => some .K
  | 'D' => some .D
  | _ => none

def Letter.code : Letter → BitVec 32
  | .K => BitVec.ofNat 32 'K'.toNat
  | .D => BitVec.ofNat 32 'D'.toNat

/-- The reports among the keys. -/
def reports (keys : List Char) : List Letter := keys.filterMap Letter.ofKey

/-- The keyboard and the display have reported. -/
def BothSeen (keys : List Char) : Prop := .K ∈ reports keys ∧ .D ∈ reports keys

/-- After every key the tasks have been released exactly if both letters have been seen. -/
def HandshakeOk (released : List Char → Prop) (keys : List Char) : Prop :=
  ∀ p, p <+: keys → (released p ↔ BothSeen p)

/-- The sum of the codes gets to that of one `K` and one `D` with the first key that
completes the two, and not before, modulo 2 ^ 32: the letter pressed first is not repeated
before the other comes, or it is `D` and comes 1, 1 + 2 ^ 30, 1 + 2 · 2 ^ 30, ... times, or
the other never comes and it is `D`, or `K` less than 143 / 75 (mod 2 ^ 32) times. -/
def InStep : List Letter → Prop
  | [] => True
  | .K :: rest => if .D ∈ rest then rest.head? = some .D else rest.length + 1 < 3836837453
  | .D :: rest => .K ∈ rest → (rest.takeWhile (· = .D)).length % 2 ^ 30 = 0

end RtaiDemos.Clock
