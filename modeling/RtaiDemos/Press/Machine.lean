import Mathlib.Data.Rat.Floor
import RtaiDemos.Core.CInt
import RtaiDemos.Core.TSys

/-!
# The steel press

`encoder_irq` of `press.c` and the loop of its `main`, with the semaphore that the
encoder signals. A step is one statement of one of the two, a pulse, or a SIGINT. The
quotient `Item_Length/Encoder` is a rational number.
-/

namespace RtaiDemos.Press

open CInt

/-- The job: `Item_Length/Encoder` and `Item_Qty`. -/
structure Job where
  ratio : ℚ
  ratio_pos : 0 < ratio
  Item_Qty : Int

/-- The pulses that make an item: the least integer that passes the test. -/
def Job.pulsesPerItem (J : Job) : Int := ⌈J.ratio⌉

/-- Where `encoder_irq` stands: before `while (end != 2)`, `rt_sem_wait`,
`encoder_count++`, and the rest of the body. -/
inductive EncoderPc
  | loop
  | wait
  | count
  | rest
  | gone
  deriving DecidableEq, Repr

/-- Where `main` stands: before `MaxCount = Item_Length/Encoder`, the condition of the
loop, the test, `encoder_count = 0`, `Pressed_Items++`, `update_display`; and after the
loop. -/
inductive MainPc
  | start
  | head
  | test
  | reset
  | press
  | display
  | leave
  | left
  deriving DecidableEq, Repr

/-- The variables of the two, `end` among them as `ended`, and the semaphore. `pulses` is
the number of pulses counted; no step reads it. -/
structure State where
  sem : Nat
  ended : Int
  encoder : EncoderPc
  encoder_count : Int
  mycount : Int
  maxcnt : Int
  MaxCount : Int
  main : MainPc
  Pressed_Items : Int
  old_enc_cnt : Int
  pulses : Nat
  deriving DecidableEq, Repr

/-- A pulse on the semaphore, a SIGINT, or a statement. -/
inductive Label
  | pulse
  | sigint
  | encoder
  | main
  deriving DecidableEq, Repr

def initState : State :=
  ⟨0, 0, .loop, 0, 0, 0, 0, .start, 0, 0, 0⟩

/-- `mycount++` and what depends on it. -/
def State.countOwn (σ : State) : State :=
  let mycount := toInt (σ.mycount + 1)
  if mycount ≥ σ.MaxCount then
    { σ with maxcnt := if mycount ≥ σ.maxcnt then mycount else σ.maxcnt, mycount := 0 }
  else { σ with mycount := mycount }

def State.encoderStep (σ : State) : Option State :=
  match σ.encoder with
  | .loop => some { σ with encoder := if σ.ended ≠ 2 then .wait else .gone }
  | .wait => if 0 < σ.sem then some { σ with sem := σ.sem - 1, encoder := .count } else none
  | .count =>
    some { σ with
      encoder_count := toInt (σ.encoder_count + 1), pulses := σ.pulses + 1, encoder := .rest }
  | .rest => some { σ.countOwn with encoder := .loop }
  | .gone => none

def State.mainStep (J : Job) (σ : State) : Option State :=
  match σ.main with
  | .start => some { σ with MaxCount := toInt ⌊J.ratio⌋, main := .head }
  | .head =>
    some { σ with main := if σ.Pressed_Items < J.Item_Qty ∧ σ.ended = 0 then .test else .leave }
  | .test => some { σ with main := if J.ratio ≤ σ.encoder_count then .reset else .display }
  | .reset => some { σ with encoder_count := 0, main := .press }
  | .press => some { σ with Pressed_Items := σ.Pressed_Items + 1, main := .display }
  | .display => some { σ with old_enc_cnt := σ.encoder_count, main := .head }
  | .leave => some { σ with ended := 2, main := .left }
  | .left => none

def step (J : Job) (σ : State) : Label → Option State
  | .pulse => some { σ with sem := σ.sem + 1 }
  | .sigint => some { σ with ended := 1 }
  | .encoder => σ.encoderStep
  | .main => σ.mainStep J

/-- The press at work on a job. -/
def press (J : Job) : TSys State Label where
  init σ := σ = initState
  next := step J

/-- Every pulse counted is in an item or in `encoder_count`. -/
def State.Balanced (J : Job) (σ : State) : Prop :=
  σ.Pressed_Items * J.pulsesPerItem + σ.encoder_count = σ.pulses

/-- `encoder_count = 0` finds the pulses of one item, and `encoder_count++` an int that
has a successor. -/
def Sound (J : Job) (σ : State) (a : Label) : Prop :=
  (a = .main → σ.main = .reset → σ.encoder_count = J.pulsesPerItem) ∧
    (a = .encoder → σ.encoder = .count → σ.encoder_count < 2147483647)

end RtaiDemos.Press
