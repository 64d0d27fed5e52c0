import RtaiDemos.Core.CInt
import RtaiDemos.Core.Fold

/-!
# The jitters of the preemption test

The slow and the fast thread of `kern/preempt`, and those of `user/preempt`, between
an activation and the next. A thread is given the times at which it runs; `none` is an
operation on ints that overflows. The conversion to int takes the low bits of an
`RTIME`, so that the 64 bits of the latter do not matter.
-/

namespace RtaiDemos.Preempt

open CInt

/-- `TICK_TIME`. -/
def TICK_TIME (CONFIG_UCLINUX : Bool) : Int := if CONFIG_UCLINUX then 1000000 else 100000

/-! ## In the kernel -/

namespace Kern

def FASTMUL : Int := 4

def SLOWMUL : Int := 24

/-- `svt` and `slowjit` or `fastjit`. -/
structure Thread where
  svt : Int
  worst : Int
  deriving DecidableEq, Repr

/-- One turn of the loop, at the time `t`, for a period of `nominal` ns. -/
def turn (nominal : Int) (σ : Thread) (t : Int) : Option Thread :=
  let jit := toInt (t - σ.svt - nominal)
  -- `if (jit) { jit = - jit; }`
  (if jit ≠ 0 then checked (-jit) else some jit).map fun jit => ⟨t, Fold.raise σ.worst jit⟩

/-- A thread that starts at the time `start`, after the turns at the times `ts`. -/
def thread (nominal start : Int) (ts : List Int) : Option Thread :=
  ts.foldlM (turn nominal) ⟨start - nominal, 0⟩

def Slow_Thread (uclinux : Bool) : Int → List Int → Option Thread :=
  thread (SLOWMUL * TICK_TIME uclinux)

def Fast_Thread (uclinux : Bool) : Int → List Int → Option Thread :=
  thread (FASTMUL * TICK_TIME uclinux)

/-- The intervals between the times, the first from `svt`, less the nominal one. -/
def jitters (nominal : Int) : Int → List Int → List Int
  | _, [] => []
  | svt, t :: ts => (t - svt - nominal) :: jitters nominal t ts

/-- The jitters of a thread of that nominal period. -/
def threadJitters (nominal start : Int) : List Int → List Int := jitters nominal (start - nominal)

def slowJitters (uclinux : Bool) : Int → List Int → List Int :=
  threadJitters (SLOWMUL * TICK_TIME uclinux)

def fastJitters (uclinux : Bool) : Int → List Int → List Int :=
  threadJitters (FASTMUL * TICK_TIME uclinux)

end Kern

/-! ## In user space -/

namespace User

def FASTMUL : Int := 2

def SLOWMUL : Int := 12

/-- `expected` and `slowjit` or `fastjit`. -/
structure Thread where
  expected : Int
  worst : Int
  deriving DecidableEq, Repr

/-- One turn of the loop, at the time `t`. -/
def turn (count2nano : Int → Int) (period : Int) (σ : Thread) (t : Int) : Option Thread :=
  -- `jit = abs(count2nano(rt_get_time() - expected))`
  (checked |toInt (count2nano (t - σ.expected))|).map fun jit =>
    ⟨σ.expected + period, Fold.raise σ.worst jit⟩

/-- `period`, an int. -/
def period (nano2count : Int → Int) (mul tick : Int) : Int := toInt (nano2count (mul * tick))

/-- A thread of that period, expected first `ticks` ticks after `start`, after the
turns at the times `ts`. -/
def thread (nano2count count2nano : Int → Int) (mul ticks tick start : Int) (ts : List Int) :
    Option Thread :=
  ts.foldlM (turn count2nano (period nano2count mul tick)) ⟨start + ticks * nano2count tick, 0⟩

def slow_fun (nano2count count2nano : Int → Int) (uclinux : Bool) :
    Int → List Int → Option Thread :=
  thread nano2count count2nano SLOWMUL 9 (TICK_TIME uclinux)

def fast_fun (nano2count count2nano : Int → Int) (uclinux : Bool) :
    Int → List Int → Option Thread :=
  thread nano2count count2nano FASTMUL 6 (TICK_TIME uclinux)

/-- The times less those expected, in ns. -/
def jitters (count2nano : Int → Int) (period : Int) : Int → List Int → List Int
  | _, [] => []
  | expected, t :: ts => count2nano (t - expected) :: jitters count2nano period (expected + period) ts

/-- The jitters of a thread of that period and first expected time. -/
def threadJitters (nano2count count2nano : Int → Int) (mul ticks tick start : Int) :
    List Int → List Int :=
  jitters count2nano (period nano2count mul tick) (start + ticks * nano2count tick)

def slowJitters (nano2count count2nano : Int → Int) (uclinux : Bool) : Int → List Int → List Int :=
  threadJitters nano2count count2nano SLOWMUL 9 (TICK_TIME uclinux)

def fastJitters (nano2count count2nano : Int → Int) (uclinux : Bool) : Int → List Int → List Int :=
  threadJitters nano2count count2nano FASTMUL 6 (TICK_TIME uclinux)

end User

/-! ## What is reported -/

/-- A jitter that an int can hold together with its negative. -/
def Bounded (jit : Int) : Prop := -2147483648 < jit ∧ jit ≤ 2147483647

instance : DecidablePred Bounded := fun _ => inferInstanceAs (Decidable (_ ∧ _))

/-- The greatest absolute value of the jitters, and 0. -/
def Worst (jits : List Int) (worst : Int) : Prop :=
  IsGreatest {x | x = 0 ∨ ∃ jit ∈ jits, x = |jit|} worst

/-- Every late activation comes after an early one that is off by at least as much. -/
def EarlyFirst (jits : List Int) : Prop :=
  ∀ k jit, jits[k]? = some jit → 0 < jit → ∃ early ∈ jits.take k, early ≤ -jit

end RtaiDemos.Preempt
