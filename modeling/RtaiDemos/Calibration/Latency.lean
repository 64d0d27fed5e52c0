import Mathlib.Algebra.BigOperators.Group.Finset.Basic
import RtaiDemos.Core.CInt

/-!
# The calibration of the latency

The commands `k` and `x` of `calproc.c`, with the task `spv` of `calmod.c` that adds
up the latencies and passes the sum through the fifo. `none` is an operation on ints
that overflows, or a division by 0. `w` is the width of `unsigned long`; the latency
of a period is what `count2nano(rt_get_time() - expected)` is in it.
-/

namespace RtaiDemos.Calibration

open CInt

/-- The fields of `params_t` that the two commands read. -/
structure params_t where
  mp : Nat
  latency_8254 : Nat
  latency_apic : Nat
  deriving DecidableEq, Repr

/-- What `getint` stores: it turns down what is not positive. -/
def getint (tmp : Int) : Option Nat := if tmp ≤ 0 then none else some tmp.toNat

/-- `args[2] = (1000000*args[2])/args[1]`, in `unsigned long`. -/
def loops (w period time : Nat) : Nat := 1000000 * time % 2 ^ w / period

/-- The conversion to `long`. -/
def long (w : Nat) (x : Int) : Int := x.bmod (2 ^ w)

/-- The loop of `spv` from `skip` on; `skip++` overflows at the last int. -/
def spvFrom (loops : Int) (latency : Nat → Int) (skip average : Int) : Option Int :=
  if skip < loops then
    (checked (average + toInt (latency skip.toNat))).bind fun average =>
      if skip < 2147483647 then spvFrom loops latency (skip + 1) average else none
  else some average
termination_by (2147483647 - skip).toNat

/-- `spv`, to what it puts into the fifo. -/
def spv (w data : Nat) (latency : Nat → Int) : Option Int := spvFrom (long w data) latency 0 0

/-- The latency in use that the message is about. -/
def params_t.inUse (params : params_t) : Int :=
  if params.mp ≠ 0 then toInt params.latency_apic else toInt params.latency_8254

/-- The number that is printed, from the sum in the fifo: `average /= (int)args[2]`,
added to the latency in use. -/
def report (params : params_t) (args2 : Nat) (average : Int) : Option Int :=
  (divide average (toInt args2)).bind fun average => checked (params.inUse + average)

/-- The commands, from the two numbers to the message. -/
def klatency (w : Nat) (params : params_t) (period time : Nat) (latency : Nat → Int) : Option Int :=
  (spv w (loops w period time) latency).bind (report params (loops w period time))

/-! ## The mean -/

/-- The sum of the first latencies. -/
def total (latency : Nat → Int) (n : Nat) : Int := ∑ i ∈ Finset.range n, latency i

theorem total_zero (latency : Nat → Int) : total latency 0 = 0 := Finset.sum_range_zero latency

theorem total_succ (latency : Nat → Int) (n : Nat) :
    total latency (n + 1) = total latency n + latency n := Finset.sum_range_succ latency n

/-- The periods in that time. -/
def periods (period time : Nat) : Nat := 1000000 * time / period

/-- The calibration reports the true mean: the number of loops is the number of
periods and positive, also as the int that is the divisor; `spv` passes their sum;
and the number printed is the latency in use and the mean, truncated. -/
structure TrueMean (w : Nat) (params : params_t) (period time : Nat) (latency : Nat → Int) :
    Prop where
  loops_pos : 0 < loops w period time
  loops_eq : loops w period time = periods period time
  divisor : toInt (loops w period time) = periods period time
  accumulated : spv w (loops w period time) latency = some (total latency (periods period time))
  printed : klatency w params period time latency =
    some (params.inUse + (total latency (periods period time)).tdiv (periods period time))

/-- There is a period in the time, their number is an int, nothing in its
computation overflows, and neither does a sum on the way or the last one. -/
structure InBounds (w : Nat) (params : params_t) (period time : Nat) (latency : Nat → Int) :
    Prop where
  period_le : period ≤ 1000000 * time
  product_lt : 1000000 * time < 2 ^ w
  periods_le : periods period time ≤ 2147483647
  sums : ∀ k ≤ periods period time, Fits (total latency k)
  printed : Fits (params.inUse + (total latency (periods period time)).tdiv (periods period time))

end RtaiDemos.Calibration
