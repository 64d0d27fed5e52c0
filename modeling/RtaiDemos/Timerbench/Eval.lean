import Mathlib.Algebra.Order.Ring.Int
import Mathlib.Logic.Function.Basic

/-!
# The evaluation of the timer benchmark

`eval_inner_loop` and `eval_outer_loop` of `timerbench.c`, with the two loops that
call them, from `rt_tmbench_start` to `rt_tmbench_stop`; without
`CONFIG_IPIPE_TRACE`. `w` is the width of `long`, and the arithmetic of `long` and
`long long` wraps. The histograms lie in one block of `kmalloc`. A cell outside its
histogram has no contents, and a histogram outside of the block has no cells: an
access to it ends the run.
-/

namespace RtaiDemos.Timerbench

/-- Conversion to `long`. -/
def long (w : Nat) (x : Int) : Int := x.bmod (2 ^ w)

/-- Conversion to `long long`. -/
def longLong (x : Int) : Int := x.bmod (2 ^ 64)

/-- Conversion to `unsigned`. -/
def unsigned (x : Int) : Int := x % 2 ^ 32

/-- `RTTST_TMBENCH_TASK` -/
def RTTST_TMBENCH_TASK : Int := 0

/-- What `min` starts from; `max` starts from its negation. -/
def sentinel : Int := 10000000

/-- `struct rttst_bench_res` -/
structure BenchRes where
  avg : Int
  min : Int
  max : Int
  overruns : Int
  test_loops : Int
  deriving DecidableEq, Repr

/-- `struct rttst_tmbench_config`, what is read of it. -/
structure Config where
  mode : Int
  period : Nat
  warmup_loops : Int
  histogram_size : Int
  histogram_bucketsize : Int
  deriving DecidableEq, Repr

/-- `struct rt_tmbench_context`, what the evaluation uses. `block` is the size in bytes of
the block that `histogram_min` points to, if there is one. -/
structure Context where
  period : Nat
  warmup_loops : Int
  samples_per_sec : Int
  histogram_min : Int → Int
  histogram_max : Int → Int
  histogram_avg : Int → Int
  block : Option Nat
  histogram_size : Int
  bucketsize : Int
  warmup : Bool
  date : BitVec 64
  curr : BenchRes
  last : BenchRes
  overall : BenchRes

variable (w : Nat)

/-- `sizeof(long)` -/
def sizeofLong : Nat := w / 8

/-- `3 * ctx->histogram_size * sizeof(long)`, a product of `int`s and then of `size_t`s. -/
def kmallocSize (histogram_size : Int) : Nat :=
  ((3 * histogram_size).bmod (2 ^ 32) * sizeofLong w % 2 ^ w).toNat

/-- A block of so many bytes holds the three histograms. -/
def holdsThree (histogram_size : Int) (bytes : Nat) : Bool :=
  3 * histogram_size * sizeofLong w ≤ bytes

/-- The histograms of the context lie in its block. -/
def allocated (ctx : Context) : Bool := ctx.block.any (holdsThree w ctx.histogram_size)

/-- The index that `add_histogram` computes. -/
def histogramIndex (ctx : Context) (addval : Int) : Int :=
  let inabs := (if addval ≥ 0 then addval else long w (-addval)).tdiv ctx.bucketsize
  if inabs < ctx.histogram_size then inabs else ctx.histogram_size - 1

/-- `add_histogram` -/
def add_histogram (ctx : Context) (histogram : Int → Int) (addval : Int) : Option (Int → Int) :=
  let i := histogramIndex w ctx addval
  if (0 ≤ i ∧ i < ctx.histogram_size) ∧ allocated w ctx = true then
    some (Function.update histogram i (long w (histogram i + 1)))
  else none

/-- `slldiv` -/
def slldiv (s : Int) (d : Int) : Int := if s ≥ 0 then s / d else -(-s / d)

/-- The `while` loop of `eval_inner_loop`, which ends within `dt` rounds. -/
def overrunLoop (period : Nat) : Nat → Int → Int → BitVec 64 → Int × BitVec 64
  | 0, _, overruns, date => (overruns, date)
  | fuel + 1, dt, overruns, date =>
    if dt > 0 ∧ dt > period then
      overrunLoop period fuel (dt - period) (long w (overruns + 1)) (date + BitVec.ofNat 64 period)
    else (overruns, date)

/-- `add_histogram`, if there are histograms and `on` says so. -/
def countIn (ctx : Context) (on : Bool) (histogram : Int → Int) (addval : Int) :
    Option (Int → Int) :=
  if on && ctx.histogram_size != 0 then add_histogram w ctx histogram addval else some histogram

/-- `eval_inner_loop` -/
def eval_inner_loop (ctx : Context) (dt : Int) : Option Context :=
  (countIn w ctx (!ctx.warmup) ctx.histogram_avg dt).map fun histogram_avg =>
    let loop := overrunLoop w ctx.period dt.toNat dt ctx.curr.overruns
      (ctx.date + BitVec.ofNat 64 ctx.period)
    { ctx with
      curr := { ctx.curr with
        max := if dt > ctx.curr.max then dt else ctx.curr.max
        min := if dt < ctx.curr.min then dt else ctx.curr.min
        avg := longLong (ctx.curr.avg + dt)
        overruns := loop.1 }
      histogram_avg := histogram_avg
      date := loop.2 }

/-- The first part of `eval_outer_loop`, after the warm-up. -/
def evalResult (ctx : Context) : Option Context := do
  let histogram_max ← countIn w ctx true ctx.histogram_max ctx.curr.max
  let histogram_min ← countIn w ctx true ctx.histogram_min ctx.curr.min
  let avg := slldiv ctx.curr.avg (unsigned ctx.samples_per_sec)
  some { ctx with
    histogram_max := histogram_max
    histogram_min := histogram_min
    last := { ctx.last with min := ctx.curr.min, max := ctx.curr.max, avg := avg }
    overall := { ctx.overall with
      min := if ctx.curr.min < ctx.overall.min then ctx.curr.min else ctx.overall.min
      max := if ctx.curr.max > ctx.overall.max then ctx.curr.max else ctx.overall.max
      avg := longLong (ctx.overall.avg + avg)
      overruns := long w (ctx.overall.overruns + ctx.curr.overruns) } }

/-- The end of the warm-up. -/
def endWarmup (ctx : Context) : Context :=
  if ctx.warmup && ctx.overall.test_loops == ctx.warmup_loops then
    { ctx with overall := { ctx.overall with test_loops := 0 }, warmup := false }
  else ctx

/-- What a round starts from. -/
def resetCurr (curr : BenchRes) : BenchRes :=
  { curr with min := sentinel, max := -sentinel, avg := 0, overruns := 0 }

/-- The last part of `eval_outer_loop`. -/
def nextRound (ctx : Context) : Context :=
  { ctx with
    curr := resetCurr ctx.curr
    overall := { ctx.overall with test_loops := long w (ctx.overall.test_loops + 1) } }

/-- `eval_outer_loop` -/
def eval_outer_loop (ctx : Context) : Option Context :=
  (if ctx.warmup then some ctx else evalResult w ctx).map fun ctx => nextRound w (endWarmup ctx)

/-- A round of `timer_task_proc` whose delays are `dts`. -/
def timer_task_proc (ctx : Context) (dts : List Int) : Option Context :=
  (dts.foldlM (eval_inner_loop w) ctx).bind (eval_outer_loop w)

/-- Sets `curr.test_loops`. -/
def Context.setLoops (ctx : Context) (n : Int) : Context :=
  { ctx with curr := { ctx.curr with test_loops := n } }

/-- `timer_proc` at a delay of `dt`. -/
def timer_proc (ctx : Context) (dt : Int) : Option Context :=
  (eval_inner_loop w ctx dt).bind fun ctx =>
    let test_loops := long w (ctx.curr.test_loops + 1)
    if test_loops ≥ ctx.samples_per_sec then eval_outer_loop w (ctx.setLoops 0)
    else some (ctx.setLoops test_loops)

/-- What `rt_tmbench_start` makes of the context. -/
def startContext (ctx : Context) (config : Config) : Context :=
  let empty := fun _ => 0
  let curr := resetCurr ctx.curr
  { ctx with
    period := config.period
    warmup_loops := config.warmup_loops
    samples_per_sec := 1000000000 / config.period
    histogram_size := config.histogram_size
    block := if config.histogram_size > 0 then some (kmallocSize w config.histogram_size)
      else ctx.block
    histogram_min := if config.histogram_size > 0 then empty else ctx.histogram_min
    histogram_max := if config.histogram_size > 0 then empty else ctx.histogram_max
    histogram_avg := if config.histogram_size > 0 then empty else ctx.histogram_avg
    bucketsize := if config.histogram_size > 0 then config.histogram_bucketsize else ctx.bucketsize
    overall := { min := sentinel, max := -sentinel, avg := 0, test_loops := 1, overruns := 0 }
    warmup := true
    curr := if config.mode = RTTST_TMBENCH_TASK then curr else { curr with test_loops := 0 } }

/-- What `rt_tmbench_stop` makes of the context. -/
def stopContext (ctx : Context) : Context :=
  let loops := (if ctx.overall.test_loops > 1 then ctx.overall.test_loops else 2) - 1
  { ctx with
    overall := { ctx.overall with avg := slldiv ctx.overall.avg (unsigned loops) }
    block := if ctx.histogram_size > 0 then none else ctx.block }

/-- The rounds, in the task or in the handler. -/
def measure (mode : Int) (ctx : Context) (rounds : List (List Int)) : Option Context :=
  if mode = RTTST_TMBENCH_TASK then rounds.foldlM (timer_task_proc w) ctx
  else rounds.flatten.foldlM (timer_proc w) ctx

/-- From a start to the next stop. -/
def benchmark (ctx : Context) (config : Config) (rounds : List (List Int)) : Option Context :=
  (measure w config.mode (startContext w ctx config) rounds).map stopContext

end RtaiDemos.Timerbench
