import RtaiDemos.Timerbench.Device

/-!
# Where the timer benchmark can fault

The evaluation with its divisions and its accesses to the histograms looked at before
they are made, from one start of a benchmark to its stop and on to the next. A
configuration comes as the caller passes it: `int`s, and a period of 64 bits that becomes
an `unsigned long`.
-/

namespace RtaiDemos.Timerbench

/-- What ends a run. -/
inductive Fault
  /-- A division by zero, or one of `LONG_MIN` by -1, which has no quotient either. -/
  | divide
  /-- An index outside of 0 .. `histogram_size` - 1. -/
  | index
  /-- The histogram is not in memory that has been allocated for it. -/
  | unallocated
  deriving DecidableEq, Repr

/-- `struct rttst_tmbench_config` -/
structure UserConfig where
  mode : BitVec 32
  period : BitVec 64
  warmup_loops : BitVec 32
  histogram_size : BitVec 32
  histogram_bucketsize : BitVec 32
  deriving DecidableEq, Repr

variable (w : Nat)

/-- The configuration as the context takes it over. -/
def UserConfig.config (u : UserConfig) : Config where
  mode := u.mode.toInt
  period := (u.period.toInt % 2 ^ w).toNat
  warmup_loops := u.warmup_loops.toInt
  histogram_size := u.histogram_size.toInt
  histogram_bucketsize := u.histogram_bucketsize.toInt

/-- A benchmark on one context. `count` is the variable of `timer_task_proc`; `due` says
that the delays of a round are complete. -/
structure Bench where
  ctx : Context
  mode : Int
  running : Bool
  count : Int
  due : Bool
  fault : Option Fault

/-! ## The checks -/

/-- `add_histogram` -/
def addFault (ctx : Context) (addval : Int) : Option Fault :=
  let abs := if addval ≥ 0 then addval else long w (-addval)
  if ctx.bucketsize = 0 ∨ abs = -2 ^ (w - 1) ∧ ctx.bucketsize = -1 then some .divide
  else
    let i := histogramIndex w ctx addval
    if ¬ (0 ≤ i ∧ i < ctx.histogram_size) then some .index
    else if !allocated w ctx then some .unallocated
    else none

/-- `slldiv` -/
def slldivFault (d : Int) : Option Fault := if unsigned d = 0 then some .divide else none

/-- `eval_inner_loop` -/
def innerFault (ctx : Context) (dt : Int) : Option Fault :=
  if !ctx.warmup && ctx.histogram_size != 0 then addFault w ctx dt else none

/-- `eval_outer_loop` -/
def outerFault (ctx : Context) : Option Fault :=
  if ctx.warmup then none
  else
    (if ctx.histogram_size ≠ 0 then
      (addFault w ctx ctx.curr.max).or (addFault w ctx ctx.curr.min)
    else none).or (slldivFault ctx.samples_per_sec)

/-- `rt_tmbench_stop` -/
def stopFault (ctx : Context) : Option Fault :=
  slldivFault ((if ctx.overall.test_loops > 1 then ctx.overall.test_loops else 2) - 1)

/-! ## The steps -/

namespace Bench

/-- The run ends. -/
def fails (σ : Bench) (f : Fault) : Bench := { σ with fault := some f }

/-- The task or the timer has been set going. -/
def launched (config : Config) (o : StartOutcome) : Bool :=
  !o.closing && (if config.mode = RTTST_TMBENCH_TASK then o.task_err == 0 else o.timer_err == 0)

/-- The end of the delays of a round, before the first one: the handler looks at it only
after a delay. -/
def emptyRound (mode samples_per_sec : Int) : Bool :=
  decide (mode = RTTST_TMBENCH_TASK ∧ 0 ≥ samples_per_sec)

/-- `rt_tmbench_start` -/
def start (σ : Bench) (u : UserConfig) (o : StartOutcome) : Bench :=
  let config := u.config w
  if o.copied = false then σ
  else if config.period = 0 then σ.fails .divide
  else if config.histogram_size > 0 ∧ o.kmalloc = false then
    { σ with
      ctx := { σ.ctx with
        period := config.period
        warmup_loops := config.warmup_loops
        samples_per_sec := 1000000000 / config.period
        histogram_size := config.histogram_size
        block := none } }
  else
    { σ with
      ctx := startContext w σ.ctx config
      mode := config.mode
      running := launched config o
      count := 0
      due := emptyRound config.mode (1000000000 / config.period) }

/-- After `eval_inner_loop`: the `for` loop of the task, or the counter of the handler. -/
def sampled (σ : Bench) (ctx : Context) : Bench :=
  if σ.mode = RTTST_TMBENCH_TASK then
    { σ with
      ctx := ctx
      count := σ.count + 1
      due := decide (σ.count + 1 ≥ ctx.samples_per_sec) }
  else
    let test_loops := long w (ctx.curr.test_loops + 1)
    { σ with
      ctx := ctx.setLoops test_loops
      due := decide (test_loops ≥ ctx.samples_per_sec) }

/-- What `eval_outer_loop` is called with. -/
def roundContext (σ : Bench) : Context :=
  if σ.mode = RTTST_TMBENCH_TASK then σ.ctx else σ.ctx.setLoops 0

/-- After `eval_outer_loop`. -/
def rounded (σ : Bench) (ctx : Context) : Bench :=
  { σ with ctx := ctx, count := 0, due := emptyRound σ.mode ctx.samples_per_sec }

end Bench

/-- What happens to a benchmark: a request, a delay, which is converted to `long`, or the
end of a round. -/
inductive Event
  | start (config : UserConfig) (o : StartOutcome)
  | sample (delay : Int)
  | round
  | stop
  deriving DecidableEq, Repr

/-- One step. A benchmark is stopped before the next is started. -/
def Bench.next (σ : Bench) (event : Event) : Option Bench :=
  if σ.fault.isSome then none
  else match event with
    | .start u o => if σ.running then none else some (σ.start w u o)
    | .sample delay =>
      if !σ.running || σ.due then none
      else match innerFault w σ.ctx (long w delay) with
        | some f => some (σ.fails f)
        | none => (eval_inner_loop w σ.ctx (long w delay)).map (σ.sampled w)
    | .round =>
      if !σ.running || !σ.due then none
      else match outerFault w σ.ctx with
        | some f => some (σ.fails f)
        | none => (eval_outer_loop w σ.roundContext).map σ.rounded
    | .stop =>
      if !σ.running then none
      else match stopFault σ.ctx with
        | some f => some (σ.fails f)
        | none => some { σ with ctx := stopContext σ.ctx, running := false }

/-- A context that nobody uses, whatever it holds. -/
def Bench.Idle (σ : Bench) : Prop := σ.running = false ∧ σ.fault = none

/-- The benchmarks of one context. -/
def benches : TSys Bench Event where
  init := Bench.Idle
  next σ event := σ.next w event

/-! ## The conditions -/

/-- `add_histogram` is called for histograms that exist, with a bucket size for which the
value has a place. -/
def Placed (ctx : Context) (addval : Int) : Prop :=
  0 < ctx.histogram_size ∧ allocated w ctx = true ∧
    (0 < ctx.bucketsize ∧ addval ≠ -2 ^ (w - 1) ∨
      ctx.bucketsize < 0 ∧ (addval.natAbs < ctx.bucketsize.natAbs ∨
        addval = -2 ^ (w - 1) ∧ ctx.bucketsize ≠ -1))

/-- What keeps a step from a fault: a period that is not 0 as an `unsigned long`, and after
the warm-up not above a second; places for what goes into a histogram; and a number of
rounds that is not 0 as an `unsigned`. -/
def Sound (σ : Bench) : Event → Prop
  | .start u o => o.copied = true → ¬ (2 ^ w : Int) ∣ u.period.toInt
  | .sample delay =>
    σ.ctx.warmup = false → σ.ctx.histogram_size ≠ 0 → Placed w σ.ctx (long w delay)
  | .round =>
    σ.ctx.warmup = false → σ.ctx.period ≤ 1000000000 ∧
      (σ.ctx.histogram_size ≠ 0 →
        Placed w σ.ctx σ.ctx.curr.max ∧ Placed w σ.ctx σ.ctx.curr.min)
  | .stop => σ.ctx.overall.test_loops ≤ 1 ∨ ¬ (2 ^ 32 : Int) ∣ σ.ctx.overall.test_loops - 1

end RtaiDemos.Timerbench
