import RtaiDemos.Core.TSys
import RtaiDemos.Timerbench.Eval

/-!
# The device of the timer benchmark

`rt_tmbench_open`, `rt_tmbench_start`, `rt_tmbench_stop` and `rt_tmbench_close` on
one device context, as far as they decide who owns the histogram buffer.
`nrt_mutex` makes each of them one step; between them the task or the timer
evaluates delays. Buffers are numbered in the order in which `kmalloc` gives them
out, and kept with the sizes it was called for; what `kfree` is called for is listed.
-/

namespace RtaiDemos.Timerbench

/-- `RTTST_TMBENCH_INVALID` -/
def RTTST_TMBENCH_INVALID : Int := -1

/-- `RTTST_TMBENCH_HANDLER` -/
def RTTST_TMBENCH_HANDLER : Int := 1

/-- What decides about the buffer. A pointer is `NULL` or a buffer; `blocks` are the
sizes of the buffers in bytes; `task` and `timer` say that the task or the timer of
the context runs, `strays` how many may that have been made anew since. -/
structure Device where
  opened : Bool
  mode : Int
  histogram_size : Int
  histogram_min : Option Nat
  task : Bool
  timer : Bool
  strays : Nat
  blocks : List Nat
  freed : List Nat
  misused : Bool
  deriving DecidableEq, Repr

/-- The outcomes in `rt_tmbench_start`. -/
structure StartOutcome where
  copied : Bool
  kmalloc : Bool
  closing : Bool
  task_err : Int
  timer_err : Int
  deriving DecidableEq, Repr

/-- `rt_tmbench_open` -/
def rt_tmbench_open (d : Device) : Device :=
  { d with opened := true, mode := RTTST_TMBENCH_INVALID }

/-- `kfree(ctx->histogram_min)` -/
def Device.kfree (d : Device) : Device :=
  match d.histogram_min with
  | some b => { d with freed := d.freed ++ [b] }
  | none => d

/-- `rtdm_task_destroy` or `rtdm_timer_destroy`, by the mode. -/
def Device.destroy (d : Device) : Device :=
  if d.mode = RTTST_TMBENCH_TASK then { d with task := false }
  else if d.mode = RTTST_TMBENCH_HANDLER then { d with timer := false }
  else d

/-- `rtdm_task_init`, when it succeeds. -/
def Device.task_init (d : Device) : Device :=
  { d with task := true, strays := d.strays + d.task.toNat }

/-- `rtdm_timer_init` -/
def Device.timer_init (d : Device) : Device :=
  { d with timer := false, strays := d.strays + d.timer.toNat }

/-- `rt_tmbench_close` -/
def rt_tmbench_close (d : Device) : Device :=
  if d.mode ≥ 0 then
    let d := d.destroy
    let d := if d.histogram_size ≠ 0 then d.kfree else d
    { d with opened := false, mode := RTTST_TMBENCH_INVALID, histogram_size := 0 }
  else { d with opened := false }

variable (w : Nat)

/-- The end of `rt_tmbench_start`, from `ctx->mode = RTTST_TMBENCH_INVALID` on. -/
def startTimer (d : Device) (config : Config) (o : StartOutcome) : Device × Int :=
  let d := { d with mode := RTTST_TMBENCH_INVALID }
  if config.mode = RTTST_TMBENCH_TASK then
    if o.closing then (d, 0)
    else if o.task_err = 0 then ({ d.task_init with mode := RTTST_TMBENCH_TASK }, 0)
    else (d, o.task_err)
  else
    let d := d.timer_init
    if o.closing then (d, 0)
    else ({ d with mode := RTTST_TMBENCH_HANDLER, timer := o.timer_err == 0 }, o.timer_err)

/-- `rt_tmbench_start`, with the error it returns. -/
def rt_tmbench_start (d : Device) (config : Config) (o : StartOutcome) : Device × Int :=
  if o.copied = false then (d, -14)
  else
    let d := { d with histogram_size := config.histogram_size }
    if config.histogram_size > 0 then
      if o.kmalloc then
        startTimer { d with
          histogram_min := some d.blocks.length
          blocks := d.blocks ++ [kmallocSize w config.histogram_size] } config o
      else ({ d with histogram_min := none }, -12)
    else startTimer d config o

/-- `rt_tmbench_stop`, with the error it returns; `copy_err` is that of the copy
of the result, `copied` says that all those of the histograms succeed. -/
def rt_tmbench_stop (d : Device) (copy_err : Int) (copied : Bool) : Device × Int :=
  if d.mode < 0 then (d, -22)
  else
    let d := { d.destroy with mode := RTTST_TMBENCH_INVALID }
    if d.histogram_size > 0 then (d.kfree, if copied then copy_err else -14) else (d, copy_err)

/-- The buffer is allocated and not yet freed. -/
def Device.live (d : Device) (b : Nat) : Bool := b < d.blocks.length && !d.freed.contains b

/-- The buffer holds the three histograms, which have cells if the size is positive. -/
def Device.holds (d : Device) (b : Nat) : Bool :=
  0 < d.histogram_size && d.blocks[b]?.any (holdsThree w d.histogram_size)

/-- `eval_inner_loop` and `eval_outer_loop` after the warm-up: an access to the
histograms, if the size says that there are any. -/
def Device.eval (d : Device) : Device :=
  if d.histogram_size ≠ 0 ∧ ¬ d.histogram_min.any (fun b => d.live b && d.holds w b) then
    { d with misused := true }
  else d

/-- A request, or an evaluation of a task or timer. -/
inductive Request
  | opens
  | start (config : Config) (o : StartOutcome)
  | stop (copy_err : Int) (copied : Bool)
  | close
  | eval
  deriving DecidableEq, Repr

/-- One step. A context is opened, then used, then closed. -/
def serve (d : Device) : Request → Option Device
  | .opens => if d.opened then none else some (rt_tmbench_open d)
  | .start config o => if d.opened then some (rt_tmbench_start w d config o).1 else none
  | .stop copy_err copied => if d.opened then some (rt_tmbench_stop d copy_err copied).1 else none
  | .close => if d.opened then some (rt_tmbench_close d) else none
  | .eval => if d.task ∨ d.timer ∨ 0 < d.strays then some (d.eval w) else none

/-- A context that nobody has opened: its fields may have any contents. -/
def device : TSys Device Request where
  init d := d.opened = false ∧ d.task = false ∧ d.timer = false ∧ d.strays = 0 ∧ d.blocks = [] ∧
    d.freed = [] ∧ d.misused = false
  next := serve w

end RtaiDemos.Timerbench
