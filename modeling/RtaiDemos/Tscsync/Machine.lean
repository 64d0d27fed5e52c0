import Mathlib.Logic.Function.Basic
import RtaiDemos.Core.Estimate
import RtaiDemos.Core.TSys

/-!
# Synchronising time stamp counters (`testscsync.c`)

`kthread_fun` runs on one CPU after another; from there `rtai_sync_tsc` has the
master CPU read its counter between two readings of its own, `NUM_ITERS` times,
through the words `go[MASTER]` and `go[SLAVE]`. The module is for i386, where a
`long` has 32 bits and a `long long` in memory is read and written as two
halves, in either order: this is what `tsclock` is for. Of `go[MASTER]` only
the low half ever differs from 0, so it is one cell here.

Every label carries how many cycles pass before the statement; the counter of
CPU `c` is the time since then plus a constant.
-/

namespace RtaiDemos.Tscsync

/-- A CPU number. -/
abbrev Cpu := Nat

def NUM_ITERS : Nat := 10
def MASTER_CPU : Cpu := 0

/-- `unsigned long long`, and `long`. -/
def u64 (x : Int) : Int := x % 18446744073709551616
def s32 (x : Int) : Int := (x + 2147483648) % 4294967296 - 2147483648

/-- A `long long` in memory. -/
structure Word where
  lo : Int
  hi : Int
  deriving DecidableEq, Repr

inductive Half
  | lo | hi
  deriving DecidableEq, Repr

def Half.other : Half → Half
  | .lo => .hi
  | .hi => .lo

namespace Word

def of (x : Int) : Word := ⟨x % 4294967296, x / 4294967296⟩

def value (w : Word) : Int := w.lo + 4294967296 * w.hi

def get (w : Word) : Half → Int
  | .lo => w.lo
  | .hi => w.hi

/-- Write one half of a value. -/
def put (w : Word) (x : Int) : Half → Word
  | .lo => { w with lo := (of x).lo }
  | .hi => { w with hi := (of x).hi }

/-- The value of two halves, the first of which was read before. -/
def join (h : Half) (first second : Int) : Int :=
  match h with
  | .lo => first + 4294967296 * second
  | .hi => second + 4294967296 * first

end Word

/-- The two parties to a session. -/
inductive Party
  | master | slave
  deriving DecidableEq, Repr

/-- `sync_master`: where the interrupt handler on the master CPU stands. -/
inductive MasterPc
  | idle
  /-- Before `go[MASTER] = 0`. -/
  | enter
  /-- In `while (!go[MASTER])`, then before `go[MASTER] = 0`. -/
  | wait
  | clear
  /-- Before `spin_lock_irqsave`, `readtsc`, the two halves of the store, and
  `spin_unlock_irqrestore`. -/
  | lock
  | read
  | store (v : Int)
  | store2 (h : Half) (v : Int)
  | unlock
  deriving DecidableEq, Repr

/-- `rtai_sync_tsc` and `get_delta`: where the kernel thread stands. -/
inductive SlavePc
  | idle
  /-- Before `go[MASTER] = 1`, and before `smp_call_function`. -/
  | mark
  | call
  /-- In `while (go[MASTER])`. -/
  | ready
  /-- Before `t0 = readtsc()`, and before `go[MASTER] = 1`. -/
  | start
  | ask
  /-- Before `spin_lock_irqsave`, the two halves of the load of `go[SLAVE]`, and
  its test. -/
  | lock
  | load
  | load2 (h : Half) (x : Int)
  | test
  /-- Before the `spin_unlock_irqrestore` in the loop, and the one after it. -/
  | retry
  | unlock
  /-- Before the two halves of `go[SLAVE] = 0`, and before `t1 = readtsc()`. -/
  | clear
  | clear2 (h : Half)
  | stop
  /-- After the loop of `get_delta`. -/
  | finish
  deriving DecidableEq, Repr

/-- The best round so far: `best_t0`, `best_t1` and `best_tm`. -/
structure Best where
  t0 : Int
  t1 : Int
  tm : Int
  deriving DecidableEq, Repr

/-- One round: the readings, and when they were made. -/
structure Round where
  s0 : Nat
  sm : Nat
  s1 : Nat
  t0 : Int
  tm : Int
  t1 : Int
  deriving DecidableEq, Repr

/-- What a session has come to: `rt`, the difference `tcenter - best_tm` as
computed, and the value returned. -/
structure Measurement where
  cpu : Cpu
  tune : Bool
  ofst : Int
  rounds : List Round
  rt : Int
  diff : Int
  delta : Int
  deriving DecidableEq, Repr

/-- The state. `ipi` says that the call of `sync_master` is under way to the
master CPU. The last four fields are history: no statement reads them. -/
structure State where
  time : Nat
  tune : Bool
  ofst : Cpu → Int
  cpu : Cpu
  goMaster : Int
  goSlave : Word
  tsclock : Option Party
  ipi : Bool
  master : MasterPc
  masterIter : Nat
  slave : SlavePc
  iter : Nat
  t0 : Int
  tm : Int
  best : Best
  s0 : Nat
  sm : Nat
  rounds : List Round
  measured : List Measurement

/-- One step: `kthread_fun` calls `rtai_sync_tsc` on a CPU, or one of the two
parties executes its next statement `d` cycles later. `h` is the half that is
accessed first, `ok` the outcome of `smp_call_function`. -/
inductive Label
  | sync (k : Cpu) (tune : Bool)
  | master (d : Nat) (h : Half)
  | slave (d : Nat) (h : Half) (ok : Bool)
  deriving DecidableEq, Repr

/-- The counters: CPU `c` shows the time plus `counter c`. -/
structure Params where
  counter : Cpu → Int

/-- What is added to the time when CPU `c` reads its counter. -/
def State.shift (P : Params) (σ : State) (c : Cpu) : Int :=
  P.counter c - if σ.tune then σ.ofst c else 0

/-- `readtsc` on CPU `c`. -/
def readtsc (P : Params) (σ : State) (c : Cpu) : Int := u64 (σ.time + σ.shift P c)

/-- The comparison at the end of a round of `get_delta`. -/
def Best.update (b : Best) (t0 tm t1 : Int) : Best :=
  if u64 (t1 - t0) < u64 (b.t1 - b.t0) then ⟨t0, t1, tm⟩ else b

/-- `best_t0 = 0, best_t1 = ~0ULL, best_tm = 0`. -/
def Best.start : Best := ⟨0, 18446744073709551615, 0⟩

/-- `tcenter - best_tm`. -/
def Best.diff (b : Best) : Int := u64 (Estimate.mid b.t0 b.t1 - b.tm)

/-- `(8*ofst[slave] + 2*((long)(tcenter - best_tm)))/10`. -/
def smooth (ofst diff : Int) : Int := (s32 (s32 (8 * ofst) + s32 (2 * s32 diff))).tdiv 10

/-- What `get_delta` returns, as a `long long`. -/
def signed (x : Int) : Int :=
  (x + 9223372036854775808) % 18446744073709551616 - 9223372036854775808

/-- The next statement of `sync_master`. -/
def masterStep (P : Params) (σ : State) (h : Half) : Option State :=
  match σ.master with
  | .idle => if σ.ipi then some { σ with ipi := false, master := .enter } else none
  | .enter => some { σ with goMaster := 0, master := .wait, masterIter := 0 }
  | .wait => some (if σ.goMaster = 0 then σ else { σ with master := .clear })
  | .clear => some { σ with goMaster := 0, master := .lock }
  | .lock =>
      if σ.tsclock = none then some { σ with tsclock := some .master, master := .read } else none
  | .read => some { σ with master := .store (readtsc P σ MASTER_CPU), sm := σ.time }
  | .store v => some { σ with goSlave := σ.goSlave.put v h, master := .store2 h v }
  | .store2 h v => some { σ with goSlave := σ.goSlave.put v h.other, master := .unlock }
  | .unlock =>
      some { σ with
        tsclock := none
        masterIter := σ.masterIter + 1
        master := if σ.masterIter + 1 < NUM_ITERS then .wait else .idle }

/-- The end of `get_delta`. -/
def finish (σ : State) : State :=
  let diff := σ.best.diff
  let delta := if σ.tune then signed diff else smooth (σ.ofst σ.cpu) diff
  { σ with
    slave := .idle
    ofst := if σ.tune then σ.ofst else Function.update σ.ofst σ.cpu delta
    measured := σ.measured ++
      [{ cpu := σ.cpu, tune := σ.tune, ofst := σ.ofst σ.cpu, rounds := σ.rounds,
         rt := u64 (σ.best.t1 - σ.best.t0), diff := diff, delta := delta }] }

/-- The next statement of `rtai_sync_tsc` or `get_delta`. -/
def slaveStep (P : Params) (σ : State) (h : Half) (ok : Bool) : Option State :=
  match σ.slave with
  | .idle => none
  | .mark => some { σ with goMaster := 1, slave := .call }
  | .call => some (if ok then { σ with ipi := true, slave := .ready } else { σ with slave := .idle })
  | .ready =>
      some (if σ.goMaster = 0 then
        { σ with slave := .start, iter := 0, best := Best.start, rounds := [] } else σ)
  | .start => some { σ with t0 := readtsc P σ σ.cpu, s0 := σ.time, slave := .ask }
  | .ask => some { σ with goMaster := 1, slave := .lock }
  | .lock =>
      if σ.tsclock = none then some { σ with tsclock := some .slave, slave := .load } else none
  | .load => some { σ with slave := .load2 h (σ.goSlave.get h) }
  | .load2 h x => some { σ with tm := Word.join h x (σ.goSlave.get h.other), slave := .test }
  | .test => some { σ with slave := if σ.tm = 0 then .retry else .unlock }
  | .retry => some { σ with tsclock := none, slave := .lock }
  | .unlock => some { σ with tsclock := none, slave := .clear }
  | .clear => some { σ with goSlave := σ.goSlave.put 0 h, slave := .clear2 h }
  | .clear2 h => some { σ with goSlave := σ.goSlave.put 0 h.other, slave := .stop }
  | .stop =>
      let t1 := readtsc P σ σ.cpu
      some { σ with
        best := σ.best.update σ.t0 σ.tm t1
        rounds := σ.rounds ++ [⟨σ.s0, σ.sm, σ.time, σ.t0, σ.tm, t1⟩]
        iter := σ.iter + 1
        slave := if σ.iter + 1 < NUM_ITERS then .start else .finish }
  | .finish => some (finish σ)

/-- One step. -/
def step (P : Params) (σ : State) : Label → Option State
  | .sync k tune =>
      match σ.slave with
      | .idle =>
          if k = MASTER_CPU then none else some { σ with cpu := k, tune := tune, slave := .mark }
      | _ => none
  | .master d h => masterStep P { σ with time := σ.time + d } h
  | .slave d h ok => slaveStep P { σ with time := σ.time + d } h ok

/-- The state after `init_module`: all static data is zero. -/
def initState : State :=
  { time := 0, tune := false, ofst := fun _ => 0, cpu := 0, goMaster := 0, goSlave := ⟨0, 0⟩
    tsclock := none, ipi := false, master := .idle, masterIter := 0, slave := .idle, iter := 0
    t0 := 0, tm := 0, best := Best.start, s0 := 0, sm := 0, rounds := [], measured := [] }

/-- The two CPUs of a session as a transition system. -/
def machine (P : Params) : TSys State Label where
  init σ := σ = initState
  next := step P

end RtaiDemos.Tscsync
