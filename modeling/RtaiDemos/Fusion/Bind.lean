import Mathlib.Logic.Function.Basic
import RtaiDemos.Core.TSys

/-!
# Binding to a name

`rt_obj_bind` and `rt_release_waiters` of `lxrt.h`, with the two creators that
call the latter in their own way, `rt_queue_create` and `rt_task_create` with its
`support_task`. A step is one request to the scheduler. The registry maps ids to
handles; a `NAMED_.._INIT` may fail, register a new object, or give the object of
the same kind that is registered. `w` is the width of `unsigned long`.
-/

namespace RtaiDemos.Fusion

variable {w : Nat}

/-- The value of a character in `nam2id`. -/
def nameDigit (c : Nat) : Nat :=
  if 97 ≤ c ∧ c ≤ 122 then c + 11 - 97
  else if 65 ≤ c ∧ c ≤ 90 then c + 11 - 65
  else if 48 ≤ c ∧ c ≤ 57 then c + 1 - 48
  else if c = 95 then 37 else 38

/-- `nam2id`, for the characters before the terminating zero. -/
def nam2id (w : Nat) (name : List UInt8) : BitVec w :=
  if name = [] then 0xFFFFFFFF#w
  else
    (name.take 6).foldl (fun retval c => retval * 39#w + BitVec.ofNat w (nameDigit c.toNat)) 0#w +
      2#w

/-- What a handle stands for. -/
inductive Obj
  | sem (count : Nat)
  | msgq
  | task
  deriving DecidableEq, Repr

/-- The two are of one kind. -/
def Obj.alike : Obj → Obj → Bool
  | .sem _, .sem _ | .msgq, .msgq | .task, .task => true
  | _, _ => false

/-- Where a task in `rt_obj_bind` stands. -/
inductive BinderPc
  -- `rt_get_handle(id)`, `rt_get_handle(~id)`, `NAMED_SEM_INIT`
  | getHandle
  | getSem
  | semInit
  -- `SEM_WAIT`: before the call, blocked in it
  | semWait (sem : Nat)
  | blocked (sem : Nat)
  -- the second `rt_get_handle(id)`
  | getAgain
  -- `return 0` with `obj->adr`, `return -EFAULT`
  | returned (adr : Option Nat)
  | failed
  deriving DecidableEq, Repr

/-- What is created. -/
inductive Creation
  | queue
  | task
  deriving DecidableEq, Repr

/-- Where the creator stands. -/
inductive CreatorPc
  | start
  -- `rt_get_handle(task->id)`, `NAMED_MSGQ_INIT` or `rt_task_ext`
  | getHandle
  | init
  -- `rt_task_resume(task->arg)`, `rt_task_suspend(task)`
  | resume
  | suspend
  | suspended
  -- `rt_release_waiters`: the lookup, the broadcast
  | release
  | broadcast (sem : Nat)
  -- after it; the thread or the queue was not created
  | released
  | failed
  deriving DecidableEq, Repr

/-- The registry and the objects, the binders and the creator. `handle` is
`q->msgq` or `task->task`; `created` is the object that the creator has made. -/
structure State (w : Nat) where
  registry : BitVec w → Option Nat
  objects : Nat → Option Obj
  fresh : Nat
  binders : Nat → BinderPc
  creator : CreatorPc
  handle : Option Nat
  created : Option Nat

/-- How a `NAMED_.._INIT` ends. -/
inductive Outcome
  | fail
  | new
  | shared
  deriving DecidableEq, Repr

/-- Registers a new object. -/
def State.register (σ : State w) (key : BitVec w) (obj : Obj) : State w :=
  { σ with
    registry := Function.update σ.registry key (some σ.fresh)
    objects := Function.update σ.objects σ.fresh (some obj)
    fresh := σ.fresh + 1 }

/-- `NAMED_.._INIT`: the handle it returns and the state after it. -/
def State.namedInit (σ : State w) (key : BitVec w) (obj : Obj) :
    Outcome → Option (Option Nat × State w)
  | .fail => some (none, σ)
  | .new => some (some σ.fresh, σ.register key obj)
  | .shared =>
    match σ.registry key with
    | some h => if (σ.objects h).any obj.alike then some (some h, σ) else none
    | none => none

/-- The next statement of a binder. -/
def State.setBinder (σ : State w) (i : Nat) (pc : BinderPc) : State w :=
  { σ with binders := Function.update σ.binders i pc }

/-- `rt_obj_bind`, the next statement of task `i`. -/
def rt_obj_bind (id : BitVec w) (σ : State w) (i : Nat) (outcome : Outcome) : Option (State w) :=
  match σ.binders i with
  | .getHandle =>
    match σ.registry id with
    | some h => some (σ.setBinder i (.returned (some h)))
    | none => some (σ.setBinder i .getSem)
  | .getSem =>
    match σ.registry (~~~id) with
    | some sem => some (σ.setBinder i (.semWait sem))
    | none => some (σ.setBinder i .semInit)
  | .semInit =>
    match σ.namedInit id (.sem 0) outcome with
    | some (some sem, σ') => some (σ'.setBinder i (.semWait sem))
    | some (none, σ') => some (σ'.setBinder i .failed)
    | none => none
  | .semWait sem =>
    match σ.objects sem with
    | some (.sem (count + 1)) =>
      some ({ σ with objects := Function.update σ.objects sem (some (.sem count)) }.setBinder i
        .getAgain)
    | some (.sem 0) => some (σ.setBinder i (.blocked sem))
    | _ => some (σ.setBinder i .failed)
  | .getAgain => some (σ.setBinder i (.returned (σ.registry id)))
  | .blocked _ | .returned _ | .failed => none

/-- `SEM_WAIT` returns an error to a blocked task. -/
def unblock (σ : State w) (i : Nat) : Option (State w) :=
  match σ.binders i with
  | .blocked _ => some (σ.setBinder i .failed)
  | _ => none

/-- `SEM_BROADCAST`, of no effect on what is not a semaphore. -/
def State.semBroadcast (σ : State w) (sem : Nat) : State w :=
  match σ.objects sem with
  | some (.sem _) =>
    { σ with
      objects := Function.update σ.objects sem (some (.sem 0))
      binders := fun i => if σ.binders i = .blocked sem then .getAgain else σ.binders i }
  | _ => σ

/-- `rt_release_waiters(id)`: the handle that it broadcasts. -/
def rt_release_waiters (σ : State w) (id : BitVec w) : Option Nat := σ.registry (~~~id)

/-- What the creator passes to `rt_release_waiters`. -/
def Creation.releases (id : BitVec w) : Creation → BitVec w
  | .queue => id
  | .task => ~~~id

/-- What the creator makes. -/
def Creation.obj : Creation → Obj
  | .queue => .msgq
  | .task => .task

/-- Where the creator goes with or without a handle: `support_task` goes on in
both cases, `rt_queue_create` returns `-ENOMEM`. -/
def Creation.made (handle : Option Nat) : Creation → CreatorPc
  | .queue => if handle.isSome then .release else .failed
  | .task => .resume

/-- `rt_task_suspend(task)`, of no effect on what is not a task. -/
def State.suspends (σ : State w) : Bool :=
  match σ.handle with
  | some h => σ.objects h == some .task
  | none => false

/-- `rt_queue_create`, or `rt_task_create` and then `support_task`: the next statement. -/
def create (id : BitVec w) (kind : Creation) (σ : State w) (outcome : Outcome) : Option (State w) :=
  match σ.creator with
  | .start =>
    match kind with
    | .queue => some { σ with creator := .init }
    | .task => some { σ with creator := if outcome = .fail then .failed else .getHandle }
  | .getHandle =>
    match σ.registry id with
    | some h => some { σ with handle := some h, creator := .resume }
    | none => some { σ with creator := .init }
  | .init =>
    match σ.namedInit id kind.obj outcome with
    | some (handle, σ') =>
      some { σ' with handle := handle, created := handle, creator := kind.made handle }
    | none => none
  | .resume => some { σ with creator := .suspend }
  | .suspend => some { σ with creator := if σ.suspends then .suspended else .release }
  | .suspended => none
  | .release =>
    match rt_release_waiters σ (kind.releases id) with
    | some sem => some { σ with creator := .broadcast sem }
    | none => some { σ with creator := .released }
  | .broadcast sem => some { σ.semBroadcast sem with creator := .released }
  | .released | .failed => none

/-- `rt_task_start`, which resumes the task. -/
def rt_task_start (σ : State w) : Option (State w) :=
  match σ.creator with
  | .suspended => some { σ with creator := .release }
  | _ => none

/-- Who goes on. `other` is the rest of the system, which registers or frees
another id. -/
inductive Label (w : Nat)
  | bind (i : Nat) (outcome : Outcome)
  | unblock (i : Nat)
  | create (outcome : Outcome)
  | start
  | other (key : BitVec w) (obj : Option Obj)
  deriving DecidableEq

/-- The rest of the system does not touch the name. -/
def other (id : BitVec w) (σ : State w) (key : BitVec w) : Option Obj → Option (State w)
  | some obj => if key = id ∨ key = ~~~id then none else some (σ.register key obj)
  | none =>
    if key = id ∨ key = ~~~id then none
    else some { σ with registry := Function.update σ.registry key none }

/-- One step. -/
def step (id : BitVec w) (kind : Creation) (σ : State w) : Label w → Option (State w)
  | .bind i outcome => rt_obj_bind id σ i outcome
  | .unblock i => unblock σ i
  | .create outcome => create id kind σ outcome
  | .start => rt_task_start σ
  | .other key obj => other id σ key obj

/-- All the binders and the creator at their starts. -/
def initState (registry : BitVec w → Option Nat) (objects : Nat → Option Obj) (fresh : Nat) :
    State w :=
  { registry := registry
    objects := objects
    fresh := fresh
    binders := fun _ => .getHandle
    creator := .start
    handle := none
    created := none }

/-- The tasks that bind to a name and its creator, from a registry that does not
have the name. -/
def machine (w : Nat) (name : List UInt8) (kind : Creation) : TSys (State w) (Label w) where
  init σ := ∃ registry objects fresh, registry (nam2id w name) = none ∧
    registry (~~~nam2id w name) = none ∧ σ = initState registry objects fresh
  next := step (nam2id w name) kind

end RtaiDemos.Fusion
