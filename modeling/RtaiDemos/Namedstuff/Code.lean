import RtaiDemos.Core.Threads

/-!
# The test of the named objects (`namedstuff.c`)

The `NUM_TASKS` tasks of `task_code` and the task of `start_task_code`, point by
point. The loops over the tasks run over `Fin n`; a mailbox of `NUM_TASKS*8` bytes
has room for `n` of the eight byte strings. The semaphores count, the mailboxes are
first in first out, and no mailbox call fails: the branches of both codes on an error of
`rt_mbx_receive` or `rt_mbx_send` are left out, as are the module's own start and end.
-/

namespace RtaiDemos.Namedstuff

/-- `sems[i]`, `sync_sem`, `prio_sem`, `print_sem`. -/
inductive Sem (n : Nat)
  | sems (i : Fin n)
  | sync_sem
  | prio_sem
  | print_sem
  deriving DecidableEq

inductive Mbx
  | mbx_in
  | mbx_out
  deriving DecidableEq

/-- A call of either code. -/
abbrev Call (n : Nat) := Stmt (Sem n) Mbx String String

/-! ## `TAKE_PRINT; rt_printk(..); GIVE_PRINT` -/

inductive PrintPc
  | take
  | text
  | give
  deriving DecidableEq

namespace PrintPc

@[simp] def stmt {n : Nat} (p : PrintPc) (line : Option String → String) : Call n :=
  match p with
  | .take => .wait .print_sem
  | .text => .print line
  | .give => .signal .print_sem

/-- The next point of a print, or what comes after it. -/
@[simp] def andThen {Pc : Type} (p : PrintPc) (here : PrintPc → Pc) (after : Pc) : Pc :=
  match p with
  | .take => here .text
  | .text => here .give
  | .give => after

end PrintPc

/-! ## `task_code` -/

/-- The points of `task_code`: each of the five rounds of the ring, the priority test,
the message test. -/
inductive TaskPc
  | ringWait (r : Fin 5)
  | ringName (r : Fin 5) (p : PrintPc)
  | ringLine (r : Fin 5) (p : PrintPc)
  | ringPass (r : Fin 5)
  | sync1
  | prio
  | name (p : PrintPc)
  | sleep
  | prioTimed
  | semTimeout (p : PrintPc)
  | sync2
  | receive
  | received (p : PrintPc)
  | send
  | sync3
  | receiveTimed
  | mbxTimeout (p : PrintPc)
  | complete (p : PrintPc)
  | suspended
  deriving DecidableEq

section Task

variable {n : Nat} [NeZero n] (strs : Nat → String) (task_no : Fin n)

def TaskPc.stmt : TaskPc → Option (Call n)
  | .ringWait _ => some (.wait (.sems task_no))
  | .ringName _ p => some (p.stmt fun _ => strs task_no)
  | .ringLine _ p => some (p.stmt fun _ => "\n")
  | .ringPass _ => some (.signal (.sems (task_no + 1)))
  | .sync1 => some (.signal .sync_sem)
  | .prio => some (.wait .prio_sem)
  | .name p => some (p.stmt fun _ => strs task_no)
  | .sleep => some .pass
  | .prioTimed => some (.waitTimed .prio_sem)
  | .semTimeout p => some (p.stmt fun _ =>
      "sem timeout, task " ++ toString task_no.val ++ ", " ++ strs task_no ++ "\n")
  | .sync2 => some (.signal .sync_sem)
  | .receive => some (.receive .mbx_in)
  | .received p => some (p.stmt fun buf =>
      "\nreceived by task " ++ toString task_no.val ++ " " ++ buf.getD "")
  | .send => some (.send .mbx_out (strs task_no))
  | .sync3 => some (.wait .sync_sem)
  | .receiveTimed => some (.receiveTimed .mbx_in)
  | .mbxTimeout p => some (p.stmt fun _ =>
      "mbx timeout, task " ++ toString task_no.val ++ ", " ++ strs task_no ++ "\n")
  | .complete p => some (p.stmt fun _ => "\ntask " ++ toString task_no.val ++ " complete\n")
  | .suspended => none

/-- `rt_mbx_receive_timed` says what it has not received, so a call that was served skips
the print. -/
def TaskPc.next (served : Bool) : TaskPc → TaskPc
  | .ringWait r => .ringName r .take
  | .ringName r p =>
      p.andThen (.ringName r) (if task_no.val = n - 1 then .ringLine r .take else .ringPass r)
  | .ringLine r p => p.andThen (.ringLine r) (.ringPass r)
  | .ringPass r => if h : r.val + 1 < 5 then .ringWait ⟨r.val + 1, h⟩ else .sync1
  | .sync1 => .prio
  | .prio => .name .take
  | .name p => p.andThen .name .sleep
  | .sleep => .prioTimed
  | .prioTimed => .semTimeout .take
  | .semTimeout p => p.andThen .semTimeout .sync2
  | .sync2 => .receive
  | .receive => .received .take
  | .received p => p.andThen .received .send
  | .send => .sync3
  | .sync3 => .receiveTimed
  | .receiveTimed => if served then .complete .take else .mbxTimeout .take
  | .mbxTimeout p => p.andThen .mbxTimeout (.complete .take)
  | .complete p => p.andThen .complete .suspended
  | .suspended => .suspended

end Task

/-! ## `start_task_code` -/

/-- The points of `start_task_code`; `create` makes `sync_sem` and `prio_sem`. -/
inductive StartPc (n : Nat)
  | create
  | first
  | sync1 (i : Fin n)
  | syncLine1 (p : PrintPc)
  | prio (i : Fin n)
  | line1 (p : PrintPc)
  | sync2 (i : Fin n)
  | syncLine2 (p : PrintPc)
  | testing (p : PrintPc)
  | send (i : Fin n)
  | receive (i : Fin n)
  | received (i : Fin n) (p : PrintPc)
  | line2 (p : PrintPc)
  | sync3 (i : Fin n)
  | complete (p : PrintPc)
  | cleanup
  | suspended
  deriving DecidableEq

section Start

variable {n : Nat} [NeZero n] (strs : Nat → String)

def StartPc.stmt : StartPc n → Option (Call n)
  | .create => some .pass
  | .first => some (.signal (.sems 0))
  | .sync1 _ => some (.wait .sync_sem)
  | .syncLine1 p => some (p.stmt fun _ => "sync\n")
  | .prio _ => some (.signal .prio_sem)
  | .line1 p => some (p.stmt fun _ => "\n")
  | .sync2 _ => some (.wait .sync_sem)
  | .syncLine2 p => some (p.stmt fun _ => "sync\n")
  | .testing p => some (p.stmt fun _ => "testing message queues\n")
  | .send i => some (.send .mbx_in (strs i))
  | .receive _ => some (.receive .mbx_out)
  | .received _ p => some (p.stmt fun buf => "\nreceived from mbx_out: " ++ buf.getD "")
  | .line2 p => some (p.stmt fun _ => "\n")
  | .sync3 _ => some (.signal .sync_sem)
  | .complete p => some (p.stmt fun _ => "\ninit task complete\n")
  | .cleanup => some .pass
  | .suspended => none

/-- The end of a round of `for (i = 0; i < NUM_TASKS; ++i)`. -/
def loop (i : Fin n) (again : Fin n → StartPc n) (done : StartPc n) : StartPc n :=
  if h : i.val + 1 < n then again ⟨i.val + 1, h⟩ else done

def StartPc.next : StartPc n → StartPc n
  | .create => .first
  | .first => .sync1 0
  | .sync1 i => loop i .sync1 (.syncLine1 .take)
  | .syncLine1 p => p.andThen .syncLine1 (.prio 0)
  | .prio i => loop i .prio (.line1 .take)
  | .line1 p => p.andThen .line1 (.sync2 0)
  | .sync2 i => loop i .sync2 (.syncLine2 .take)
  | .syncLine2 p => p.andThen .syncLine2 (.testing .take)
  | .testing p => p.andThen .testing (.send 0)
  | .send i => loop i .send (.receive 0)
  | .receive i => .received i .take
  | .received i p => p.andThen (.received i) (loop i .receive (.line2 .take))
  | .line2 p => p.andThen .line2 (.sync3 0)
  | .sync3 i => loop i .sync3 (.complete .take)
  | .complete p => p.andThen .complete .cleanup
  | .cleanup => .suspended
  | .suspended => .suspended

end Start

/-! ## The program -/

/-- `none` is the task of `start_task_code`. -/
abbrev Thread (n : Nat) := Option (Fin n)

def Pc (n : Nat) : Thread n → Type
  | none => StartPc n
  | some _ => TaskPc

/-- The tasks after `init_module`. -/
def threads (n : Nat) [NeZero n] (strs : Nat → String) :
    Threads (Thread n) (Sem n) Mbx String String where
  Pc := Pc n
  start
    | none => StartPc.create
    | some _ => TaskPc.ringWait 0
  stmt
    | none, p => StartPc.stmt strs p
    | some i, p => TaskPc.stmt strs i p
  next
    | none, p, _ => StartPc.next p
    | some i, p, served => TaskPc.next i served p
  tokens
    | .print_sem => 1
    | _ => 0
  room _ := n

end RtaiDemos.Namedstuff
