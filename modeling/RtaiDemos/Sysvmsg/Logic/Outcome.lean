import RtaiDemos.Sysvmsg.Logic.Boxes
import RtaiDemos.Sysvmsg.Logic.Calls

/-!
# What a step comes to

Where a task stands decides which call it is in and whether the call has come
to its operation (`Task.Within`). A step of the task then does one of four
things: nothing to the boxes, its own operation, its own send together with the
receive of a sleeping task, or a removal together with what the receivers that
sleep on the queue are told (`Outcome`). Each is answered by events of the atomic
system (`Outcome.answer`).
-/

namespace RtaiDemos.Sysvmsg

/-! ## Calls in progress -/

/-- The call that a receiver with these arguments is in. -/
def Call.Receives (P : Params) (c : Call) (a : RcvArgs) : Prop :=
  ∃ msqid msgtyp, c = .msgrcv msqid a.msgsz msgtyp a.msgflg a.space ∧ (a.msqid : Int) = msqid ∧
    convert_mode P.longBits msgtyp a.msgflg = (a.mode, a.msgtyp)

/-- A message that the receiver does not refuse with `-E2BIG`. -/
def RcvArgs.Takes (a : RcvArgs) (m : Msg) : Prop :=
  m.m_ts ≤ a.msgsz ∨ hasFlag a.msgflg MSG_NOERROR = true

/-- The receive that gives the task this message. -/
def RcvArgs.op (a : RcvArgs) (m : Msg) : BoxOp := .recv a.msqid a.mode a.msgtyp m

/-- The waiter record of a receiver has what it asked for. -/
def RcvArgs.Asks (a : RcvArgs) (r : MsgReceiver) : Prop :=
  r.r_mode = a.mode ∧ r.r_msgtype = a.msgtyp ∧
    r.r_maxsize = if hasFlag a.msgflg MSG_NOERROR then INT_MAX else a.msgsz

/-- What a receiver that waits has been told, and what its call has come to by that. -/
def RcvArgs.Told (a : RcvArgs) : RMsg → Option BoxOp → Prop
  | .msg m, o => o = some (a.op m)
  | .err e, o => e = .EIDRM ∧ o = some (.meet (.gone a.msqid)) ∨ (e = .EAGAIN ∨ e = .E2BIG) ∧ o = none

/-- The call that a task under `ids->sem` with these arguments is in. -/
def Call.Controls (c : Call) (a : CtlArgs) : Prop :=
  ∃ msqid buf space, c = .msgctl msqid a.cmd buf space ∧ (a.msqid : Int) = msqid ∧
    (a.cmd = .ipcSet ∨ a.cmd = .ipcRmid)

/-- A task that has found the key it looked for. -/
def Call.Found (B : Boxes) (c : Call) (id : Nat) (msgflg : BitVec 32) : Prop :=
  ∃ key, c = .msgget key msgflg ∧ key ≠ IPC_PRIVATE ∧
    (hasFlag msgflg IPC_CREAT && hasFlag msgflg IPC_EXCL) = false ∧
    ∃ i b, B i = some b ∧ b.key = key ∧ i % SEQ_MULTIPLIER = id

/-- The task is inside the call, which has come to the operation or has not yet. -/
def Task.Within (P : Params) (B : Boxes) (k : Task) (c : Call) (o : Option BoxOp) : Prop :=
  match k.pc with
  | .idle _ => False
  | .sndLock a m | .sndSleep a m | .sndRelock a m => c.does P (.send a.msqid m) ∧ o = none
  | .sndFree err _ => c.fits P o (.err err)
  | .rcvLock a => c.Receives P a ∧ o = none
  | .rcvSleep a _ | .rcvRelock a _ | .rcvNull a =>
      c.Receives P a ∧ a.Asks k.msr_d ∧ a.Told k.msr_d.r_msg o
  | .rcvCopy a m => c.Receives P a ∧ o = some (a.op m)
  | .ctlDown a | .ctlLock a => c.Controls a ∧ o = none
  | .ctlFree _ _ => c.fits P o (.ok 0)
  | .statLock msqid cmd space =>
      (∃ i buf, c = .msgctl i cmd buf space ∧ (msqid : Int) = i) ∧
        (cmd = .ipcStat ∨ cmd = .msgStat ∧ msqid < SEQ_MULTIPLIER) ∧ o = none
  | .infoDown cmd space | .infoRead cmd space =>
      (∃ i buf, c = .msgctl i cmd buf space) ∧ (cmd = .ipcInfo ∨ cmd = .msgInfo) ∧ o = none
  | .getDown key msgflg | .getFind key msgflg => c = .msgget key msgflg ∧ o = none
  | .getNew key msgflg | .getGrow key msgflg | .getAdd key msgflg _ =>
      c = .msgget key msgflg ∧ (key = IPC_PRIVATE ∨ hasFlag msgflg IPC_CREAT = true) ∧ o = none
  | .getLock id msgflg => c.Found B id msgflg ∧ o = none
  | .semUp r => c.fits P o r

/-- A task and its place in the atomic system. -/
def Task.At (P : Params) (B : Boxes) (k : Task) : Option (Call × Option BoxOp) → Prop
  | none => ∃ r, k.pc = .idle r
  | some (c, o) => k.Within P B c o

/-- What a step does to a task that neither moves nor comes to an operation: nothing,
or a receiver that waits is told to look again or that it is too small. -/
def Task.Alike (k k' : Task) : Prop :=
  k'.pc = k.pc ∧ (k'.msr_d = k.msr_d ∨
    ∃ e, k.msr_d.r_msg = .err .EAGAIN ∧ (e = .EAGAIN ∨ e = .E2BIG) ∧
      k'.msr_d = { k.msr_d with r_msg := .err e })

theorem Task.Alike.of_eq {k k' : Task} (h : k' = k) : k.Alike k' := by
  rw [h]
  exact ⟨rfl, .inl rfl⟩

/-- A receiver that is linked on a queue has been told nothing. -/
theorem Task.rcvLinked_again {k : Task} {a : RcvArgs} {q : QId} (h : k.rcvLinked = some (a, q)) :
    k.msr_d.r_msg = .err .EAGAIN ∧ k.pc.rcvWaiting = some (a, q) := by
  unfold Task.rcvLinked at h
  split at h
  · exact ⟨by assumption, h⟩
  · cases h

theorem Task.Alike.told {k : Task} {a : RcvArgs} {q : QId} (h : k.rcvLinked = some (a, q))
    {e : Errno} (he : e = .EAGAIN ∨ e = .E2BIG) : k.Alike (k.notified (.err e)) :=
  ⟨rfl, .inr ⟨e, (Task.rcvLinked_again h).1, he, rfl⟩⟩

theorem Task.Alike.roused (k : Task) (kill : Bool) : k.Alike (k.roused kill) := ⟨rfl, .inl rfl⟩

theorem Task.At.alike {P : Params} {B B' : Boxes} {k k' : Task} {p : Option (Call × Option BoxOp)}
    (h : k.At P B p) (ha : k.Alike k')
    (hkeys : B.KeepsKeys B' ∨ k.pc.holdsSem = false) : k'.At P B' p := by
  obtain ⟨hpc, hmsr⟩ := ha
  cases p with
  | none =>
      obtain ⟨r, hr⟩ := h
      exact ⟨r, by rw [hpc]; exact hr⟩
  | some co =>
      obtain ⟨c, o⟩ := co
      have hwait : ∀ a : RcvArgs, c.Receives P a ∧ a.Asks k.msr_d ∧ a.Told k.msr_d.r_msg o →
          c.Receives P a ∧ a.Asks k'.msr_d ∧ a.Told k'.msr_d.r_msg o := by
        intro a ⟨hc, hasks, ho⟩
        rcases hmsr with heq | ⟨e, hagain, he, heq⟩
        · rw [heq]
          exact ⟨hc, hasks, ho⟩
        · rw [heq]
          rw [hagain] at ho
          rcases ho with ⟨hno, -⟩ | ⟨-, ho⟩
          · cases hno
          · exact ⟨hc, hasks, .inr ⟨he, ho⟩⟩
      unfold Task.At Task.Within at h ⊢
      simp only [hpc]
      cases hk : k.pc with
      | rcvSleep a q => rw [hk] at h; exact hwait a h
      | rcvRelock a q => rw [hk] at h; exact hwait a h
      | rcvNull a => rw [hk] at h; exact hwait a h
      | getLock id msgflg =>
          rw [hk] at h hkeys
          obtain ⟨⟨key, hc, hne, hflg, i, b, hb, hkey, hi⟩, ho⟩ := h
          rcases hkeys with hkeys | hsem
          · obtain ⟨b', hb', hk'⟩ := hkeys i b hb
            exact ⟨⟨key, hc, hne, hflg, i, b', hb', by rw [hk', hkey], hi⟩, ho⟩
          · cases hsem
      | _ => rw [hk] at h; exact h

/-! ## Outcomes -/

/-- The task is still inside the call, or has returned from it as it may. -/
def Ends (P : Params) (σ : State) (t : Tid) (c : Call) (o : Option BoxOp) : Prop :=
  (σ.tasks t).Within P σ.boxes c o ∨ ∃ r, (σ.tasks t).pc = .idle (some r) ∧ c.fits P o r

/-- What a step of task `t` comes to. -/
inductive Outcome (P : Params) (t : Tid) (c : Call) (o : Option BoxOp) (σ σ' : State) : Prop
  /-- The boxes stay. -/
  | silent (boxes : σ'.boxes = σ.boxes)
      (others : ∀ v, v ≠ t → (σ.tasks v).Alike (σ'.tasks v)) (ends : Ends P σ' t c o)
  /-- The call takes effect. -/
  | acts (x : BoxOp) (before : o = none) (does : c.does P x)
      (next : σ.boxes.next x = some σ'.boxes)
      (keys : σ.boxes.KeepsKeys σ'.boxes ∨ (σ.tasks t).pc.holdsSem = true)
      (others : ∀ v, v ≠ t → (σ.tasks v).Alike (σ'.tasks v)) (ends : Ends P σ' t c (some x))
  /-- A send takes effect, and the receive of a task that waits for it. -/
  | hands (u : Tid) (a : RcvArgs) (q : QId) (m : Msg) (b : MsgBox) (before : o = none)
      (does : c.does P (.send a.msqid m)) (boxes : σ'.boxes = σ.boxes)
      (box : σ.boxes a.msqid = some b)
      (refused : ∀ x ∈ b.messages, (σ.tasks u).msr_d.accepts x = false)
      (accepts : (σ.tasks u).msr_d.accepts m = true) (fits : m.m_ts ≤ (σ.tasks u).msr_d.r_maxsize)
      (other : u ≠ t) (linked : (σ.tasks u).rcvLinked = some (a, q))
      (told : σ'.tasks u = (σ.tasks u).notified (.msg m))
      (others : ∀ v, v ≠ t → v ≠ u → (σ.tasks v).Alike (σ'.tasks v))
      (ends : Ends P σ' t c (some (.send a.msqid m)))
  /-- A removal takes effect, and the receivers that wait on the queue learn of it. -/
  | removes (id : Nat) (l : List Tid) (before : o = none) (does : c.does P (.remove id))
      (next : σ.boxes.next (.remove id) = some σ'.boxes)
      (holds : (σ.tasks t).pc.holdsSem = true) (nodup : l.Nodup) (notin : t ∉ l)
      (linked : ∀ u ∈ l, ∃ a q, (σ.tasks u).rcvLinked = some (a, q) ∧ a.msqid = id)
      (told : ∀ u ∈ l, (σ'.tasks u).pc = (σ.tasks u).pc ∧
        (σ'.tasks u).msr_d = { (σ.tasks u).msr_d with r_msg := .err .EIDRM })
      (others : ∀ v, v ≠ t → v ∉ l → (σ.tasks v).Alike (σ'.tasks v))
      (ends : Ends P σ' t c (some (.remove id)))

/-- The return, if there is one. -/
theorem Ends.answer {P : Params} {σ : State} {t : Tid} {c : Call} {o : Option BoxOp}
    {at_ : Tid → Option (Call × Option BoxOp)} (h : Ends P σ t c o) (ht : at_ t = some (c, o))
    (hothers : ∀ v, v ≠ t → (σ.tasks v).At P σ.boxes (at_ v)) :
    ∃ es at', ((service P).atomic Tid).run (σ.boxes, at_) es = some (σ.boxes, at') ∧
      es.filter Event.shown = returned σ t ∧ ∀ v, (σ.tasks v).At P σ.boxes (at' v) := by
  rcases h with hin | ⟨r, hpc, hfits⟩
  · refine ⟨[], at_, rfl, ?_, ?_⟩
    · unfold returned
      unfold Task.Within at hin
      cases hk : (σ.tasks t).pc with
      | idle r => rw [hk] at hin; exact absurd hin id
      | _ => rfl
    · intro v
      by_cases hv : v = t
      · rw [hv, ht]
        exact hin
      · exact hothers v hv
  · refine ⟨[.res t r], Function.update at_ t none, ?_, ?_, ?_⟩
    · rw [TSys.run, Service.atomic_res ht hfits]
      rfl
    · unfold returned
      rw [hpc]
      rfl
    · intro v
      by_cases hv : v = t
      · subst hv
        rw [Function.update_self]
        exact ⟨_, hpc⟩
      · rw [Function.update_of_ne hv]
        exact hothers v hv

/-- The call of a receiver that is linked on a queue has not come to its operation yet;
what it is told next decides what it comes to. -/
theorem Task.At.linked {P : Params} {B : Boxes} {k : Task} {a : RcvArgs} {q : QId}
    {p : Option (Call × Option BoxOp)} (h : k.At P B p) (hlinked : k.rcvLinked = some (a, q)) :
    ∃ c, p = some (c, none) ∧ c.Receives P a ∧ a.Asks k.msr_d ∧
      ∀ (B' : Boxes) (k' : Task) (o : Option BoxOp), k'.pc = k.pc → a.Asks k'.msr_d →
        a.Told k'.msr_d.r_msg o → k'.At P B' (some (c, o)) := by
  obtain ⟨hr, hpc⟩ := Task.rcvLinked_again hlinked
  have hwait : ∀ c o, p = some (c, o) → c.Receives P a ∧ a.Asks k.msr_d ∧ a.Told k.msr_d.r_msg o →
      p = some (c, none) := by
    rintro c o hp ⟨-, -, ho⟩
    rw [hr] at ho
    rcases ho with ⟨hno, -⟩ | ⟨-, rfl⟩
    · cases hno
    · exact hp
  cases p with
  | none =>
      obtain ⟨r, hidle⟩ := h
      rw [hidle] at hpc
      cases hpc
  | some co =>
      obtain ⟨c, o⟩ := co
      unfold Task.At Task.Within at h
      cases hk : k.pc with
      | rcvSleep a' q' =>
          rw [hk] at h hpc
          cases hpc
          refine ⟨c, hwait c o rfl h, h.1, h.2.1, ?_⟩
          intro B' k' o' hpc' hasks htold
          simp only [Task.At, Task.Within, hpc']
          exact ⟨h.1, hasks, htold⟩
      | rcvRelock a' q' =>
          rw [hk] at h hpc
          cases hpc
          refine ⟨c, hwait c o rfl h, h.1, h.2.1, ?_⟩
          intro B' k' o' hpc' hasks htold
          simp only [Task.At, Task.Within, hpc']
          exact ⟨h.1, hasks, htold⟩
      | _ =>
          rw [hk] at hpc
          cases hpc

theorem Call.Receives.does {P : Params} {c : Call} {a : RcvArgs} {m : Msg} (h : c.Receives P a)
    (hm : a.Takes m) : c.does P (a.op m) := by
  obtain ⟨msqid, msgtyp, rfl, hid, hconv⟩ := h
  exact ⟨hid, hconv, hm⟩

theorem Call.Receives.gone {P : Params} {c : Call} {a : RcvArgs} (h : c.Receives P a) :
    c.does P (.meet (.gone a.msqid)) := by
  obtain ⟨msqid, msgtyp, rfl, hid, -⟩ := h
  exact hid

/-- A message that `pipelined_send` finds small enough for the receiver. -/
theorem RcvArgs.Asks.takes {a : RcvArgs} {r : MsgReceiver} (h : a.Asks r) {m : Msg}
    (hm : m.m_ts ≤ r.r_maxsize) : a.Takes m := by
  by_cases hno : hasFlag a.msgflg MSG_NOERROR = true
  · exact .inr hno
  · have hmax := h.2.2
    rw [if_neg hno] at hmax
    exact .inl (by rw [← hmax]; exact hm)

/-- Every outcome is answered by the atomic system. -/
theorem Outcome.answer {P : Params} {t : Tid} {c : Call} {o : Option BoxOp} {σ σ' : State}
    {at_ : Tid → Option (Call × Option BoxOp)} (h : Outcome P t c o σ σ')
    (hsem : ∀ v, v ≠ t → (σ.tasks t).pc.holdsSem = true → (σ.tasks v).pc.holdsSem = false)
    (ht : at_ t = some (c, o)) (hothers : ∀ v, v ≠ t → (σ.tasks v).At P σ.boxes (at_ v)) :
    ∃ es at', ((service P).atomic Tid).run (σ.boxes, at_) es = some (σ'.boxes, at') ∧
      es.filter Event.shown = returned σ' t ∧ ∀ v, (σ'.tasks v).At P σ'.boxes (at' v) := by
  cases h with
  | silent boxes others ends =>
      rw [← boxes]
      refine ends.answer ht ?_
      intro v hv
      exact (hothers v hv).alike (others v hv) (.inl (by rw [boxes]; exact .refl _))
  | acts x before does next keys others ends =>
      subst before
      have hop := Service.atomic_op (V := service P) ht does next
      have hafter : ∀ v, v ≠ t →
          (σ'.tasks v).At P σ'.boxes (Function.update at_ t (some (c, some x)) v) := by
        intro v hv
        rw [Function.update_of_ne hv]
        refine (hothers v hv).alike (others v hv) ?_
        rcases keys with hkeys | hholds
        · exact .inl hkeys
        · exact .inr (hsem v hv hholds)
      obtain ⟨es, at', hrun, hshown, hat⟩ := ends.answer (Function.update_self ..) hafter
      refine ⟨.op t x :: es, at', ?_, hshown, hat⟩
      rw [TSys.run, hop]
      exact hrun
  | hands u a q m b before does boxes box refused accepts fits other linked told others ends =>
      subst before
      obtain ⟨cu, hpu, hrcv, hasks, hafter⟩ := (hothers u other).linked linked
      have hdoes := hrcv.does (hasks.takes fits)
      have hin := hafter σ.boxes ((σ.tasks u).notified (.msg m)) (some (a.op m)) rfl hasks rfl
      unfold MsgReceiver.accepts at refused accepts
      rw [hasks.1, hasks.2.1] at refused accepts
      obtain ⟨B', hsend, hrecv⟩ := Boxes.next_send_recv box refused accepts
      have hop := Service.atomic_op (V := service P) ht does hsend
      let mid := Function.update at_ t (some (c, some (.send a.msqid m)))
      have hmid : mid u = some (cu, none) := by
        rw [← hpu]
        exact Function.update_of_ne other _ _
      have hop' := Service.atomic_op (V := service P) hmid hdoes hrecv
      let last := Function.update mid u (some (cu, some (a.op m)))
      have hlast : last t = some (c, some (.send a.msqid m)) :=
        (Function.update_of_ne (Ne.symm other) _ _).trans (Function.update_self ..)
      have hafter : ∀ v, v ≠ t → (σ'.tasks v).At P σ'.boxes (last v) := by
        intro v hv
        by_cases hvu : v = u
        · subst hvu
          have hnew : last v = some (cu, some (a.op m)) := Function.update_self ..
          rw [told, boxes, hnew]
          exact hin
        · have hsame : last v = at_ v :=
            (Function.update_of_ne hvu _ _).trans (Function.update_of_ne hv _ _)
          rw [hsame]
          exact (hothers v hv).alike (others v hv hvu) (.inl (by rw [boxes]; exact .refl _))
      obtain ⟨es, at', hrun, hshown, hat⟩ := ends.answer hlast hafter
      refine ⟨.op t (.send a.msqid m) :: .op u (a.op m) :: es, at', ?_, hshown, hat⟩
      rw [TSys.run, hop, Option.bind_some, TSys.run, hop', Option.bind_some, ← boxes]
      exact hrun
  | removes id l before does next holds nodup notin linked told others ends =>
      subst before
      have hop := Service.atomic_op (V := service P) ht does next
      have hgone : σ'.boxes.Has (.gone id) := by
        obtain ⟨b, -, hb⟩ := Option.map_eq_some_iff.mp next
        rw [← hb]
        exact Function.update_self ..
      let mid := Function.update at_ t (some (c, some (.remove id)))
      have hmid : ∀ v, v ≠ t → mid v = at_ v := fun v hv => Function.update_of_ne hv ..
      have hne : ∀ u ∈ l, u ≠ t := fun u hu h => notin (h ▸ hu)
      have hready : ∀ u ∈ l, ∃ cu, mid u = some (cu, none) ∧
          (service P).does cu (.meet (.gone id)) := by
        intro u hu
        obtain ⟨a, q, hlinked, rfl⟩ := linked u hu
        obtain ⟨cu, hpu, hrcv, -⟩ := (hothers u (hne u hu)).linked hlinked
        exact ⟨cu, by rw [hmid u (hne u hu), hpu], hrcv.gone⟩
      have hlook : (service P).object.next σ'.boxes (.meet (.gone id)) = some σ'.boxes :=
        Boxes.next_meet hgone
      obtain ⟨last, hrun, hin, hout⟩ := Service.atomic_ops nodup hlook hready
      have hlast : last t = some (c, some (.remove id)) :=
        (hout t notin).trans (Function.update_self ..)
      have hafter : ∀ v, v ≠ t → (σ'.tasks v).At P σ'.boxes (last v) := by
        intro v hv
        by_cases hvl : v ∈ l
        · obtain ⟨a, q, hlinked, rfl⟩ := linked v hvl
          obtain ⟨cv, hpv, -, hasks, hnext⟩ := (hothers v hv).linked hlinked
          obtain ⟨hpc, hmsr⟩ := told v hvl
          rw [hin v hvl cv (by rw [hmid v hv, hpv])]
          refine hnext _ _ _ hpc ?_ ?_
          · rw [hmsr]
            exact hasks
          · rw [hmsr]
            exact .inl ⟨rfl, rfl⟩
        · rw [hout v hvl, hmid v hv]
          exact (hothers v hv).alike (others v hv hvl) (.inr (hsem v hv holds))
      obtain ⟨es, at', hend, hshown, hat⟩ := ends.answer hlast hafter
      refine ⟨.op t (.remove id) :: (l.map fun u => .op u (.meet (.gone id))) ++ es, at', ?_, ?_,
        hat⟩
      · rw [List.cons_append, TSys.run, hop, Option.bind_some, TSys.run_append, hrun]
        exact hend
      · have hnone : (l.map fun u => (Event.op u (.meet (.gone id)) :
            Event Tid Call BoxOp Ret)).filter Event.shown = [] := by
          rw [List.filter_eq_nil_iff]
          intro ev hev
          obtain ⟨u, -, rfl⟩ := List.mem_map.mp hev
          simp [Event.shown]
        rw [List.cons_append, List.filter_cons_of_neg (by simp [Event.shown]),
          List.filter_append, hnone, List.nil_append]
        exact hshown

end RtaiDemos.Sysvmsg
