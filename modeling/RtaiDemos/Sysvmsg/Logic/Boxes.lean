import RtaiDemos.Sysvmsg.Boxes
import RtaiDemos.Sysvmsg.Logic.Wf

/-!
# The boxes under the updates

What the elementary updates of a state do to its boxes: nothing, if they keep
the table and the part of each queue that `boxView` reads; otherwise they change
the one box that the identifier names.
-/

namespace RtaiDemos.Sysvmsg

/-- What `State.boxes` reads of a queue. -/
def MsgQueue.boxView (msq : MsgQueue) : Nat × MsgBox := (msq.q_perm.seq, msq.box)

theorem State.boxes_eq_some {σ : State} {id : Nat} {b : MsgBox} :
    σ.boxes id = some b ↔ ∃ q msq, σ.ids.entry (id % SEQ_MULTIPLIER) = some q ∧
      σ.queues q = some msq ∧ id / SEQ_MULTIPLIER = msq.q_perm.seq ∧ msq.box = b := by
  unfold State.boxes
  constructor
  · intro h
    obtain ⟨q, hq, h⟩ := Option.bind_eq_some_iff.mp h
    obtain ⟨msq, hmsq, h⟩ := Option.bind_eq_some_iff.mp h
    split at h
    · rename_i hseq
      exact ⟨q, msq, hq, hmsq, hseq, Option.some.inj h⟩
    · cases h
  · rintro ⟨q, msq, hq, hmsq, hseq, rfl⟩
    rw [hq, Option.bind_some, hmsq, Option.bind_some, if_pos hseq]

/-- An identifier that names a queue has its box. -/
theorem State.Names.box {σ : State} (h : TableWf σ) {id : Nat} {q : QId} {msq : MsgQueue}
    (hn : σ.Names id q) (hq : σ.queues q = some msq) : σ.boxes id = some msq.box := by
  obtain ⟨msq', hq', hseq⟩ := hn.live.perm_isSome h
  rw [hq] at hq'
  cases hq'
  exact State.boxes_eq_some.mpr ⟨q, msq, hn.1, hq, by rw [hseq]; exact hn.2, rfl⟩

/-- A queue in the table has a box, under an identifier for its slot. -/
theorem State.boxes_entry {σ : State} (h : TableWf σ) {slot : Nat} {q : QId} {msq : MsgQueue}
    (hent : σ.ids.entry slot = some q) (hq : σ.queues q = some msq) :
    ∃ id, σ.boxes id = some msq.box ∧ id % SEQ_MULTIPLIER = slot := by
  have hlt : slot < SEQ_MULTIPLIER := by
    have h₁ := IpcIds.entry_lt hent
    have h₂ := h.size_le
    have h₃ : MSGMNI < SEQ_MULTIPLIER := by decide
    omega
  have hmod : ipc_buildid slot msq.q_perm.seq % SEQ_MULTIPLIER = slot := by
    unfold ipc_buildid
    rw [Nat.mul_add_mod, Nat.mod_eq_of_lt hlt]
  have hdiv : ipc_buildid slot msq.q_perm.seq / SEQ_MULTIPLIER = msq.q_perm.seq := by
    unfold ipc_buildid
    rw [Nat.mul_add_div (by decide), Nat.div_eq_of_lt hlt, Nat.add_zero]
  exact ⟨ipc_buildid slot msq.q_perm.seq,
    State.boxes_eq_some.mpr ⟨q, msq, by rw [hmod]; exact hent, hq, hdiv, rfl⟩, hmod⟩

/-- An empty slot has no box. -/
theorem State.boxes_vacant {σ : State} {slot : Nat} (h : σ.ids.entry slot = none) :
    σ.boxes.Has (.vacant slot) := by
  intro id hid
  unfold State.boxes
  rw [hid, h]
  rfl

/-- `msg_lock` finds nothing. -/
theorem State.boxes_no_lock {σ : State} {id : Nat} (h : ipc_lock σ.ids id = none) :
    σ.boxes id = none := by
  rw [ipc_lock_eq] at h
  exact State.boxes_vacant h id rfl

/-- `msg_checkid` finds another queue in the slot. -/
theorem State.boxes_checkid {σ : State} {id : Nat} {q : QId} {msq : MsgQueue}
    (hl : ipc_lock σ.ids id = some q) (hq : σ.queues q = some msq)
    (hc : ipc_checkid msq.q_perm id = true) : σ.boxes id = none := by
  have hne : id / SEQ_MULTIPLIER ≠ msq.q_perm.seq := by simpa [ipc_checkid] using hc
  rw [ipc_lock_eq] at hl
  unfold State.boxes
  rw [hl, Option.bind_some, hq, Option.bind_some, if_neg hne]

/-- A queue has one identifier. -/
theorem State.Names.unique {σ : State} (h : TableWf σ) {id id' : Nat} {q : QId}
    (hn : σ.Names id q) (hn' : σ.Names id' q) : id = id' := by
  have hmod := h.slot_unique hn.1 hn'.1
  have hdiv := hn.2.trans hn'.2.symm
  rw [← Nat.div_add_mod id SEQ_MULTIPLIER, ← Nat.div_add_mod id' SEQ_MULTIPLIER, hmod, hdiv]

theorem State.boxes_congr {σ σ' : State} (hids : ∀ i, σ'.ids.entry i = σ.ids.entry i)
    (hq : ∀ q, (σ'.queues q).map MsgQueue.boxView = (σ.queues q).map MsgQueue.boxView) :
    σ'.boxes = σ.boxes := by
  funext id
  unfold State.boxes
  rw [hids]
  cases σ.ids.entry (id % SEQ_MULTIPLIER) with
  | none => rfl
  | some q =>
      have hview := hq q
      rw [Option.bind_some, Option.bind_some]
      cases hσ : σ.queues q with
      | none =>
          rw [hσ, Option.map_none, Option.map_eq_none_iff] at hview
          rw [hview]
      | some msq =>
          rw [hσ, Option.map_some, Option.map_eq_some_iff] at hview
          obtain ⟨msq', hσ', hv⟩ := hview
          have hseq : msq'.q_perm.seq = msq.q_perm.seq := congrArg Prod.fst hv
          have hbox : msq'.box = msq.box := congrArg Prod.snd hv
          rw [hσ', Option.bind_some, Option.bind_some, hseq, hbox]

/-- The table and what `boxView` reads of the queues are the same. -/
structure State.SameBoxes (σ σ' : State) : Prop where
  ids : ∀ i, σ'.ids.entry i = σ.ids.entry i
  queues : ∀ q, (σ'.queues q).map MsgQueue.boxView = (σ.queues q).map MsgQueue.boxView

theorem State.SameBoxes.boxes {σ σ' : State} (h : σ.SameBoxes σ') : σ'.boxes = σ.boxes :=
  State.boxes_congr h.ids h.queues

theorem State.SameBoxes.refl (σ : State) : σ.SameBoxes σ := ⟨fun _ => rfl, fun _ => rfl⟩

theorem State.SameBoxes.trans {σ₁ σ₂ σ₃ : State} (h : σ₁.SameBoxes σ₂) (h' : σ₂.SameBoxes σ₃) :
    σ₁.SameBoxes σ₃ :=
  ⟨fun i => (h'.ids i).trans (h.ids i), fun q => (h'.queues q).trans (h.queues q)⟩

theorem State.SameBoxes.modQ (σ : State) (q : QId) {f : MsgQueue → MsgQueue}
    (hf : ∀ msq, (f msq).boxView = msq.boxView) : σ.SameBoxes (σ.modQ q f) :=
  ⟨fun _ => rfl, State.modQ_view MsgQueue.boxView σ q f hf⟩

/-- The same update of the same boxes. -/
theorem State.SameBoxes.modQ_both {σ σ' : State} (h : σ.SameBoxes σ') (q : QId)
    {f : MsgQueue → MsgQueue}
    (hf : ∀ x y : MsgQueue, x.boxView = y.boxView → (f x).boxView = (f y).boxView) :
    (σ.modQ q f).SameBoxes (σ'.modQ q f) := by
  refine ⟨h.ids, ?_⟩
  intro p
  rw [State.modQ_queues, State.modQ_queues]
  split
  · have hq := h.queues q
    cases hσ : σ.queues q with
    | none =>
        rw [hσ, Option.map_none, Option.map_eq_none_iff] at hq
        rw [hq]
    | some msq =>
        rw [hσ, Option.map_some, Option.map_eq_some_iff] at hq
        obtain ⟨msq', hσ', hv⟩ := hq
        rw [hσ', Option.map_some, Option.map_some, Option.map_some, Option.map_some, hf _ _ hv]
  · exact h.queues p

theorem State.boxes_modQ_same (σ : State) (q : QId) {f : MsgQueue → MsgQueue}
    (hf : ∀ msq, (f msq).boxView = msq.boxView) : (σ.modQ q f).boxes = σ.boxes :=
  State.boxes_congr (fun _ => rfl) (State.modQ_view MsgQueue.boxView σ q f hf)

theorem State.boxes_modT (σ : State) (t : Tid) (f : Task → Task) :
    (σ.modT t f).boxes = σ.boxes := rfl

theorem State.boxes_setPc (σ : State) (t : Tid) (pc : Pc) : (σ.setPc t pc).boxes = σ.boxes := rfl

theorem State.boxes_log (σ : State) (f : History → History) : (σ.log f).boxes = σ.boxes := rfl

/-- The boxes do not depend on the tasks. -/
theorem ss_wakeup_boxes (kill : Bool) (l : List Tid) (σ : State) :
    (ss_wakeup kill l σ).boxes = σ.boxes := by
  rw [ss_wakeup_eq]
  rfl

theorem expunge_all_boxes (res : Errno) (l : List Tid) (σ : State) :
    (expunge_all res l σ).boxes = σ.boxes := by
  rw [expunge_all_eq]
  rfl

/-- An update of the queue that an identifier names. -/
theorem State.boxes_modQ {σ : State} (h : TableWf σ) {id : Nat} {q : QId} {msq : MsgQueue}
    (hn : σ.Names id q) (hq : σ.queues q = some msq) {f : MsgQueue → MsgQueue}
    (hf : (f msq).q_perm.seq = msq.q_perm.seq) :
    (σ.modQ q f).boxes = Function.update σ.boxes id (some (f msq).box) := by
  have hseq : id / SEQ_MULTIPLIER = msq.q_perm.seq := by
    obtain ⟨msq', hq', hs⟩ := hn.live.perm_isSome h
    rw [hq] at hq'
    cases hq'
    exact hn.2.trans hs.symm
  funext i
  by_cases hi : i = id
  · subst hi
    rw [Function.update_self, State.boxes_eq_some]
    exact ⟨q, f msq, hn.1, by simp [hq], by rw [hf]; exact hseq, rfl⟩
  · rw [Function.update_of_ne hi]
    unfold State.boxes
    rw [State.modQ_ids]
    cases hent : σ.ids.entry (i % SEQ_MULTIPLIER) with
    | none => rfl
    | some p =>
        rw [Option.bind_some, Option.bind_some, State.modQ_queues]
        split
        · -- the same slot with another sequence number
          rename_i hp
          subst hp
          have hne : i / SEQ_MULTIPLIER ≠ msq.q_perm.seq := by
            intro hs
            have hmod := h.slot_unique hent hn.1
            refine hi ?_
            rw [← Nat.div_add_mod i SEQ_MULTIPLIER, ← Nat.div_add_mod id SEQ_MULTIPLIER, hmod, hs,
              hseq]
          rw [hq, Option.map_some, Option.bind_some, Option.bind_some, hf, if_neg hne, if_neg hne]
        · rfl

/-- A slot is emptied. -/
theorem State.boxes_remove {σ σ' : State} {id : Nat} {q : QId} (h : TableWf σ)
    (hn : σ.Names id q) (hqueues : σ'.queues = σ.queues)
    (hids : ∀ j, σ'.ids.entry j =
      if j = id % SEQ_MULTIPLIER then none else σ.ids.entry j) :
    σ'.boxes = Function.update σ.boxes id none := by
  obtain ⟨msq, hq, hs⟩ := hn.live.perm_isSome h
  funext i
  unfold State.boxes
  rw [hids, hqueues]
  by_cases hi : i = id
  · subst hi
    simp
  · rw [Function.update_of_ne hi]
    split
    · rename_i hmod
      have hne : ¬ i / SEQ_MULTIPLIER = msq.q_perm.seq := by
        intro hdiv
        refine hi ?_
        rw [← Nat.div_add_mod i SEQ_MULTIPLIER, ← Nat.div_add_mod id SEQ_MULTIPLIER, hmod, hdiv,
          hs, hn.2]
      rw [hmod, hn.1, Option.bind_none, Option.bind_some, hq, Option.bind_some, if_neg hne]
    · rfl

/-- A queue in no slot is freed. -/
theorem State.boxes_free {σ σ' : State} {q : QId} (hdead : ¬ σ.Live q) (hids : σ'.ids = σ.ids)
    (hqueues : σ'.queues = Function.update σ.queues q none) : σ'.boxes = σ.boxes := by
  funext id
  unfold State.boxes
  rw [hids, hqueues]
  cases hent : σ.ids.entry (id % SEQ_MULTIPLIER) with
  | none => rfl
  | some p =>
      have hp : p ≠ q := fun h => hdead ⟨_, by rw [hent, h]⟩
      rw [Option.bind_some, Option.bind_some, Function.update_of_ne hp]

/-- A new queue is put into an empty slot. -/
theorem State.boxes_create {σ σ' : State} {id : Nat} {q : QId} {msq : MsgQueue}
    (hid : id < SEQ_MULTIPLIER) (hempty : σ.ids.entry id = none)
    (hfresh : ∀ i, σ.ids.entry i ≠ some q)
    (hqueues : σ'.queues = Function.update σ.queues q (some msq))
    (hids : ∀ j, σ'.ids.entry j = if j = id then some q else σ.ids.entry j) :
    σ.boxes (ipc_buildid id msq.q_perm.seq) = none ∧
      σ'.boxes = Function.update σ.boxes (ipc_buildid id msq.q_perm.seq) (some msq.box) := by
  have hmod : ipc_buildid id msq.q_perm.seq % SEQ_MULTIPLIER = id := by
    unfold ipc_buildid
    rw [Nat.mul_add_mod, Nat.mod_eq_of_lt hid]
  have hdiv : ipc_buildid id msq.q_perm.seq / SEQ_MULTIPLIER = msq.q_perm.seq := by
    unfold ipc_buildid
    rw [Nat.mul_add_div (by decide), Nat.div_eq_of_lt hid, Nat.add_zero]
  refine ⟨?_, ?_⟩
  · unfold State.boxes
    rw [hmod, hempty]
    rfl
  · funext i
    unfold State.boxes
    rw [hids, hqueues]
    by_cases hi : i = ipc_buildid id msq.q_perm.seq
    · subst hi
      rw [Function.update_self, if_pos hmod, Option.bind_some, Function.update_self,
        Option.bind_some, if_pos hdiv]
    · rw [Function.update_of_ne hi]
      split
      · rename_i hslot
        have hne : ¬ i / SEQ_MULTIPLIER = msq.q_perm.seq := by
          intro hs
          refine hi ?_
          rw [← Nat.div_add_mod i SEQ_MULTIPLIER, hslot, hs]
          rfl
        rw [hslot, hempty, Option.bind_some, Function.update_self, Option.bind_some, if_neg hne,
          Option.bind_none]
      · cases hent : σ.ids.entry (i % SEQ_MULTIPLIER) with
        | none => rfl
        | some p =>
            have hp : p ≠ q := fun h => hfresh _ (by rw [hent, h])
            rw [Option.bind_some, Option.bind_some, Function.update_of_ne hp]

/-! ## The operations -/

/-- The boxes that stay keep their keys. -/
def Boxes.KeepsKeys (B B' : Boxes) : Prop :=
  ∀ i b, B i = some b → ∃ b', B' i = some b' ∧ b'.key = b.key

theorem Boxes.KeepsKeys.refl (B : Boxes) : B.KeepsKeys B := fun _ b hb => ⟨b, hb, rfl⟩

theorem Boxes.KeepsKeys.update {B : Boxes} {id : Nat} {b b' : MsgBox} (hb : B id = some b)
    (hk : b'.key = b.key) : B.KeepsKeys (Function.update B id (some b')) := by
  intro i c hc
  by_cases hi : i = id
  · subst hi
    rw [hb] at hc
    cases hc
    exact ⟨b', Function.update_self .., hk⟩
  · exact ⟨c, by rw [Function.update_of_ne hi]; exact hc, rfl⟩

theorem Boxes.next_meet {B : Boxes} {what : Obstacle} (h : B.Has what) :
    B.next (.meet what) = some B := if_pos h

theorem Boxes.next_meet_eq {B B' : Boxes} {what : Obstacle} (h : B.next (.meet what) = some B') :
    B' = B := by
  unfold Boxes.next at h
  dsimp only at h
  split at h
  · exact (Option.some.inj h).symm
  · cases h

theorem Boxes.next_send {B : Boxes} {id : Nat} {b : MsgBox} (hb : B id = some b) (m : Msg) :
    B.next (.send id m) =
      some (Function.update B id (some { b with messages := b.messages ++ [m] })) := by
  simp [Boxes.next, hb]

theorem Boxes.next_recv {B : Boxes} {id : Nat} {b : MsgBox} (hb : B id = some b)
    {mode : SearchMode} {msgtyp : Int} {m : Msg}
    (hm : scan mode msgtyp none b.messages = some m) :
    B.next (.recv id mode msgtyp m) =
      some (Function.update B id (some { b with messages := b.messages.erase m })) := by
  simp [Boxes.next, hb, hm]

/-- A message that is the only one to pass `testmsg` is the one the scan picks. -/
theorem scan_append_only {mode : SearchMode} {msgs : List Msg} {m : Msg} :
    ∀ {msgtyp : Int}, (∀ x ∈ msgs, testmsg x msgtyp mode = false) →
      testmsg m msgtyp mode = true → scan mode msgtyp none (msgs ++ [m]) = some m := by
  induction msgs with
  | nil =>
      intro msgtyp _ hm
      simp only [List.nil_append, scan, hm, if_true]
      split <;> rfl
  | cons x rest ih =>
      intro msgtyp hall hm
      rw [List.cons_append, scan, hall x List.mem_cons_self]
      exact ih (fun y hy => hall y (List.mem_cons_of_mem _ hy)) hm

/-- A message sent to a box where a receiver waits for it, and taken at once. -/
theorem Boxes.next_send_recv {B : Boxes} {id : Nat} {b : MsgBox} (hb : B id = some b)
    {mode : SearchMode} {msgtyp : Int} {m : Msg}
    (hall : ∀ x ∈ b.messages, testmsg x msgtyp mode = false) (hm : testmsg m msgtyp mode = true) :
    ∃ B', B.next (.send id m) = some B' ∧ B'.next (.recv id mode msgtyp m) = some B := by
  have hnot : m ∉ b.messages := by
    intro hin
    rw [hall m hin] at hm
    cases hm
  have herase : (b.messages ++ [m]).erase m = b.messages := by
    rw [List.erase_append_right _ hnot, List.erase_cons_head, List.append_nil]
  refine ⟨_, Boxes.next_send hb m, ?_⟩
  rw [Boxes.next_recv  (Function.update_self ..)
    (scan_append_only hall hm), Function.update_idem, herase]
  congr 1
  rw [Function.update_eq_self_iff]
  exact hb.symm

end RtaiDemos.Sysvmsg
