import RtaiDemos.Sysvmsg.Util

/-!
# The identifier table: one spec lemma for each function

`IpcIds.Ok` is the table's own invariant: `in_use` counts the entries in use,
and `max_id` is the last of them. The functions of `util.c` are described by
what they do to `entry`, and each keeps `Ok`.
-/

namespace RtaiDemos.Sysvmsg

namespace IpcIds

/-- `in_use` counts the entries in use and `max_id` is the index of the last
one, or -1. -/
structure Ok (ids : IpcIds) : Prop where
  in_use : ids.in_use = ids.entries.countP Option.isSome
  max_ge : -1 ≤ ids.max_id
  above : ∀ i : Nat, ids.max_id < i → ids.entry i = none
  used : 0 ≤ ids.max_id → (ids.entry ids.max_id.toNat).isSome = true

theorem entry_eq (ids : IpcIds) (i : Nat) : ids.entry i = (ids.entries[i]?).getD none :=
  List.getD_eq_getElem?_getD ..

/-- An entry outside the table reads as NULL. -/
theorem entry_lt {ids : IpcIds} {i : Nat} {q : QId} (h : ids.entry i = some q) :
    i < ids.size := by
  unfold IpcIds.size
  by_contra hge
  rw [entry_eq, List.getElem?_eq_none (by omega)] at h
  exact absurd h (by simp)

theorem entry_set {ids ids' : IpcIds} {i : Nat} {x : Option QId}
    (h : ids'.entries = ids.entries.set i x) (hi : i < ids.size) (j : Nat) :
    ids'.entry j = if j = i then x else ids.entry j := by
  unfold IpcIds.size at hi
  rw [entry_eq, entry_eq, h, List.getElem?_set]
  by_cases hij : i = j
  · subst hij
    simp [hi]
  · rw [if_neg hij, if_neg (fun h => hij h.symm)]

theorem size_set {ids ids' : IpcIds} {i : Nat} {x : Option QId}
    (h : ids'.entries = ids.entries.set i x) : ids'.size = ids.size := by
  unfold IpcIds.size
  rw [h, List.length_set]

theorem entry_getElem? {ids : IpcIds} {i : Nat} {q : QId} :
    ids.entry i = some q ↔ ids.entries[i]? = some (some q) := by
  rw [entry_eq]
  cases ids.entries[i]? with
  | none => simp
  | some x => simp

end IpcIds

/-! ## `ipc_addid` -/

theorem freeSlot_none {ids : IpcIds} {size : Nat} :
    ids.freeSlot size = none ↔ ∀ i, i < size → (ids.entry i).isSome = true := by
  simp [IpcIds.freeSlot, List.find?_eq_none, Option.isSome_iff_ne_none]

theorem freeSlot_some {ids : IpcIds} {size id : Nat} (h : ids.freeSlot size = some id) :
    id < size ∧ ids.entry id = none := by
  unfold IpcIds.freeSlot at h
  have h1 := List.mem_of_find?_eq_some h
  have h2 := List.find?_some h
  exact ⟨List.mem_range.mp h1, by simpa using h2⟩

theorem ipc_addid_none {ids : IpcIds} {new : QId} {size : Nat} :
    ipc_addid ids new size = none ↔ ∀ i, i < size → (ids.entry i).isSome = true := by
  rw [← freeSlot_none]
  unfold ipc_addid
  cases ids.freeSlot size <;> simp

/-- What `ipc_addid` does to the table. -/
theorem ipc_addid_spec {ids ids' : IpcIds} {new : QId} {size id seq : Nat}
    (h : ipc_addid ids new size = some (ids', id, seq)) (hsize : size ≤ ids.size) :
    id < size ∧ ids.entry id = none ∧ seq = ids.seq ∧ ids'.seq = ids.nextSeq ∧
      ids'.seq_max = ids.seq_max ∧ ids'.size = ids.size ∧
      ∀ j, ids'.entry j = if j = id then some new else ids.entry j := by
  unfold ipc_addid at h
  cases hs : ids.freeSlot size with
  | none => rw [hs] at h; cases h
  | some slot =>
      obtain ⟨hlt, hfree⟩ := freeSlot_some hs
      rw [hs] at h
      simp only [Option.some.injEq, Prod.mk.injEq] at h
      obtain ⟨rfl, rfl, rfl⟩ := h
      exact ⟨hlt, hfree, rfl, rfl, rfl, IpcIds.size_set rfl,
        IpcIds.entry_set rfl (by omega)⟩

theorem countP_isSome_set {l : List (Option QId)} {i : Nat} {x : Option QId}
    (hi : i < l.length) :
    (l.set i x).countP Option.isSome + ((l[i]?).getD none).isSome.toNat =
      l.countP Option.isSome + x.isSome.toNat := by
  induction l generalizing i with
  | nil => simp at hi
  | cons y rest ih =>
      cases i with
      | zero => cases x <;> cases y <;> simp
      | succ i =>
          have := ih (i := i) (by simpa using hi)
          simp only [List.set_cons_succ, List.countP_cons, List.getElem?_cons_succ]
          omega

theorem IpcIds.Ok.addid {ids ids' : IpcIds} {new : QId} {size id seq : Nat} (hok : ids.Ok)
    (h : ipc_addid ids new size = some (ids', id, seq)) (hsize : size ≤ ids.size) : ids'.Ok := by
  obtain ⟨hlt, hfree, _, _, _, _, hentry⟩ := ipc_addid_spec h hsize
  unfold ipc_addid at h
  cases hs : ids.freeSlot size with
  | none => rw [hs] at h; cases h
  | some slot =>
      rw [hs] at h
      simp only [Option.some.injEq, Prod.mk.injEq] at h
      obtain ⟨rfl, rfl, rfl⟩ := h
      have hmax := hok.max_ge
      refine ⟨?_, ?_, ?_, ?_⟩
      · have hset := countP_isSome_set (l := ids.entries) (i := slot) (x := some new)
          (by unfold IpcIds.size at hsize; omega)
        rw [IpcIds.entry_eq] at hfree
        rw [hfree] at hset
        have hcount := hok.in_use
        simp only [Option.isSome_none, Bool.toNat_false, Option.isSome_some,
          Bool.toNat_true] at hset ⊢
        omega
      · show -1 ≤ if (slot : Int) > ids.max_id then (slot : Int) else ids.max_id
        split <;> omega
      · intro j hj
        rw [hentry j]
        change (if (slot : Int) > ids.max_id then (slot : Int) else ids.max_id) < j at hj
        split at hj
        · rw [if_neg (by omega)]
          exact hok.above j (by omega)
        · rw [if_neg (by omega)]
          exact hok.above j hj
      · intro h0
        rw [hentry]
        by_cases hgt : (slot : Int) > ids.max_id
        · simp [hgt]
        · simp only [if_neg hgt] at h0 ⊢
          split
          · rfl
          · exact hok.used h0

/-! ## `ipc_rmid` -/

/-- The downward scan ends at the last entry in use below its start. -/
theorem scanDown_spec (ids : IpcIds) (lid : Nat) :
    -1 ≤ scanDown ids lid ∧ scanDown ids lid < lid ∧
      (∀ i : Nat, scanDown ids lid < i → i < lid → ids.entry i = none) ∧
      (0 ≤ scanDown ids lid → (ids.entry (scanDown ids lid).toNat).isSome = true) := by
  induction lid with
  | zero => simp [scanDown]
  | succ lid ih =>
      obtain ⟨h1, h2, h3, h4⟩ := ih
      unfold scanDown
      by_cases he : (ids.entry lid).isNone = true
      · rw [if_pos he]
        refine ⟨h1, by omega, ?_, h4⟩
        intro i hi hlt
        by_cases hil : i = lid
        · subst hil
          simpa using he
        · exact h3 i hi (by omega)
      · rw [if_neg he]
        refine ⟨by omega, by omega, fun i hi hlt => by omega, fun _ => ?_⟩
        simpa [Option.isSome_iff_ne_none] using he

/-- What `ipc_rmid` does to the table. -/
theorem ipc_rmid_spec {ids ids' : IpcIds} {msqid : Nat} {q : QId}
    (h : ipc_rmid ids msqid = some (ids', q)) :
    ids.entry (msqid % SEQ_MULTIPLIER) = some q ∧ ids'.seq = ids.seq ∧
      ids'.seq_max = ids.seq_max ∧ ids'.size = ids.size ∧
      ∀ j, ids'.entry j = if j = msqid % SEQ_MULTIPLIER then none else ids.entry j := by
  simp only [ipc_rmid] at h
  split at h
  · cases h
  · rename_i hlt
    cases he : ids.entry (msqid % SEQ_MULTIPLIER) with
    | none => rw [he] at h; cases h
    | some p =>
        rw [he] at h
        simp only [Option.some.injEq, Prod.mk.injEq] at h
        obtain ⟨rfl, rfl⟩ := h
        split
        · exact ⟨rfl, rfl, rfl, IpcIds.size_set rfl, IpcIds.entry_set rfl (by omega)⟩
        · exact ⟨rfl, rfl, rfl, IpcIds.size_set rfl, IpcIds.entry_set rfl (by omega)⟩

/-- `ipc_rmid` on an entry in use meets none of its `BUG()`s. -/
theorem ipc_rmid_isSome {ids : IpcIds} {msqid : Nat} {q : QId}
    (h : ids.entry (msqid % SEQ_MULTIPLIER) = some q) :
    ∃ ids', ipc_rmid ids msqid = some (ids', q) := by
  have hlt := IpcIds.entry_lt h
  simp only [ipc_rmid, h]
  rw [if_neg (by omega)]
  exact ⟨_, rfl⟩

theorem IpcIds.Ok.rmid {ids ids' : IpcIds} {msqid : Nat} {q : QId} (hok : ids.Ok)
    (h : ipc_rmid ids msqid = some (ids', q)) : ids'.Ok := by
  obtain ⟨hq, _, _, _, hentry⟩ := ipc_rmid_spec h
  have hlt := IpcIds.entry_lt hq
  -- the count drops by one with the entry
  have hset := countP_isSome_set (l := ids.entries) (i := msqid % SEQ_MULTIPLIER) (x := none) hlt
  have hold : (ids.entries[msqid % SEQ_MULTIPLIER]?).getD none = some q := by
    rw [← IpcIds.entry_eq]
    exact hq
  rw [hold] at hset
  simp only [Option.isSome_some, Bool.toNat_true, Option.isSome_none, Bool.toNat_false] at hset
  have hcount := hok.in_use
  have hmax := hok.max_ge
  simp only [ipc_rmid, hq] at h
  rw [if_neg (by omega)] at h
  simp only [Option.some.injEq, Prod.mk.injEq, and_true] at h
  split at h
  · rename_i hlast
    change ((msqid % SEQ_MULTIPLIER : Nat) : Int) = ids.max_id at hlast
    subst h
    obtain ⟨h1, h2, h3, h4⟩ := scanDown_spec
      { ids with
        entries := ids.entries.set (msqid % SEQ_MULTIPLIER) none
        in_use := ids.in_use - 1 } (msqid % SEQ_MULTIPLIER)
    refine ⟨?_, h1, ?_, h4⟩
    · show ids.in_use - 1 = ((ids.entries.set (msqid % SEQ_MULTIPLIER) none).countP
        Option.isSome : Nat)
      omega
    · intro j hj
      rw [hentry j]
      split
      · rfl
      · rename_i hne
        by_cases hjl : j < msqid % SEQ_MULTIPLIER
        · have := h3 j hj hjl
          rw [IpcIds.entry_set (i := msqid % SEQ_MULTIPLIER) rfl hlt, if_neg hne] at this
          exact this
        · exact hok.above j (by omega)
  · rename_i hlast
    subst h
    refine ⟨?_, hmax, ?_, ?_⟩
    · show ids.in_use - 1 = ((ids.entries.set (msqid % SEQ_MULTIPLIER) none).countP
        Option.isSome : Nat)
      omega
    · intro j hj
      rw [hentry j]
      split
      · rfl
      · exact hok.above j hj
    · intro h0
      rw [hentry]
      change ¬((msqid % SEQ_MULTIPLIER : Nat) : Int) = ids.max_id at hlast
      rw [if_neg]
      · exact hok.used h0
      · change ¬ids.max_id.toNat = msqid % SEQ_MULTIPLIER
        change 0 ≤ ids.max_id at h0
        omega

/-! ## `grow_ary` -/

/-- `grow_ary` only adds empty slots. -/
theorem grow_ary_spec (ids : IpcIds) (newsize : Nat) (alloc : Bool) :
    (∀ j, (grow_ary ids newsize alloc).1.entry j = ids.entry j) ∧
      (grow_ary ids newsize alloc).1.seq = ids.seq ∧
      (grow_ary ids newsize alloc).1.seq_max = ids.seq_max ∧
      (grow_ary ids newsize alloc).1.in_use = ids.in_use ∧
      (grow_ary ids newsize alloc).1.max_id = ids.max_id := by
  simp only [grow_ary]
  split_ifs
  all_goals first
    | exact ⟨fun _ => rfl, rfl, rfl, rfl, rfl⟩
    | refine ⟨fun j => ?_, rfl, rfl, rfl, rfl⟩
      rw [IpcIds.entry_eq, IpcIds.entry_eq]
      show ((ids.entries ++ List.replicate _ none)[j]?).getD none = _
      rw [List.getElem?_append]
      split
      · rfl
      · rename_i hj
        rw [List.getElem?_eq_none (by omega : ids.entries.length ≤ j), List.getElem?_replicate]
        split <;> rfl

/-- With a table no larger than asked for, the size searched is the size of
the table. -/
theorem grow_ary_size {ids : IpcIds} {newsize : Nat} (alloc : Bool) (hn : newsize ≤ IPCMNI)
    (h : ids.size ≤ newsize) :
    (grow_ary ids newsize alloc).2 = (grow_ary ids newsize alloc).1.size ∧
      (grow_ary ids newsize alloc).1.size ≤ newsize ∧
      ids.size ≤ (grow_ary ids newsize alloc).1.size := by
  simp only [grow_ary, if_neg (Nat.not_lt.mpr hn)]
  split_ifs with h1 h2
  · exact ⟨Nat.le_antisymm h1 h, h, Nat.le_refl _⟩
  · exact ⟨rfl, h, Nat.le_refl _⟩
  · refine ⟨?_, ?_, ?_⟩ <;>
      simp only [IpcIds.size, List.length_append, List.length_replicate] at h1 ⊢ <;> omega

theorem IpcIds.Ok.grow {ids : IpcIds} (hok : ids.Ok) (newsize : Nat) (alloc : Bool) :
    (grow_ary ids newsize alloc).1.Ok := by
  obtain ⟨hentry, _, _, huse, hmax⟩ := grow_ary_spec ids newsize alloc
  refine ⟨?_, by rw [hmax]; exact hok.max_ge, ?_, ?_⟩
  · rw [huse, hok.in_use]
    simp only [grow_ary]
    split_ifs <;> simp [List.countP_append, List.countP_replicate]
  · intro i hi
    rw [hmax] at hi
    rw [hentry]
    exact hok.above i hi
  · intro h0
    rw [hmax] at h0 ⊢
    rw [hentry]
    exact hok.used h0

theorem ipc_init_ids_ok (size : Nat) (alloc : Bool) : (ipc_init_ids size alloc).Ok := by
  refine ⟨?_, by simp [ipc_init_ids], ?_, by simp [ipc_init_ids]⟩
  · simp only [ipc_init_ids]
    split_ifs <;> simp [List.countP_replicate]
  · intro i _
    rw [IpcIds.entry_eq]
    simp only [ipc_init_ids]
    split_ifs <;> simp only [List.getElem?_replicate, List.getElem?_nil, Option.getD_none]
    all_goals split <;> rfl

/-! ## `ipc_lock` and `ipc_findkey` -/

/-- `ipc_lock` reads the slot of the identifier. -/
theorem ipc_lock_eq (ids : IpcIds) (msqid : Nat) :
    ipc_lock ids msqid = ids.entry (msqid % SEQ_MULTIPLIER) := by
  show (if msqid % SEQ_MULTIPLIER ≥ ids.size then none else ids.entry (msqid % SEQ_MULTIPLIER))
    = ids.entry (msqid % SEQ_MULTIPLIER)
  split
  · rename_i h
    cases he : ids.entry (msqid % SEQ_MULTIPLIER) with
    | none => rfl
    | some q => exact absurd (IpcIds.entry_lt he) (by omega)
  · rfl

theorem ipc_findkey_some {ids : IpcIds} {perm : QId → Option KernIpcPerm} {key : Int} {id : Nat}
    (h : ipc_findkey ids perm key = some id) :
    ∃ q p, ids.entry id = some q ∧ perm q = some p ∧ p.key = key := by
  have h2 := List.find?_some h
  split at h2
  · cases h2
  · rename_i q hq
    cases hp : perm q with
    | none => simp [hp] at h2
    | some p =>
        rw [hp, Option.any_some, beq_iff_eq] at h2
        exact ⟨q, p, hq, hp, h2.symm⟩

/-- `max_id` bounds the entries in use, so the search misses no queue. -/
theorem ipc_findkey_none {ids : IpcIds} {perm : QId → Option KernIpcPerm} {key : Int}
    (hok : ids.Ok) (h : ipc_findkey ids perm key = none) {i : Nat} {q : QId} {p : KernIpcPerm}
    (hi : ids.entry i = some q) (hp : perm q = some p) : p.key ≠ key := by
  intro hk
  have hle : (i : Int) ≤ ids.max_id := by
    by_contra hgt
    have := hok.above i (by omega)
    rw [hi] at this
    cases this
  have := List.find?_eq_none.mp h i (List.mem_range.mpr (by omega))
  simp [hi, hp, hk] at this

end RtaiDemos.Sysvmsg
