import RtaiDemos.Sysvmsg.Logic.Calls
import RtaiDemos.Sysvmsg.Theorems.Delivery

/-!
# The identifier table over whole runs

`in_use` and `max_id` describe the table in every reachable state, a key names
one queue at most, and `rt_msgget` neither duplicates a key nor leaves a trace
when it fails.
-/

namespace RtaiDemos.Sysvmsg

/-- `in_use` counts the entries, `max_id` is the index of the last one or -1,
and above it there is nothing. -/
def IpcIds.Counts (ids : IpcIds) : Prop :=
  ids.in_use = ids.entries.countP Option.isSome ∧
  ((ids.max_id = -1 ∧ ∀ i, ids.entry i = none) ∨
    ∃ i : Nat, ids.max_id = i ∧ (ids.entry i).isSome) ∧
  ∀ i : Nat, ids.max_id < i → ids.entry i = none

theorem IpcIds.Ok.counts {ids : IpcIds} (h : ids.Ok) : ids.Counts := by
  refine ⟨h.in_use, ?_, h.above⟩
  have hge := h.max_ge
  by_cases hneg : ids.max_id = -1
  · refine .inl ⟨hneg, ?_⟩
    intro i
    apply h.above
    omega
  · refine .inr ⟨ids.max_id.toNat, by omega, ?_⟩
    apply h.used
    omega

/-- Two live queues with the same key have the key IPC_PRIVATE. -/
def State.OneQueuePerKey (σ : State) : Prop :=
  ∀ q q' p p', σ.Live q → σ.Live q' → σ.perm q = some p → σ.perm q' = some p' →
    p.key = p'.key → p.key ≠ IPC_PRIVATE → q = q'

/-- A call of `rt_msgget` that looks up the key of a live queue, without
IPC_CREAT|IPC_EXCL, ends with the table it found and with the identifier of
that queue, unless it is denied. -/
def State.FindsExisting (P : Params) (σ : State) : Prop :=
  ∀ t key msgflg e σ' σ₁ r i q p,
    (σ.tasks t).pc = .getFind key msgflg → key ≠ IPC_PRIVATE →
    (hasFlag msgflg IPC_CREAT && hasFlag msgflg IPC_EXCL) = false →
    σ.ids.entry i = some q → σ.perm q = some p → p.key = key →
    step P σ (.exec t e) = some σ' → (machine P).Steps σ' σ₁ →
    (σ₁.tasks t).calls = (σ'.tasks t).calls → (σ₁.tasks t).pc = .semUp r →
    σ₁.table = σ.table ∧ (r = .err .EACCES ∨ r = .ok (ipc_buildid i (q % 65536)))

/-- A creation, from the `kmalloc` of `newque` on: without the descriptor it
is -ENOMEM; with it, -ENOSPC exactly when all slots of the table, which
`grow_ary` may have grown, were occupied; and when it fails the table is the
one it found. -/
def State.Creates (P : Params) (σ : State) : Prop :=
  ∀ t key msgflg e σ' σ₁ r,
    (σ.tasks t).pc = .getNew key msgflg →
    step P σ (.exec t e) = some σ' → (machine P).Steps σ' σ₁ →
    (σ₁.tasks t).calls = (σ'.tasks t).calls → (σ₁.tasks t).pc = .semUp r →
    (e.alloc = false → r = .err .ENOMEM) ∧
    (e.alloc = true → (r = .err .ENOSPC ∨ ∃ v, r = .ok v) ∧
      (r = .err .ENOSPC ↔ ∀ i, i < σ₁.ids.size → (σ.ids.entry i).isSome)) ∧
    ((∀ v, r ≠ .ok v) → σ₁.ids = σ.ids)

/-! ## A call that holds the semaphore -/

theorem exec_of_step {P : Params} {σ σ' : State} {t : Tid} {e : Env}
    (h : step P σ (.exec t e) = some σ') : exec σ t e = some σ' := by
  unfold step at h
  split at h
  · cases h
  · exact h

/-- What is said of the table and of the control point of a task that holds
the semaphore only has to survive the task's own stretches. -/
theorem holder_turn {t : Tid} {σ σ' : State} {I : IpcIds × List Nat → Pc → Prop}
    (hpc : ∀ tab pc, I tab pc → pc.holdsSem = true ∨ ∃ r, pc = .idle r)
    (hidle : ∀ tab r, I tab (.idle r))
    (hcode : ∀ e, exec σ t e = some σ' → I σ'.table (σ'.tasks t).pc)
    (hi : I σ.table (σ.tasks t).pc) (h : Turn t σ σ') : I σ'.table (σ'.tasks t).pc := by
  cases h with
  | foreign poked table =>
      rw [poked.pc]
      rcases hpc _ _ hi with hsem | ⟨r, hr⟩
      · rw [table hsem]
        exact hi
      · rw [hr]
        exact hidle _ r
  | code e hx => exact hcode e hx
  | back hx =>
      unfold resume at hx
      rcases hpc _ _ hi with hsem | ⟨r, hr⟩
      · split at hx
        · rename_i ha
          rw [ha] at hsem
          cases hsem
        · rename_i ha
          rw [ha] at hsem
          cases hsem
        · cases hx
      · rw [hr] at hx
        cases hx
  | signal b he =>
      rw [he, State.modT_tasks, if_pos rfl]
      exact hi

/-! ## A key that exists -/

/-- The call has found the queue `q` in slot `i`. -/
def Found (tab₀ : IpcIds × List Nat) (i : Nat) (q : QId) (tab : IpcIds × List Nat) : Pc → Prop
  | .getLock id _ => tab = tab₀ ∧ id = i
  | .semUp r => tab = tab₀ ∧ (r = .err .EACCES ∨ r = .ok (ipc_buildid i (q % 65536)))
  | .idle _ => True
  | _ => False

theorem Found.pc {tab₀ tab : IpcIds × List Nat} {i : Nat} {q : QId} {pc : Pc}
    (h : Found tab₀ i q tab pc) : pc.holdsSem = true ∨ ∃ r, pc = .idle r := by
  cases pc with
  | getLock id flg => exact .inl rfl
  | semUp r => exact .inl rfl
  | idle r => exact .inr ⟨r, rfl⟩
  | _ => exact absurd h (by simp [Found])

/-- The lookup finds the slot of the queue with the key. -/
theorem getFind_existing {σ : State} (hw : Wf σ) (t : Tid) {key : Int} {msgflg : BitVec 32}
    {i : Nat} {q : QId} {p : KernIpcPerm} (hkey : key ≠ IPC_PRIVATE)
    (hflg : (hasFlag msgflg IPC_CREAT && hasFlag msgflg IPC_EXCL) = false)
    (hi : σ.ids.entry i = some q) (hp : σ.perm q = some p) (hk : p.key = key) :
    getFind σ t key msgflg = σ.setPc t (.getLock i msgflg) := by
  unfold getFind
  rw [if_neg hkey]
  cases hf : ipc_findkey σ.ids σ.perm key with
  | none => exact absurd hk (ipc_findkey_none hw.tab.ids hf hi hp)
  | some id =>
      obtain ⟨q', p', hi', hp', hk'⟩ := ipc_findkey_some hf
      have hqq : q' = q := hw.tab.keys q' q p' p ⟨id, hi'⟩ ⟨i, hi⟩ hp' hp (hk'.trans hk.symm)
        (by rw [hk']; exact hkey)
      subst hqq
      have hid : id = i := hw.tab.slot_unique hi' hi
      simp only [hflg, hid]
      rfl

theorem Found.turn {P : Params} {σ₀ σ σ' : State} {t : Tid} {i : Nat} {q : QId}
    (hr : (machine P).Reachable σ) (hq : σ₀.ids.entry i = some q)
    (hi : Found σ₀.table i q σ.table (σ.tasks t).pc) (h : Turn t σ σ') :
    Found σ₀.table i q σ'.table (σ'.tasks t).pc := by
  have hw := wf_invariant P σ hr
  refine holder_turn (fun _ _ h => h.pc) (fun _ _ => trivial) ?_ hi h
  intro e hx
  unfold exec at hx
  cases hpc : (σ.tasks t).pc with
  | getLock id flg =>
      rw [hpc] at hi hx
      obtain ⟨htab, rfl⟩ := hi
      have hentry : σ.ids.entry id = some q := by
        rw [show σ.ids = σ₀.ids from congrArg Prod.fst htab]
        exact hq
      obtain ⟨msq, hm, hseq⟩ := State.Live.perm_isSome hw.tab ⟨id, hentry⟩
      have hlt : id < SEQ_MULTIPLIER := by
        have htable := hw.tab.table t
        rw [hpc] at htable
        exact htable.1
      have hlock : ipc_lock σ.ids id = some q := by
        rw [ipc_lock_eq, Nat.mod_eq_of_lt hlt, hentry]
      simp only [Option.some.injEq] at hx
      subst hx
      unfold getLock
      simp only [hlock, hm, hseq]
      split
      · rw [State.setPc_tasks, if_pos rfl]
        exact ⟨htab, .inl rfl⟩
      · rw [State.setPc_tasks, if_pos rfl]
        exact ⟨htab, .inr rfl⟩
  | semUp r =>
      rw [hpc] at hx
      cases hx
      simp [Found]
  | idle r => rw [hpc] at hx; cases hx
  | _ => rw [hpc] at hi; exact absurd hi (by simp [Found])

theorem finds_existing (P : Params) {σ : State} (hr : (machine P).Reachable σ) :
    σ.FindsExisting P := by
  intro t key msgflg e σ' σ₁ r i q p hpc hkey hflg hi hp hk hstep hsteps hcalls hsem
  have hw := wf_invariant P σ hr
  have hx := exec_of_step hstep
  unfold exec at hx
  rw [hpc] at hx
  simp only [Option.some.injEq] at hx
  rw [getFind_existing hw t hkey hflg hi hp hk] at hx
  have h₀ : Found σ.table i q σ'.table (σ'.tasks t).pc := by
    rw [← hx, State.setPc_tasks, if_pos rfl]
    exact ⟨rfl, rfl⟩
  have h₁ : Found σ.table i q σ₁.table (σ₁.tasks t).pc := by
    refine incall_induct (I := fun τ => Found σ.table i q τ.table (τ.tasks t).pc) ?_
      (step_reachable hr hstep) h₀ hsteps hcalls
    intro τ τ' hrτ hτ _ hturn
    exact hτ.turn hrτ hi hturn
  rw [hsem] at h₁
  exact h₁

/-! ## Creation -/

/-- A table that is full after `grow_ary` has not grown. -/
theorem grow_ary_full {ids : IpcIds} {newsize : Nat} {alloc : Bool}
    (h : ∀ i, i < (grow_ary ids newsize alloc).1.size → (ids.entry i).isSome) :
    (grow_ary ids newsize alloc).1 = ids := by
  by_contra hne
  have hgrown : ids.size < (grow_ary ids newsize alloc).1.size := by
    revert hne
    simp only [grow_ary]
    split_ifs with h1 h2 h3
    all_goals first
      | (intro hne; exact absurd rfl hne)
      | (intro _
         simp only [IpcIds.size, List.length_append, List.length_replicate] at *
         omega)
  obtain ⟨q, hq⟩ := Option.isSome_iff_exists.mp (h ids.size hgrown)
  exact absurd (IpcIds.entry_lt hq) (Nat.lt_irrefl _)

/-- Where a creation that began with the table `ids₀` stands. -/
def Creating (ids₀ : IpcIds) (alloc : Bool) (tab : IpcIds × List Nat) : Pc → Prop
  | .getGrow _ _ => alloc = true ∧ tab.1 = ids₀
  | .getAdd _ _ size => alloc = true ∧ size = tab.1.size ∧
      ∃ b, tab.1 = (grow_ary ids₀ MSGMNI b).1
  | .semUp r =>
      (alloc = false ∧ r = .err .ENOMEM ∧ tab.1 = ids₀) ∨
      (alloc = true ∧ r = .err .ENOSPC ∧ tab.1 = ids₀ ∧
        ∀ i, i < tab.1.size → (ids₀.entry i).isSome) ∨
      (alloc = true ∧ (∃ v, r = .ok v) ∧ ∃ i, i < tab.1.size ∧ ids₀.entry i = none)
  | .idle _ => True
  | _ => False

theorem Creating.pc {ids₀ : IpcIds} {alloc : Bool} {tab : IpcIds × List Nat} {pc : Pc}
    (h : Creating ids₀ alloc tab pc) : pc.holdsSem = true ∨ ∃ r, pc = .idle r := by
  cases pc with
  | getGrow key flg => exact .inl rfl
  | getAdd key flg size => exact .inl rfl
  | semUp r => exact .inl rfl
  | idle r => exact .inr ⟨r, rfl⟩
  | _ => exact absurd h (by simp [Creating])

/-- `newque` after `grow_ary`. -/
theorem Creating.newque {ids₀ : IpcIds} {σ : State} {b : Bool}
    (hids : σ.ids = (grow_ary ids₀ MSGMNI b).1) (t : Tid) (e : Env) (key : Int)
    (msgflg : BitVec 32) :
    Creating ids₀ true (newque σ t e key msgflg σ.ids.size).table
      ((newque σ t e key msgflg σ.ids.size).tasks t).pc := by
  have hentry : ∀ i, σ.ids.entry i = ids₀.entry i := by
    rw [hids]
    exact (grow_ary_spec ids₀ MSGMNI b).1
  unfold Sysvmsg.newque
  simp only
  cases hadd : ipc_addid σ.ids σ.hist.slots.length σ.ids.size with
  | none =>
      have hfull : ∀ i, i < σ.ids.size → (ids₀.entry i).isSome := by
        intro i hlt
        rw [← hentry i]
        exact ipc_addid_none.mp hadd i hlt
      have hsame : σ.ids = ids₀ := by
        rw [hids] at hfull ⊢
        exact grow_ary_full hfull
      rw [State.setPc_tasks, if_pos rfl]
      exact .inr (.inl ⟨rfl, rfl, hsame, hfull⟩)
  | some r =>
      obtain ⟨ids, id, seq⟩ := r
      obtain ⟨hlt, hnone, _, _, _, hsize, _⟩ := ipc_addid_spec hadd (Nat.le_refl _)
      rw [State.setPc_tasks, if_pos rfl]
      refine .inr (.inr ⟨rfl, ⟨_, rfl⟩, id, ?_, by rw [← hentry id]; exact hnone⟩)
      show id < ids.size
      rw [hsize]
      exact hlt

theorem Creating.turn {P : Params} {ids₀ : IpcIds} {alloc : Bool} {σ σ' : State} {t : Tid}
    (hr : (machine P).Reachable σ) (hi : Creating ids₀ alloc σ.table (σ.tasks t).pc)
    (h : Turn t σ σ') : Creating ids₀ alloc σ'.table (σ'.tasks t).pc := by
  have hw := wf_invariant P σ hr
  refine holder_turn (fun _ _ h => h.pc) (fun _ _ => trivial) ?_ hi h
  intro e hx
  unfold exec at hx
  cases hpc : (σ.tasks t).pc with
  | getGrow key flg =>
      rw [hpc] at hi hx
      obtain ⟨rfl, hids⟩ := hi
      have hids : σ.ids = ids₀ := hids
      simp only [Option.some.injEq] at hx
      subst hx
      obtain ⟨hsize, _, _⟩ := grow_ary_size e.alloc (by decide : MSGMNI ≤ IPCMNI) hw.tab.size_le
      rw [State.setPc_tasks, if_pos rfl]
      refine ⟨rfl, hsize, e.alloc, ?_⟩
      rw [← hids]
      rfl
  | getAdd key flg size =>
      rw [hpc] at hi hx
      obtain ⟨rfl, hsize, b, hids⟩ := hi
      have hsize : size = σ.ids.size := hsize
      simp only [Option.some.injEq] at hx
      subst hx
      rw [hsize]
      exact .newque hids t e key flg
  | semUp r =>
      rw [hpc] at hx
      cases hx
      simp [Creating]
  | idle r => rw [hpc] at hx; cases hx
  | _ => rw [hpc] at hi; exact absurd hi (by simp [Creating])

theorem creates (P : Params) {σ : State} (hr : (machine P).Reachable σ) : σ.Creates P := by
  intro t key msgflg e σ' σ₁ r hpc hstep hsteps hcalls hsem
  have hx := exec_of_step hstep
  unfold exec at hx
  rw [hpc] at hx
  have h₀ : Creating σ.ids e.alloc σ'.table (σ'.tasks t).pc := by
    cases ha : e.alloc with
    | false =>
        simp only [ha, Bool.not_false, if_true, Option.some.injEq] at hx
        rw [← hx, State.setPc_tasks, if_pos rfl]
        exact .inl ⟨rfl, rfl, rfl⟩
    | true =>
        simp only [ha, Bool.not_true, Bool.false_eq_true, if_false, Option.some.injEq] at hx
        rw [← hx, State.setPc_tasks, if_pos rfl]
        exact ⟨rfl, rfl⟩
  have h₁ : Creating σ.ids e.alloc σ₁.table (σ₁.tasks t).pc := by
    refine incall_induct (I := fun τ => Creating σ.ids e.alloc τ.table (τ.tasks t).pc) ?_
      (step_reachable hr hstep) h₀ hsteps hcalls
    intro τ τ' hrτ hτ _ hturn
    exact hτ.turn hrτ hturn
  rw [hsem] at h₁
  rcases h₁ with ⟨ha, rfl, hids⟩ | ⟨ha, rfl, hids, hfull⟩ | ⟨ha, ⟨v, rfl⟩, i, hlt, hnone⟩
  · refine ⟨fun _ => rfl, ?_, fun _ => hids⟩
    intro ha'
    rw [ha] at ha'
    cases ha'
  · refine ⟨?_, fun _ => ⟨.inl rfl, fun _ => hfull, fun _ => rfl⟩, fun _ => hids⟩
    intro ha'
    rw [ha] at ha'
    cases ha'
  · refine ⟨?_, fun _ => ⟨.inr ⟨v, rfl⟩, ?_, ?_⟩, fun hno => absurd rfl (hno v)⟩
    · intro ha'
      rw [ha] at ha'
      cases ha'
    · intro hc
      cases hc
    · intro hfull
      have := hfull i hlt
      rw [hnone] at this
      cases this

/-! ## The table -/

/-- In every reachable state `in_use` and `max_id` describe the table and no
two live queues share a key; from there on, `rt_msgget` on a key in use creates
nothing, and a creation ends as `Creates` says. -/
theorem id_table (P : Params) : (machine P).Invariant fun σ =>
    σ.ids.Counts ∧ σ.OneQueuePerKey ∧ σ.FindsExisting P ∧ σ.Creates P := by
  intro σ hr
  have hw := wf_invariant P σ hr
  exact ⟨hw.tab.ids.counts, hw.tab.keys, finds_existing P hr, creates P hr⟩

/-- All sixteen slots are taken. -/
def fillTable : List Label := (List.replicate MSGMNI (createQueue 0)).flatten

/-- On a full table `newque` still returns -ENOMEM when `kmalloc` fails, so
-ENOSPC is not the answer exactly when all slots are occupied. -/
theorem full_table_without_memory : ¬ (machine demoParams).Invariant fun σ =>
    ∀ t key msgflg e σ' r, (σ.tasks t).pc = .getNew key msgflg →
      step demoParams σ (.exec t e) = some σ' → (σ'.tasks t).pc = .semUp r →
      (r = .err .ENOSPC ↔ ∀ i, i < σ.ids.size → (σ.ids.entry i).isSome) := by
  intro hinv
  have hrun : demoRun (fillTable ++ .call 0 (.msgget IPC_PRIVATE 0o666#32) demoEnv ::
      List.replicate 2 (.exec 0 demoEnv))
      (fun σ => decide ((σ.tasks 0).pc = .getNew IPC_PRIVATE 0o666#32 ∧ σ.oops = none ∧
        σ.ids.size = 16 ∧ ∀ i ∈ List.range 16, (σ.ids.entry i).isSome = true)) = true := by
    decide +kernel
  obtain ⟨σ, hr, hask⟩ := demoRun_reachable hrun
  obtain ⟨hpc, hoops, hsize, hfull⟩ := of_decide_eq_true hask
  have hstep : step demoParams σ (.exec 0 ⟨1, false, true⟩) =
      some (σ.setPc 0 (.semUp (.err .ENOMEM))) := by
    simp [step, hoops, exec, hpc]
  have hanswer := (hinv σ hr 0 _ _ _ _ (.err .ENOMEM) hpc hstep (by simp)).mpr (by
    intro i hi
    exact hfull i (List.mem_range.mpr (by omega)))
  cases hanswer

end RtaiDemos.Sysvmsg
