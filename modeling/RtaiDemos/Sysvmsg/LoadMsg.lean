import RtaiDemos.Sysvmsg.Machine

/-!
# The blocks of a message (`load_msg`, `free_msg`)

The machine takes `load_msg` as one allocation that succeeds or not. Here it is
block by block: a first block with the head of the message, then one segment
after the other until the text is in, with every `kmalloc` and every copy free
to fail. `enter_msgsnd` connects the two.
-/

namespace RtaiDemos.Sysvmsg

/-- `DATALEN_MSG` and `DATALEN_SEG`: how much text the first block takes, and
how much a segment does. A page is larger than the head of a segment. -/
structure Layout where
  DATALEN_MSG : Nat
  DATALEN_SEG : Nat
  room : 0 < DATALEN_SEG

/-- The kernel's memory, as far as it can be seen who frees what: `next` is the
next block `kmalloc` gives out, `freed` every `kfree` so far. -/
structure Heap where
  next : Nat
  freed : List Nat
  deriving DecidableEq, Repr

/-- What happens at one block: whether `kmalloc` has one, whether
`copy_from_user` succeeds. -/
structure BlockEnv where
  kmalloc : Bool
  copy : Bool
  deriving DecidableEq, Repr

/-- `kfree` -/
def kfree (h : Heap) (b : Nat) : Heap := { h with freed := h.freed ++ [b] }

/-- `free_msg`. A message is its first block and the chain of `next` pointers
that starts there. -/
def free_msg (h : Heap) : List Nat → Heap
  | [] => h
  | b :: rest => free_msg (kfree h b) rest

/-- The loop of `load_msg` over the segments, with `len` bytes still to load. A
segment is on the chain before its text is copied. -/
def loadSegs (L : Layout) (space : Bool) (o : Nat → BlockEnv) (len : Nat) (msg : List Nat)
    (h : Heap) : Except Errno (List Nat) × Heap :=
  if len = 0 then (.ok msg, h)
  else
    let alen := if len > L.DATALEN_SEG then L.DATALEN_SEG else len
    let env := o msg.length
    if !env.kmalloc then (.error .ENOMEM, free_msg h msg)
    else
      let seg := h.next
      let h := { h with next := h.next + 1 }
      if space && !env.copy then (.error .EFAULT, free_msg h (msg ++ [seg]))
      else loadSegs L space o (len - alen) (msg ++ [seg]) h
termination_by len
decreasing_by
  have := L.room
  split <;> omega

/-- `load_msg`. `o n` is what happens at the `n`-th block. -/
def load_msg (L : Layout) (space : Bool) (o : Nat → BlockEnv) (len : Nat) (h : Heap) :
    Except Errno (List Nat) × Heap :=
  let alen := if len > L.DATALEN_MSG then L.DATALEN_MSG else len
  let env := o 0
  if !env.kmalloc then (.error .ENOMEM, h)
  else
    let msg := h.next
    let h := { h with next := h.next + 1 }
    if space && !env.copy then (.error .EFAULT, free_msg h [msg])
    else loadSegs L space o (len - alen) [msg] h

/-! ## Who frees the blocks -/

/-- The blocks given out between two moments. -/
def Heap.since (h h' : Heap) : List Nat := List.range' h.next (h'.next - h.next)

theorem Heap.since_succ {h h' : Heap} (hle : h.next ≤ h'.next) :
    h.since { h' with next := h'.next + 1 } = h.since h' ++ [h'.next] := by
  have hsub : h'.next + 1 - h.next = h'.next - h.next + 1 := by omega
  have hlast : h.next + 1 * (h'.next - h.next) = h'.next := by omega
  unfold Heap.since
  rw [hsub, List.range'_concat, hlast]

@[simp] theorem free_msg_next (h : Heap) (l : List Nat) : (free_msg h l).next = h.next := by
  induction l generalizing h with
  | nil => rfl
  | cons b rest ih => exact ih (kfree h b)

/-- `free_msg` frees the chain, each block once. -/
@[simp] theorem free_msg_freed (h : Heap) (l : List Nat) :
    (free_msg h l).freed = h.freed ++ l := by
  induction l generalizing h with
  | nil => exact (List.append_nil _).symm
  | cons b rest ih =>
      rw [free_msg, ih (kfree h b)]
      simp [kfree]

/-- How a load that began in `h` ends: with all its blocks in the message and
none freed, or with an error and all its blocks freed. -/
def LoadEnds (space : Bool) (h : Heap) : Except Errno (List Nat) × Heap → Prop
  | (.ok msg, h') => h.next ≤ h'.next ∧ msg = h.since h' ∧ h'.freed = h.freed
  | (.error e, h') =>
      h'.freed = h.freed ++ h.since h' ∧ (e = .ENOMEM ∨ (e = .EFAULT ∧ space = true))

theorem loadSegs_ends (L : Layout) (space : Bool) (o : Nat → BlockEnv) {h₀ : Heap} (len : Nat)
    (msg : List Nat) (h : Heap) (hle : h₀.next ≤ h.next) (hmsg : msg = h₀.since h)
    (hfreed : h.freed = h₀.freed) : LoadEnds space h₀ (loadSegs L space o len msg h) := by
  -- the chain is what was given out so far, and nothing has been freed
  induction len using Nat.strong_induction_on generalizing msg h with
  | _ len ih =>
      have hseg : msg ++ [h.next] = h₀.since { h with next := h.next + 1 } := by
        rw [Heap.since_succ hle, hmsg]
      rw [loadSegs]
      split
      · exact ⟨hle, hmsg, hfreed⟩
      · rename_i hlen
        simp only
        split
        · refine ⟨?_, .inl rfl⟩
          rw [free_msg_freed, hfreed, hmsg]
          simp [Heap.since]
        · split
          · rename_i hcopy
            refine ⟨?_, .inr ⟨rfl, (Bool.and_eq_true_iff.mp hcopy).1⟩⟩
            rw [free_msg_freed, hseg]
            simp [Heap.since, hfreed]
          · refine ih _ ?_ _ _ (Nat.le_succ_of_le hle) hseg hfreed
            have := L.room
            split <;> omega

/-- Every block that `load_msg` has got is in the message it returns, and when
it fails every one of them has been freed, once. -/
theorem load_msg_ends (L : Layout) (space : Bool) (o : Nat → BlockEnv) (len : Nat) (h : Heap) :
    LoadEnds space h (load_msg L space o len h) := by
  have hnone : h.since h = [] := by simp [Heap.since]
  have hone : [h.next] = h.since { h with next := h.next + 1 } := by
    rw [Heap.since_succ (Nat.le_refl _), hnone]
    rfl
  unfold load_msg
  simp only
  split
  · exact ⟨by rw [hnone, List.append_nil], .inl rfl⟩
  · split
    · rename_i hcopy
      refine ⟨?_, .inr ⟨rfl, (Bool.and_eq_true_iff.mp hcopy).1⟩⟩
      rw [free_msg_freed, hone]
      simp [Heap.since]
    · exact loadSegs_ends L space o _ _ _ (Nat.le_succ _) hone rfl

/-- The memory after a `_rt_msgsnd` that fails: `load_msg` has failed, or
`out_free` frees what it returned. -/
def abandon (L : Layout) (space : Bool) (o : Nat → BlockEnv) (len : Nat) (h : Heap) : Heap :=
  match load_msg L space o len h with
  | (.error _, h') => h'
  | (.ok msg, h') => free_msg h' msg

/-- A call that fails frees its blocks, and only those. -/
theorem abandon_freed (L : Layout) (space : Bool) (o : Nat → BlockEnv) (len : Nat) (h : Heap) :
    (abandon L space o len h).freed = h.freed ++ h.since (abandon L space o len h) := by
  have hends := load_msg_ends L space o len h
  unfold abandon
  revert hends
  generalize load_msg L space o len h = r
  obtain ⟨res, h'⟩ := r
  cases res with
  | error e => exact fun hends => hends.1
  | ok msg =>
      rintro ⟨_, hmsg, hfreed⟩
      simp only
      rw [free_msg_freed, hfreed, hmsg]
      simp [Heap.since]

/-! ## The machine's view -/

/-- What the machine is told of a load. -/
def loadEnv (now : Nat) : Except Errno (List Nat) → Env
  | .ok _ => ⟨now, true, true⟩
  | .error .ENOMEM => ⟨now, false, true⟩
  | .error _ => ⟨now, true, false⟩

/-- The machine enters `_rt_msgsnd` as the code does with `load_msg` block by
block. -/
theorem enter_msgsnd (P : Params) (σ : State) (t : Tid) (now : Nat) (msqid mtype : Int)
    (mtext : List UInt8) (msgflg : BitVec 32) (space : Bool) (L : Layout) (o : Nat → BlockEnv)
    (h : Heap) :
    enter P σ t (loadEnv now (load_msg L space o mtext.length h).1)
        (.msgsnd msqid mtype mtext msgflg space) =
      if mtext.length > MSGMAX ∨ msqid < 0 then σ.ret t (.err .EINVAL)
      else if mtype < 1 then σ.ret t (.err .EINVAL)
      else match (load_msg L space o mtext.length h).1 with
        | .error err => σ.ret t (.err err)
        | .ok _ =>
          { σ with nextMsg := σ.nextMsg + 1 }.setPc t (.sndLock ⟨msqid.toNat, msgflg⟩
            { mid := σ.nextMsg, m_type := mtype, m_ts := mtext.length, m_text := mtext }) := by
  have hends := load_msg_ends L space o mtext.length h
  revert hends
  generalize load_msg L space o mtext.length h = r
  obtain ⟨res, h'⟩ := r
  cases res with
  | ok msg =>
      intro _
      simp [enter, loadEnv]
  | error err =>
      rintro ⟨_, rfl | ⟨rfl, rfl⟩⟩
      · simp [enter, loadEnv]
      · simp [enter, loadEnv]

end RtaiDemos.Sysvmsg
