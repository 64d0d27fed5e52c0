import RtaiDemos.Sysvmsg.Msqid
import RtaiDemos.Sysvmsg.Theorems.Delivery

/-!
# IPC_STAT followed by IPC_SET

A caller that reads a queue and writes the buffer back as it is changes nothing,
unless the buffer has the old layout and the limit of the queue does not fit into its
`unsigned short`: `copy_msqid_to_user` then leaves 65535 there, and
`copy_msqid_from_user` looks at the wide field behind it only if it finds 0.
-/

namespace RtaiDemos.Sysvmsg

/-- What IPC_STAT tells of a queue. -/
def MsgQueue.stat (msq : MsgQueue) : Msqid64Ds where
  msg_perm := msq.q_perm
  msg_stime := msq.q_stime
  msg_rtime := msq.q_rtime
  msg_ctime := msq.q_ctime
  msg_cbytes := msq.q_cbytes
  msg_qnum := msq.q_qnum
  msg_qbytes := msq.q_qbytes
  msg_lspid := msq.q_lspid
  msg_lrpid := msq.q_lrpid

/-- A caller outside any call, a queue it may read and change, and nobody in the way. -/
structure MayStatSet (P : Params) (σ : State) (t : Tid) (msqid : Nat) (q : QId) (msq : MsgQueue) :
    Prop where
  alive : σ.oops = none
  idle : ∃ ret, (σ.tasks t).pc = .idle ret
  free : σ.sem = none
  entry : ipc_lock σ.ids msqid = some q
  queue : σ.queues q = some msq
  valid : ipc_checkid msq.q_perm msqid = false
  reads : ipcperms (σ.tasks t).cred msq.q_perm S_IRUGO = false
  owner : (σ.tasks t).cred.euid = msq.q_perm.cuid ∨ (σ.tasks t).cred.euid = msq.q_perm.uid ∨
    (σ.tasks t).cred.cap_sys_admin = true
  limit : msq.q_qbytes ≤ MSGMNB ∨ (σ.tasks t).cred.cap_sys_resource = true
  qbytes : 0 ≤ msq.q_qbytes ∧ msq.q_qbytes < 2 ^ P.longBits
  ids16 : msq.q_perm.uid < 2 ^ 16 ∧ msq.q_perm.gid < 2 ^ 16

variable {P : Params} {σ : State} {t : Tid} {msqid : Nat} {q : QId} {msq : MsgQueue}

/-- The caller stands at `pc` of one more call. -/
def State.within (σ : State) (t : Tid) (pc : Pc) : State :=
  σ.modT t fun k => { k with calls := k.calls + 1, pc := pc }

/-- What the call leaves of its caller's task is its entry and its last control point. -/
theorem State.within_eq (σ : State) (t : Tid) (pc : Pc) :
    (σ.modT t fun k => { k with calls := k.calls + 1 }).setPc t pc = σ.within t pc := by
  unfold State.setPc State.within
  rw [State.modT_modT]

theorem State.within_setPc (σ : State) (t : Tid) (pc pc' : Pc) :
    (σ.within t pc).setPc t pc' = σ.within t pc' := by
  unfold State.setPc State.within
  rw [State.modT_modT]

theorem State.within_cred (σ : State) (t : Tid) (pc : Pc) :
    ((σ.within t pc).tasks t).cred = (σ.tasks t).cred := by
  simp [State.within]

theorem State.within_pc (σ : State) (t : Tid) (pc : Pc) : ((σ.within t pc).tasks t).pc = pc := by
  simp [State.within]

/-- A task executes as long as the kernel has not failed. -/
theorem next_exec (halive : σ.oops = none) (e : Env) :
    (machine P).next σ (.exec t e) = exec σ t e := by
  unfold machine step
  simp only [halive, Option.isSome_none, Bool.false_eq_true, if_false]

/-- IPC_STAT of a queue the caller may read. -/
theorem statBody_eq {e : Env} {space : Bool} (hentry : ipc_lock σ.ids msqid = some q)
    (hqueue : σ.queues q = some msq) (hvalid : ipc_checkid msq.q_perm msqid = false)
    (hreads : ipcperms (σ.tasks t).cred msq.q_perm S_IRUGO = false)
    (hcopy : (space && !e.copy) = false) :
    statBody σ t e msqid .ipcStat space = σ.ret t (.stat 0 msq.stat) := by
  unfold statBody
  simp only [hentry, hqueue]
  rw [if_neg (by simp [hvalid]), if_neg (by simp [hreads]), if_neg (by simp [hcopy])]
  rfl

/-- IPC_STAT changes nothing but its caller. -/
theorem stat_run (h : MayStatSet P σ t msqid q msq) (space : Bool) (buf : MsqSetbuf) (e e' : Env)
    (hcopy : (space && !e'.copy) = false) :
    (machine P).run σ [.call t (.msgctl msqid .ipcStat (some buf) space) e, .exec t e'] =
      some (σ.within t (.idle (some (.stat 0 msq.stat)))) := by
  obtain ⟨ret, hidle⟩ := h.idle
  have hpos : ¬ ((msqid : Int) < 0) := by omega
  have hcall : (machine P).next σ (.call t (.msgctl msqid .ipcStat (some buf) space) e) =
      some (σ.within t (.statLock msqid .ipcStat space)) := by
    simp only [machine, step, h.alive, hidle, enter, hpos, Int.toNat_natCast, State.within_eq,
      Option.isSome_none, Bool.false_eq_true, if_false]
  have hexec : (machine P).next (σ.within t (.statLock msqid .ipcStat space)) (.exec t e') =
      some (σ.within t (.idle (some (.stat 0 msq.stat)))) := by
    have hb := statBody_eq (σ := σ.within t (.statLock msqid .ipcStat space)) h.entry h.queue
      h.valid (by rw [State.within_cred]; exact h.reads) hcopy
    rw [next_exec (σ := σ.within t _) h.alive]
    simp only [exec, State.within_pc, hb, State.ret_eq, State.within_setPc]
  simp only [TSys.run, hcall, hexec, Option.bind_some]

/-- The queue that IPC_SET leaves. -/
def MsgQueue.set (msq : MsgQueue) (setbuf : MsqSetbuf) (now : Nat) : MsgQueue :=
  { msq with
    q_qbytes := setbuf.qbytes
    q_perm :=
      { msq.q_perm with
        uid := setbuf.uid
        gid := setbuf.gid
        mode := (msq.q_perm.mode &&& ~~~S_IRWXUGO) ||| (S_IRWXUGO &&& setbuf.mode) }
    q_ctime := now }

theorem ipcSet_queues (σ : State) (e : Env) (setbuf : MsqSetbuf) (hqueue : σ.queues q = some msq) :
    (ipcSet σ e q msq setbuf).queues q = some (msq.set setbuf e.now) := by
  unfold ipcSet
  rw [ss_wakeup_eq, expunge_all_eq]
  simp [hqueue, MsgQueue.set]

theorem ipcSet_oops (σ : State) (e : Env) (setbuf : MsqSetbuf) :
    (ipcSet σ e q msq setbuf).oops = σ.oops := by
  unfold ipcSet
  rw [ss_wakeup_eq, expunge_all_eq]
  rfl

/-- IPC_SET of a queue the caller may change. -/
theorem ctlBody_set {e : Env} {setbuf : MsqSetbuf} (hentry : ipc_lock σ.ids msqid = some q)
    (hqueue : σ.queues q = some msq) (hvalid : ipc_checkid msq.q_perm msqid = false)
    (howner : (σ.tasks t).cred.euid = msq.q_perm.cuid ∨ (σ.tasks t).cred.euid = msq.q_perm.uid ∨
      (σ.tasks t).cred.cap_sys_admin = true)
    (hlimit : setbuf.qbytes ≤ MSGMNB ∨ (σ.tasks t).cred.cap_sys_resource = true) :
    ctlBody σ t e ⟨msqid, .ipcSet, setbuf⟩ =
      (ipcSet σ e q msq setbuf).setPc t (.semUp (.ok 0)) := by
  unfold ctlBody
  simp only [hentry, hqueue]
  rw [if_neg (by simp [hvalid]), if_neg, if_pos trivial, if_neg]
  · rintro ⟨hgt, hcap⟩
    rcases hlimit with hle | hres
    · omega
    · simp [hres] at hcap
  · rintro ⟨hcuid, huid, hcap⟩
    rcases howner with hc | hu | ha
    · exact hcuid hc
    · exact huid hu
    · simp [ha] at hcap

/-- IPC_SET leaves the queue that `set` describes. -/
theorem set_run (h : MayStatSet P σ t msqid q msq) (space : Bool) (setbuf : MsqSetbuf)
    (e₁ e₂ e₃ e₄ : Env) (hcopy : (space && !e₁.copy) = false)
    (hlimit : setbuf.qbytes ≤ MSGMNB ∨ (σ.tasks t).cred.cap_sys_resource = true) :
    ∃ σ', (machine P).run σ [.call t (.msgctl msqid .ipcSet (some setbuf) space) e₁, .exec t e₂,
        .exec t e₃, .exec t e₄] = some σ' ∧
      σ'.queues q = some (msq.set setbuf e₃.now) ∧ (σ'.tasks t).pc = .idle (some (.ok 0)) := by
  obtain ⟨ret, hidle⟩ := h.idle
  have hpos : ¬ ((msqid : Int) < 0) := by omega
  let a : CtlArgs := ⟨msqid, .ipcSet, setbuf⟩
  have hcall : (machine P).next σ (.call t (.msgctl msqid .ipcSet (some setbuf) space) e₁) =
      some (σ.within t (.ctlDown a)) := by
    simp only [machine, step, h.alive, hidle, enter, hpos, Int.toNat_natCast, State.within_eq,
      hcopy, Option.isSome_none, Bool.false_eq_true, if_false]
    rfl
  let σ₁ : State := { σ.within t (.ctlLock a) with sem := some t }
  have hdown : (machine P).next (σ.within t (.ctlDown a)) (.exec t e₂) = some σ₁ := by
    have hfree : (σ.within t (.ctlDown a)).sem.isNone = true := by
      rw [show (σ.within t (.ctlDown a)).sem = none from h.free]
      rfl
    rw [next_exec (σ := σ.within t _) h.alive]
    simp only [exec, State.within_pc, down, hfree, if_true, σ₁]
    rw [← State.within_setPc σ t (.ctlDown a) (.ctlLock a)]
    rfl
  let σ₂ : State := (ipcSet σ₁ e₃ q msq setbuf).setPc t (.semUp (.ok 0))
  have hset : (machine P).next σ₁ (.exec t e₃) = some σ₂ := by
    have hcred : (σ₁.tasks t).cred = (σ.tasks t).cred := State.within_cred σ t _
    have hb := ctlBody_set (σ := σ₁) (t := t) (e := e₃) h.entry h.queue h.valid
      (by rw [hcred]; exact h.owner) (by rw [hcred]; exact hlimit)
    have hpc : (σ₁.tasks t).pc = .ctlLock a := State.within_pc σ t _
    rw [next_exec (σ := σ₁) h.alive]
    simp only [exec, hpc, a, hb, σ₂]
  have hup : (machine P).next σ₂ (.exec t e₄) = some ({ σ₂ with sem := none }.ret t (.ok 0)) := by
    have halive : σ₂.oops = none := (ipcSet_oops σ₁ e₃ setbuf).trans h.alive
    have hpc : (σ₂.tasks t).pc = .semUp (.ok 0) := by simp [σ₂]
    rw [next_exec halive]
    simp only [exec, hpc]
  refine ⟨{ σ₂ with sem := none }.ret t (.ok 0), ?_, ?_, by simp⟩
  · simp only [TSys.run, hcall, hdown, hset, hup, Option.bind_some]
  · exact ipcSet_queues σ₁ e₃ setbuf h.queue

/-! ## The converters -/

/-- The buffer that IPC_STAT fills, as IPC_SET reads it. -/
def MsgQueue.readBack (P : Params) (version : Version) (msq : MsgQueue) : MsqSetbuf :=
  copy_msqid_from_user P.longBits version (copy_msqid_to_user P.longBits version msq.stat)

/-- The nine permission bits. -/
theorem S_IRWXUGO_getLsbD (i : Nat) : S_IRWXUGO.getLsbD i = decide (i < 9) := by
  by_cases hi : i < 32
  · have hall : ∀ k : Fin 32, S_IRWXUGO.getLsbD k = decide ((k : Nat) < 9) := by decide
    exact hall ⟨i, hi⟩
  · rw [BitVec.getLsbD_of_ge _ _ (by omega), eq_comm, decide_eq_false_iff_not]
    omega

/-- IPC_SET changes the permission bits only. -/
theorem mode_kept {mode mode' : BitVec 32} (h : ∀ i < 9, mode'.getLsbD i = mode.getLsbD i) :
    (mode &&& ~~~S_IRWXUGO) ||| (S_IRWXUGO &&& mode') = mode := by
  apply BitVec.eq_of_getLsbD_eq
  intro i hi
  simp only [BitVec.getLsbD_or, BitVec.getLsbD_and, BitVec.getLsbD_not, S_IRWXUGO_getLsbD]
  by_cases h9 : i < 9
  · simp [h9, h i h9]
  · simp [h9, hi]

/-- The permission bits survive both layouts. -/
theorem readBack_mode (version : Version) {i : Nat} (hi : i < 9) :
    (msq.readBack P version).mode.getLsbD i = msq.q_perm.mode.getLsbD i := by
  cases version with
  | IPC_64 => rfl
  | IPC_OLD =>
      change ((msq.q_perm.mode.setWidth 16).setWidth 32).getLsbD i = _
      simp only [BitVec.getLsbD_setWidth]
      rw [decide_eq_true (by omega : i < 32), decide_eq_true (by omega : i < 16)]
      rfl

/-- The owner survives both layouts. -/
theorem readBack_owner (version : Version) (huid : msq.q_perm.uid < 2 ^ 16)
    (hgid : msq.q_perm.gid < 2 ^ 16) :
    (msq.readBack P version).uid = msq.q_perm.uid ∧
      (msq.readBack P version).gid = msq.q_perm.gid := by
  cases version with
  | IPC_64 => exact ⟨rfl, rfl⟩
  | IPC_OLD =>
      refine ⟨?_, ?_⟩
      · change (BitVec.ofNat 16 msq.q_perm.uid).toNat = msq.q_perm.uid
        rw [BitVec.toNat_ofNat, Nat.mod_eq_of_lt huid]
      · change (BitVec.ofNat 16 msq.q_perm.gid).toNat = msq.q_perm.gid
        rw [BitVec.toNat_ofNat, Nat.mod_eq_of_lt hgid]

/-- The limit that comes back: the old layout has 65535 in place of what it cannot hold. -/
theorem readBack_qbytes (version : Version) (hpos : 0 ≤ msq.q_qbytes)
    (hlong : msq.q_qbytes < 2 ^ P.longBits) :
    ((msq.readBack P version).qbytes : Int) =
      if version = .IPC_OLD ∧ USHRT_MAX < msq.q_qbytes then (USHRT_MAX : Int)
      else msq.q_qbytes := by
  cases version with
  | IPC_64 =>
      rw [if_neg (by rintro ⟨hv, -⟩; cases hv)]
      exact Int.toNat_of_nonneg hpos
  | IPC_OLD =>
      obtain ⟨n, hn⟩ := Int.eq_ofNat_of_zero_le hpos
      change ((if saturate msq.q_qbytes = 0 then (BitVec.ofInt P.longBits msq.q_qbytes).toNat
        else (saturate msq.q_qbytes).toNat : Nat) : Int) = _
      unfold saturate
      rw [hn] at hlong ⊢
      have hlong' : n < 2 ^ P.longBits := by exact_mod_cast hlong
      by_cases hbig : (n : Int) > USHRT_MAX
      · rw [if_pos hbig, if_neg (by decide), if_pos ⟨rfl, hbig⟩]
        rfl
      · have hsmall : n < 2 ^ 16 := by
          unfold USHRT_MAX at hbig
          omega
        have hcond : ¬ (Version.IPC_OLD = Version.IPC_OLD ∧ (USHRT_MAX : Int) < n) :=
          fun hc => hbig hc.2
        rw [if_neg hbig, if_neg hcond, BitVec.ofInt_natCast, BitVec.ofInt_natCast]
        split
        · rw [BitVec.toNat_ofNat, Nat.mod_eq_of_lt hlong']
        · rw [BitVec.toNat_ofNat, Nat.mod_eq_of_lt hsmall]

/-! ## Reading and writing back -/

/-- Two versions of a queue with the same limit, owner and mode. -/
def MsgQueue.SameSettings (msq msq' : MsgQueue) : Prop :=
  msq'.q_qbytes = msq.q_qbytes ∧ msq'.q_perm.uid = msq.q_perm.uid ∧
    msq'.q_perm.gid = msq.q_perm.gid ∧ msq'.q_perm.mode = msq.q_perm.mode

instance (msq msq' : MsgQueue) : Decidable (msq.SameSettings msq') :=
  inferInstanceAs (Decidable (_ ∧ _ ∧ _ ∧ _))

/-- Only the limit can differ, and it differs where the old layout could not hold it. -/
theorem set_readBack_iff (h : MayStatSet P σ t msqid q msq) (version : Version) (now : Nat) :
    msq.SameSettings (msq.set (msq.readBack P version) now) ↔
      version = .IPC_64 ∨ msq.q_qbytes ≤ USHRT_MAX := by
  obtain ⟨huid, hgid⟩ := readBack_owner (P := P) version h.ids16.1 h.ids16.2
  have hbits : ∀ i < 9,
      (msq.readBack P version).mode.getLsbD i = msq.q_perm.mode.getLsbD i :=
    fun i hi => readBack_mode version hi
  have hmode := mode_kept hbits
  have hqbytes := readBack_qbytes version h.qbytes.1 h.qbytes.2
  have hsame : msq.SameSettings (msq.set (msq.readBack P version) now) ↔
      ((msq.readBack P version).qbytes : Int) = msq.q_qbytes :=
    ⟨fun hs => hs.1, fun hq => ⟨hq, huid, hgid, hmode⟩⟩
  rw [hsame, hqbytes]
  cases version with
  | IPC_64 => simp
  | IPC_OLD =>
      constructor
      · intro heq
        right
        by_contra hbig
        rw [if_pos ⟨rfl, by omega⟩] at heq
        omega
      · intro hle
        have hfits : msq.q_qbytes ≤ USHRT_MAX := hle.resolve_left nofun
        rw [if_neg]
        rintro ⟨-, hbig⟩
        omega

/-- What IPC_SET is handed is no more than the caller may ask for. -/
theorem readBack_limit (h : MayStatSet P σ t msqid q msq) (version : Version) :
    (msq.readBack P version).qbytes ≤ MSGMNB ∨ (σ.tasks t).cred.cap_sys_resource = true := by
  refine h.limit.imp_left fun hle => ?_
  have hqbytes := readBack_qbytes version h.qbytes.1 h.qbytes.2
  split at hqbytes
  · omega
  · omega

/-- The caller after IPC_STAT may still do both. -/
theorem MayStatSet.within (h : MayStatSet P σ t msqid q msq) (ret : Option Ret) :
    MayStatSet P (σ.within t (.idle ret)) t msqid q msq where
  alive := h.alive
  idle := ⟨ret, State.within_pc σ t _⟩
  free := h.free
  entry := h.entry
  queue := h.queue
  valid := h.valid
  reads := by rw [State.within_cred]; exact h.reads
  owner := by rw [State.within_cred]; exact h.owner
  limit := by rw [State.within_cred]; exact h.limit
  qbytes := h.qbytes
  ids16 := h.ids16

/-- Both calls succeed, and the queue keeps its limit, its owner and its mode exactly if the
buffer is not of the old layout or the limit fits into 16 bits. -/
theorem statThenSet_neutral_iff (P : Params) (σ : State) (t : Tid) (msqid : Nat) (q : QId)
    (msq : MsgQueue) (version : Version) (space : Bool) (buf : MsqSetbuf) (e : Nat → Env)
    (h : MayStatSet P σ t msqid q msq) (hcopy : ∀ i, (space && !(e i).copy) = false) :
    ∃ σ' msq', statThenSet P σ t msqid version space buf e = some σ' ∧
      (σ'.tasks t).pc = .idle (some (.ok 0)) ∧ σ'.queues q = some msq' ∧
      (msq.SameSettings msq' ↔ version = .IPC_64 ∨ msq.q_qbytes ≤ USHRT_MAX) := by
  have hstat := stat_run h space buf (e 0) (e 1) (hcopy 1)
  have h' := h.within (some (.stat 0 msq.stat))
  obtain ⟨σ', hset, hqueue, hpc⟩ := set_run h' space (msq.readBack P version) (e 2) (e 3) (e 4)
    (e 5) (hcopy 2) (readBack_limit h' version)
  refine ⟨σ', _, ?_, hpc, hqueue, set_readBack_iff h version _⟩
  unfold statThenSet
  rw [hstat, Option.bind_some]
  simp only [State.within_pc]
  exact hset

/-! ## A limit of 100000 -/

/-- All tasks run as the superuser. -/
def rootCred (t : Tid) : Cred := ⟨t, 0, 0, (· == 0), true, true, true⟩

/-- A task creates a private queue and raises its limit with IPC_SET. -/
def raiseLimit : List Label :=
  createQueue 0 ++ .call 0 (.msgctl 0 .ipcSet (some ⟨100000, 0, 0, 0o600#32⟩) false) demoEnv ::
    List.replicate 3 (.exec 0 demoEnv)

/-- The state it leaves. -/
def raised : State :=
  ((machine demoParams).run (initState demoParams rootCred) raiseLimit).getD
    (initState demoParams rootCred)

/-- The queue in it. -/
def raisedQueue : MsgQueue :=
  { newMsq (rootCred 0) demoEnv IPC_PRIVATE 0o600#32 0 with q_qbytes := 100000 }

theorem raised_reachable : (machine demoParams).Reachable raised := by
  have hrun : (machine demoParams).run (initState demoParams rootCred) raiseLimit =
      some raised := rfl
  exact .of_run ⟨rootCred, rfl⟩ hrun

theorem raised_may : MayStatSet demoParams raised 0 0 0 raisedQueue where
  alive := rfl
  idle := ⟨_, rfl⟩
  free := rfl
  entry := rfl
  queue := rfl
  valid := rfl
  reads := rfl
  owner := .inl rfl
  limit := .inr rfl
  qbytes := by decide
  ids16 := by decide

theorem statThenSet_neutral_raised :
    ∃ σ' msq', statThenSet demoParams raised 0 0 .IPC_64 true ⟨0, 0, 0, 0#32⟩ (fun _ => demoEnv) =
        some σ' ∧
      (σ'.tasks 0).pc = .idle (some (.ok 0)) ∧ σ'.queues 0 = some msq' ∧
      (raisedQueue.SameSettings msq' ↔
        Version.IPC_64 = .IPC_64 ∨ raisedQueue.q_qbytes ≤ USHRT_MAX) :=
  statThenSet_neutral_iff demoParams raised 0 0 0 raisedQueue .IPC_64 true ⟨0, 0, 0, 0#32⟩
    (fun _ => demoEnv) raised_may (fun _ => rfl)

/-- Through the old layout the limit comes back as 65535. -/
theorem old_layout_cuts_limit : ¬ ∀ σ t msqid q msq version space buf e,
    (machine demoParams).Reachable σ → MayStatSet demoParams σ t msqid q msq →
    (∀ i, (space && !(e i).copy) = false) →
    ∃ σ' msq', statThenSet demoParams σ t msqid version space buf e = some σ' ∧
      σ'.queues q = some msq' ∧ msq.SameSettings msq' := by
  intro hclaim
  obtain ⟨σ', msq', hrun, hqueue, hsame⟩ := hclaim raised 0 0 0 raisedQueue .IPC_OLD true
    ⟨0, 0, 0, 0#32⟩ (fun _ => demoEnv) raised_reachable raised_may (fun _ => rfl)
  have hcut : (statThenSet demoParams raised 0 0 .IPC_OLD true ⟨0, 0, 0, 0#32⟩
      (fun _ => demoEnv)).map (fun σ => (σ.queues 0).map (·.q_qbytes)) = some (some 65535) := rfl
  rw [hrun, Option.map_some, hqueue] at hcut
  have hlimit : msq'.q_qbytes = 65535 := by simpa using hcut
  have hkept : msq'.q_qbytes = 100000 := hsame.1
  omega

end RtaiDemos.Sysvmsg
