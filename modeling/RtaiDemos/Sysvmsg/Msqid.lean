import RtaiDemos.Sysvmsg.Machine

/-!
# The two layouts of `msqid_ds` (`copy_msqid_to_user`, `copy_msqid_from_user`)

The machine hands IPC_STAT's answer over as a `msqid64_ds` and takes IPC_SET's
argument as a `msq_setbuf`. Between them and the caller's buffer stand the two
converters, for the version of the structures that `ipc_parse_version` found.
`longBits` is the width of `unsigned long`; the fields of the old layout are
`unsigned short` but for the two that were added behind them.
-/

namespace RtaiDemos.Sysvmsg

/-- What `ipc_parse_version` returns. -/
inductive Version
  | IPC_64 | IPC_OLD
  deriving DecidableEq, Repr

/-- `struct ipc_perm` -/
structure IpcPerm where
  key : Int
  uid : BitVec 16
  gid : BitVec 16
  cuid : BitVec 16
  cgid : BitVec 16
  mode : BitVec 16
  seq : BitVec 16
  deriving DecidableEq, Repr

/-- `struct msqid_ds` -/
structure MsqidDs (longBits : Nat) where
  msg_perm : IpcPerm
  msg_stime : Nat
  msg_rtime : Nat
  msg_ctime : Nat
  msg_lcbytes : BitVec longBits
  msg_lqbytes : BitVec longBits
  msg_cbytes : BitVec 16
  msg_qnum : BitVec 16
  msg_qbytes : BitVec 16
  msg_lspid : BitVec 16
  msg_lrpid : BitVec 16
  deriving DecidableEq, Repr

/-- What the caller's buffer holds. -/
def UserBuf (longBits : Nat) : Version → Type
  | .IPC_64 => Msqid64Ds
  | .IPC_OLD => MsqidDs longBits

/-- `ipc64_perm_to_ipc_perm` -/
def ipc64_perm_to_ipc_perm (p : KernIpcPerm) : IpcPerm where
  key := p.key
  uid := BitVec.ofNat 16 p.uid
  gid := BitVec.ofNat 16 p.gid
  cuid := BitVec.ofNat 16 p.cuid
  cgid := BitVec.ofNat 16 p.cgid
  mode := p.mode.setWidth 16
  seq := BitVec.ofNat 16 p.seq

/-- The assignment to a field of the old layout that may be too small. -/
def saturate (x : Int) : BitVec 16 :=
  if x > USHRT_MAX then BitVec.ofNat 16 USHRT_MAX else BitVec.ofInt 16 x

/-- `copy_msqid_to_user`, when the copy succeeds. -/
def copy_msqid_to_user (longBits : Nat) : (version : Version) → Msqid64Ds → UserBuf longBits version
  | .IPC_64, buf => buf
  | .IPC_OLD, buf =>
    ({ msg_perm := ipc64_perm_to_ipc_perm buf.msg_perm
       msg_stime := buf.msg_stime
       msg_rtime := buf.msg_rtime
       msg_ctime := buf.msg_ctime
       msg_cbytes := saturate buf.msg_cbytes
       msg_lcbytes := BitVec.ofInt longBits buf.msg_cbytes
       msg_qnum := saturate buf.msg_qnum
       msg_qbytes := saturate buf.msg_qbytes
       msg_lqbytes := BitVec.ofInt longBits buf.msg_qbytes
       msg_lspid := BitVec.ofNat 16 buf.msg_lspid
       msg_lrpid := BitVec.ofNat 16 buf.msg_lrpid } : MsqidDs longBits)

/-- `copy_msqid_from_user`, when the copy succeeds. -/
def copy_msqid_from_user (longBits : Nat) : (version : Version) → UserBuf longBits version → MsqSetbuf
  | .IPC_64, (buf : Msqid64Ds) =>
    { qbytes := buf.msg_qbytes.toNat
      uid := buf.msg_perm.uid
      gid := buf.msg_perm.gid
      mode := buf.msg_perm.mode }
  | .IPC_OLD, (buf : MsqidDs longBits) =>
    { uid := buf.msg_perm.uid.toNat
      gid := buf.msg_perm.gid.toNat
      mode := buf.msg_perm.mode.setWidth 32
      qbytes := if buf.msg_qbytes = 0 then buf.msg_lqbytes.toNat else buf.msg_qbytes.toNat }

/-- A caller asks for IPC_STAT, and hands the buffer back with IPC_SET as it is. -/
def statThenSet (P : Params) (σ : State) (t : Tid) (msqid : Nat) (version : Version) (space : Bool)
    (buf : MsqSetbuf) (e : Nat → Env) : Option State :=
  ((machine P).run σ [.call t (.msgctl msqid .ipcStat (some buf) space) (e 0), .exec t (e 1)]).bind
    fun σ =>
    match (σ.tasks t).pc with
    | .idle (some (.stat _ tbuf)) =>
      let setbuf := copy_msqid_from_user P.longBits version
        (copy_msqid_to_user P.longBits version tbuf)
      (machine P).run σ [.call t (.msgctl msqid .ipcSet (some setbuf) space) (e 2), .exec t (e 3),
        .exec t (e 4), .exec t (e 5)]
    | _ => none

end RtaiDemos.Sysvmsg
