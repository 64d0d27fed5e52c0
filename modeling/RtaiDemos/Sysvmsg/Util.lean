import RtaiDemos.Sysvmsg.Types

/-!
# The identifier table (`util.c`, `util.h`)

`ipc_init_ids`, `ipc_findkey`, `grow_ary`, `ipc_addid`, `ipc_rmid`,
`ipc_lock`, `ipc_buildid`, `ipc_checkid` and `ipcperms`. A table entry is a
pointer to the `kern_ipc_perm` at the head of a queue, so the functions that
look through it take the heap of permission records as an argument.
-/

namespace RtaiDemos.Sysvmsg

/-- `ipc_init_ids`: the table is empty; `alloc` tells whether `ipc_alloc`
succeeded. -/
def ipc_init_ids (size : Nat) (alloc : Bool) : IpcIds :=
  let size := if size > IPCMNI then IPCMNI else size
  let seq_limit := INT_MAX / SEQ_MULTIPLIER
  { in_use := 0
    max_id := -1
    seq := 0
    seq_max := if seq_limit > USHRT_MAX then USHRT_MAX else seq_limit
    entries := if alloc then List.replicate size none else [] }

/-- `ids->entries[id].p`, NULL outside the table. -/
def IpcIds.entry (ids : IpcIds) (id : Nat) : Option QId :=
  ids.entries.getD id none

/-- `ipc_findkey`: the first index up to `max_id` whose queue has the key. -/
def ipc_findkey (ids : IpcIds) (perm : QId → Option KernIpcPerm) (key : Int) : Option Nat :=
  (List.range (ids.max_id + 1).toNat).find? fun id =>
    match ids.entry id with
    | none => false
    | some p => (perm p).any fun p => key == p.key

/-- `grow_ary`: the table and the size to search. `alloc` tells whether
`ipc_alloc` succeeded. -/
def grow_ary (ids : IpcIds) (newsize : Nat) (alloc : Bool) : IpcIds × Nat :=
  let newsize := if newsize > IPCMNI then IPCMNI else newsize
  if newsize ≤ ids.size then (ids, newsize)
  else if !alloc then (ids, ids.size)
  else ({ ids with
          entries := ids.entries ++ List.replicate (newsize - ids.size) none }, newsize)

/-- The first free slot below `size`. -/
def IpcIds.freeSlot (ids : IpcIds) (size : Nat) : Option Nat :=
  (List.range size).find? fun id => (ids.entry id).isNone

/-- `ids->seq++` on an `unsigned short`, and the wrap to 0 past `seq_max`. -/
def IpcIds.nextSeq (ids : IpcIds) : Nat :=
  let seq := (ids.seq + 1) % (USHRT_MAX + 1)
  if seq > ids.seq_max then 0 else seq

/-- `ipc_addid` after `grow_ary`: the table with `new` in the first free slot,
that slot, and the sequence number given to `new`. -/
def ipc_addid (ids : IpcIds) (new : QId) (size : Nat) : Option (IpcIds × Nat × Nat) :=
  match ids.freeSlot size with
  | none => none
  | some id =>
    some ({ ids with
            in_use := ids.in_use + 1
            max_id := if (id : Int) > ids.max_id then id else ids.max_id
            seq := ids.nextSeq
            entries := ids.entries.set id (some new) }, id, ids.seq)

/-- The `do … while` of `ipc_rmid`: the last used index below `lid`, or -1. -/
def scanDown (ids : IpcIds) : Nat → Int
  | 0 => -1
  | lid + 1 => if (ids.entry lid).isNone then scanDown ids lid else lid

/-- `ipc_rmid`; `none` stands for its two `BUG()`s. -/
def ipc_rmid (ids : IpcIds) (id : Nat) : Option (IpcIds × QId) :=
  let lid := id % SEQ_MULTIPLIER
  if lid ≥ ids.size then none
  else match ids.entry lid with
    | none => none
    | some p =>
      let ids := { ids with entries := ids.entries.set lid none, in_use := ids.in_use - 1 }
      some (if (lid : Int) = ids.max_id then { ids with max_id := scanDown ids lid }
            else ids, p)

/-- `ipc_lock`: the queue in the slot of `id`, NULL if there is none. -/
def ipc_lock (ids : IpcIds) (id : Nat) : Option QId :=
  let lid := id % SEQ_MULTIPLIER
  if lid ≥ ids.size then none else ids.entry lid

/-- `ipc_buildid`. -/
def ipc_buildid (id seq : Nat) : Nat := SEQ_MULTIPLIER * seq + id

/-- `ipc_checkid`: true when the identifier is stale. -/
def ipc_checkid (ipcp : KernIpcPerm) (uid : Nat) : Bool :=
  uid / SEQ_MULTIPLIER != ipcp.seq

/-- `ipcperms`: true when access is refused. `flag` is a `short`. -/
def ipcperms (cur : Cred) (ipcp : KernIpcPerm) (flag : BitVec 32) : Bool :=
  let flag : BitVec 32 := (flag.truncate 16).signExtend 32
  let requested_mode := flag.sshiftRight 6 ||| flag.sshiftRight 3 ||| flag
  let granted_mode :=
    if cur.euid = ipcp.cuid ∨ cur.euid = ipcp.uid then ipcp.mode >>> 6
    else if cur.in_group_p ipcp.cgid || cur.in_group_p ipcp.gid then ipcp.mode >>> 3
    else ipcp.mode
  requested_mode &&& ~~~granted_mode &&& 7#32 != 0#32 && !cur.cap_ipc_owner

end RtaiDemos.Sysvmsg
