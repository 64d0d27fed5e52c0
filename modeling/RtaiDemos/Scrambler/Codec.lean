import Mathlib.Algebra.Order.Ring.Int
import Mathlib.Logic.Function.Basic
import RtaiDemos.Core.Buffer

/-!
# The net-RPC scrambler

`encode` and `decode` of `scrambler.c`. A size is an `int`, the arithmetic on it
is done in `unsigned long` because of `sizeof(long)`, and results are cut back
to `int`; all conversions are explicit here. The buffer is a list of words, and
an access outside it makes the function `none`.
-/

namespace RtaiDemos.Scrambler

/-- What the code depends on of the C implementation. -/
structure Abi where
  sizeofLong : Nat
  intBits : Nat
  long_ge : 4 ≤ sizeofLong
  int_ge : 16 ≤ intBits
  int_le : intBits ≤ 8 * sizeofLong

/-- Bits of a `long`. -/
def Abi.longBits (A : Abi) : Nat := 8 * A.sizeofLong

/-- `int`. -/
abbrev CInt (A : Abi) := BitVec A.intBits

/-- `long` and `unsigned long`. -/
abbrev Word (A : Abi) := BitVec A.longBits

variable {A : Abi}

/-- `sizeof(long)`, an `unsigned long`. -/
def sizeofLong : Word A := BitVec.ofNat A.longBits A.sizeofLong

/-- The conversion of an `int` to `long` or `unsigned long`. -/
def ofCInt (x : CInt A) : Word A := x.signExtend A.longBits

/-- The conversion of a `long` or `unsigned long` to `int`. -/
def toCInt (x : Word A) : CInt A := x.setWidth A.intBits

/-- The messages of net_rpc, by who sends and who gets them. -/
inductive Where
  | PRT_REQ | PRT_SRV | PRT_RTR | PRT_RCV | RPC_REQ | RPC_SRV | RPC_RTR | RPC_RCV
  deriving DecidableEq, Repr

/-- The macros of `rtai_netrpc.h`, and the functions of
`rt_net_rpc_fun_hook[0]` as `int`s. -/
structure NetRpc (A : Abi) where
  EXT : Word A → Bool
  FUN : Word A → CInt A
  PORT : Word A → Word A
  TIMED : Word A → Word A
  PACKPORT : Word A → Word A → Word A → Word A → Word A
  funHook : CInt A → CInt A

/-- `struct portslot_t`, what the two functions read of it. -/
structure PortSlot (A : Abi) where
  indx : CInt A
  socket : Fin 2 → CInt A
  hard : Fin 2

/-- The table `type`, indexed by `where - 2`. -/
def type : Where → Option String
  | .PRT_SRV => some "PRT_SRV"
  | .PRT_RCV => some "PRT_RCV"
  | .RPC_SRV => some "RPC_SRV"
  | .RPC_RCV => some "RPC_RCV"
  | _ => none

/-- What `rt_printk` is given after "CHECKSUM ERROR". -/
structure ChecksumError (A : Abi) where
  indx : CInt A
  socket : CInt A
  type : Option String
  new : Word A
  old : Word A

/-- What `encode` leaves: the message, `funindx`, and its result. -/
structure Encoded (A : Abi) where
  msg : List (Word A)
  funindx : CInt A → CInt A
  size : CInt A

/-- What `decode` leaves: the message, the printed error, `fun_args[9]` of the
task if it is set, and its result. -/
structure Decoded (A : Abi) where
  msg : List (Word A)
  error : Option (ChecksumError A)
  fun_args9 : Option (CInt A)
  size : CInt A

/-- `XTOLONGSIZE(size)`. -/
def XTOLONGSIZE (size : CInt A) : Word A := (ofCInt size + sizeofLong - 1) / sizeofLong

/-- `memfrob`. Its loop counter is an `int` and must not run past `INT_MAX`. -/
def memfrob (Key : Word A) (msg : List (Word A)) (size : CInt A) : Option (List (Word A)) :=
  let n := (XTOLONGSIZE size).toNat
  if 2 ^ (A.intBits - 1) ≤ n then none else Buffer.update (· ^^^ Key) 0 n msg

/-- `chksum`: the message, `*previous` if it is asked for, and the sum. The store
at the end is to the word that was read for `*previous`. -/
def chksum (msg : List (Word A)) (size : CInt A) (previous : Bool) :
    Option (List (Word A) × Option (Word A) × Word A) := do
  let n := (XTOLONGSIZE size).toNat
  let old := if previous then msg[n]? else none
  let s ← Buffer.fold (· + ·) 0 n 0 msg
  let msg ← Buffer.store msg n s
  return (msg, old, s)

/-- `encode`. -/
def encode (N : NetRpc A) (Key : Word A) (funindx : CInt A → CInt A) (portslotp : PortSlot A)
    (msg : List (Word A)) (size : CInt A) (w : Where) : Option (Encoded A) :=
  if w = .PRT_REQ ∨ w = .PRT_RTR then do
    let (msg, _) ← chksum msg (toCInt (ofCInt size - sizeofLong)) false
    let msg ← memfrob Key msg size
    return ⟨msg, Function.update funindx 0 (-1), size⟩
  else do
    let msg ← Buffer.store msg (XTOLONGSIZE size).toNat (ofCInt size)
    let size := toCInt (XTOLONGSIZE size * sizeofLong + sizeofLong)
    let (msg, _) ← chksum msg size false
    let size := toCInt (ofCInt size + sizeofLong)
    let msg4 ← msg[4]?
    let funindx := if N.EXT msg4 then funindx
      else Function.update funindx portslotp.indx (N.FUN msg4 + 1)
    let msg ← memfrob Key msg size
    return ⟨msg, funindx, size⟩

/-- The size `decode` goes on with: an RPC frame carries its own. -/
def carriedSize (msg : List (Word A)) (size : CInt A) (w : Where) : Option (CInt A) :=
  if w = .RPC_SRV ∨ w = .RPC_RCV then
    msg[(ofCInt size / sizeofLong - 2).toNat]?.map toCInt
  else some size

/-- The `switch` of `decode`: the message and `fun_args[9]`. -/
def serve (N : NetRpc A) (msg : List (Word A)) : Where → Option (List (Word A) × Option (CInt A))
  | .RPC_SRV => do
    let msg4 ← msg[4]?
    let fun_args9 := N.funHook (N.FUN msg4)
    if N.EXT msg4 then return (msg, some fun_args9)
    else do
      let msg ← Buffer.store msg 4 (N.PACKPORT (N.PORT msg4) 1 0 (N.TIMED msg4))
      return (msg, some fun_args9)
  | _ => some (msg, none)

/-- `decode`. -/
def decode (N : NetRpc A) (Key : Word A) (portslotp : PortSlot A) (msg : List (Word A))
    (size : CInt A) (w : Where) : Option (Decoded A) := do
  let msg ← memfrob Key msg size
  let (msg, old, new) ← chksum msg (toCInt (ofCInt size - sizeofLong)) true
  let size ← carriedSize msg size w
  let error := if some new ≠ old then
      some { indx := portslotp.indx, socket := portslotp.socket portslotp.hard, type := type w,
             new := new, old := old.getD 0 }
    else none
  let (msg, fun_args9) ← serve N msg w
  return ⟨msg, error, fun_args9, size⟩

end RtaiDemos.Scrambler
