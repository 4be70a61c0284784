-- SUMMARY: The handlers that execute file operations on the remote device, and their table.
import Netdev.Kernel.FoComm
import Netdev.Kernel.FoStruct

/-!
# Handlers

The functions of `kernel/fo_recv.c`. A handler reads the args struct of a request,
calls the device, and stores the results in the struct. A call through a null
function pointer, like every null dereference, is a fault.
-/

namespace Netdev.Kernel
open Base

/-! ## The remote device -/

/-- What the device's `read` does with a buffer of `n` bytes. -/
structure ReadResult (n : Nat) where
  rvalue : Int64
  offset : Int64
  data : { buf : Bytes // buf.length = n }

structure WriteResult where
  rvalue : Int64
  offset : Int64

/-- `struct file_operations`, as far as the handlers use it; `none` is NULL. `nullRead` is
what `read` does with a null pointer and this size and offset: its result and the new
offset, or `none` when it follows the pointer. -/
structure FileOperations where
  llseek : Option (Int64 → Int32 → Int64)
  read : Option ((buf : Bytes) → Int64 → ReadResult buf.length)
  write : Option (Bytes → Int64 → WriteResult)
  unlockedIoctl : Option (UInt32 → UInt64 → Int64)
  compatIoctl : Option (UInt32 → UInt64 → Int64)
  flush : Option Int32
  nullRead : UInt64 → Int64 → Option (Int64 × Int64) := fun _ _ => none

/-- An open file: its operations, and what `filp_close` returns. -/
structure File where
  fOp : Option FileOperations
  close : Int32

/-- The server's `struct fo_access`, as far as the handlers use it. -/
structure ServerAccess where
  filp : Option File

/-- What the handlers get from outside: the result of `filp_open`, and whether
`kzalloc` succeeds. -/
structure HandlerEnv where
  filpOpen : Except Int32 File
  dataOk : Bool

/-- A pointer that is followed. -/
def follow {α : Type} : Option α → Mem α
  | some a => .ok a
  | none => .error .nullDeref

@[simp] theorem follow_some {α : Type} (a : α) : follow (some a) = .ok a := rfl

/-- `acc->filp->f_op`. -/
def ServerAccess.fOp (acc : ServerAccess) : Mem FileOperations := do
  let filp ← follow acc.filp
  follow filp.fOp

/-- The first `size` bytes at a pointer, handed to the device. -/
def region (data : Ptr) (size : UInt64) : Mem Bytes :=
  match data with
  | some buf => if size.toNat ≤ buf.length then .ok (buf.take size.toNat) else .error .outOfBounds
  | none => if size = 0 then .ok [] else .error .nullDeref

abbrev HandlerResult := Int32 × ServerAccess × FoReq

abbrev FoHandler := HandlerEnv → ServerAccess → FoReq → Mem HandlerResult

/-! ## The handlers -/

def ndfoRecvLlseek : FoHandler := fun _ acc req => do
  let ops ← acc.fOp
  match ops.llseek with
  | none => return (-1, acc, req)
  | some llseek => do
      let args ← deref req.args
      let offset ← SFoLlseek.offsetField.load args
      let whence ← SFoLlseek.whenceField.load args
      let args ← SFoLlseek.rvalueField.store args (llseek offset whence)
      return (0, acc, { req with args := some args })

/-- `f_op->read` with the pointer that `kzalloc` has returned. -/
def readInto (ops : FileOperations) (read : (buf : Bytes) → Int64 → ReadResult buf.length) (data : Ptr)
    (size : UInt64) (offset : Int64) : Mem (Int64 × Int64 × Ptr) :=
  match data with
  | some buf =>
      let result := read buf offset
      .ok (result.rvalue, result.offset, some result.data.val)
  | none => do
      let (rvalue, offset) ← follow (ops.nullRead size offset)
      return (rvalue, offset, none)

/-- What `kzalloc` has returned is not looked at. -/
def ndfoRecvRead : FoHandler := fun env acc req => do
  let args ← deref req.args
  let size ← SFoRead.sizeField.load args
  let data := zalloc env.dataOk size.toNat
  let ops ← acc.fOp
  let read ← follow ops.read
  let offset ← SFoRead.offsetField.load args
  let (rvalue, offset, data) ← readInto ops read data size offset
  let args ← SFoRead.offsetField.store args offset
  let args ← SFoRead.rvalueField.store args rvalue
  return (0, acc, { req with args := some args, data, dataSize := size })

/-- The arguments are there before the call. -/
def ndfoRecvWrite : FoHandler := fun _ acc req => do
  let args ← deref req.args
  let ops ← acc.fOp
  let size ← SFoRead.sizeField.load args
  let write ← follow ops.write
  let offset ← SFoRead.offsetField.load args
  let result := write (← region req.data size) offset
  let args ← SFoRead.offsetField.store args result.offset
  let args ← SFoRead.rvalueField.store args result.rvalue
  -- the written data is not sent back
  return (0, acc, { req with args := some args, data := none, dataSize := 0 })

/-- The result is stored, but the handler reports failure. -/
def ndfoRecvUnlockedIoctl : FoHandler := fun _ acc req => do
  let args ← deref req.args
  let ops ← acc.fOp
  let cmd ← SFoUnlockedIoctl.cmdField.load args
  let arg ← SFoUnlockedIoctl.argField.load args
  let ioctl ← follow ops.unlockedIoctl
  let args ← SFoUnlockedIoctl.rvalueField.store args (ioctl cmd arg)
  return (-1, acc, { req with args := some args })

def ndfoRecvCompatIoctl : FoHandler := fun _ acc req => do
  let args ← deref req.args
  let ops ← acc.fOp
  let cmd ← SFoUnlockedIoctl.cmdField.load args
  let arg ← SFoUnlockedIoctl.argField.load args
  let ioctl ← follow ops.compatIoctl
  let args ← SFoUnlockedIoctl.rvalueField.store args (ioctl cmd arg)
  return (0, acc, { req with args := some args })

/-- An error pointer in `acc->filp` is not followed again. -/
def ndfoRecvOpen : FoHandler := fun env _ req =>
  match env.filpOpen with
  | .error _ => return (-1, ⟨none⟩, req)
  | .ok filp =>
      if filp.fOp.isNone then
        return (-1, ⟨some filp⟩, req)
      else do
        let args ← deref req.args
        let args ← SFoOpen.rvalueField.store args 0
        return (0, ⟨some filp⟩, { req with args := some args })

def ndfoRecvFlush : FoHandler := fun _ acc req => do
  let ops ← acc.fOp
  match ops.flush with
  | none => return (-1, acc, req)
  | some rvalue => do
      let args ← deref req.args
      let args ← SFoRelease.rvalueField.store args rvalue
      return (0, acc, { req with args := some args })

def ndfoRecvRelease : FoHandler := fun _ acc req => do
  let filp ← follow acc.filp
  let args ← deref req.args
  let args ← SFoRelease.rvalueField.store args filp.close
  return (0, acc, { req with args := some args })

/-- The operations that only report failure. -/
def refuse : FoHandler := fun _ acc req => return (-1, acc, req)

def ndfoRecvPoll : FoHandler := refuse
def ndfoRecvFsync : FoHandler := refuse
def ndfoRecvFasync : FoHandler := refuse
def ndfoRecvCheckFlags : FoHandler := refuse
def ndfoRecvFlock : FoHandler := refuse
def ndfoRecvSetlease : FoHandler := refuse
def ndfoRecvFallocate : FoHandler := refuse
def ndfoRecvShowFdinfo : FoHandler := refuse

/-- The table that `fo_execute` indexes with `msgtype - (MSGT_FO_START + 1)`. -/
def netdevRecvFops : List (Option FoHandler) :=
  [ some ndfoRecvLlseek,
    some ndfoRecvRead,
    some ndfoRecvWrite,
    none,
    none,
    none,
    some ndfoRecvPoll,
    some ndfoRecvUnlockedIoctl,
    some ndfoRecvCompatIoctl,
    none,
    some ndfoRecvOpen,
    some ndfoRecvFlush,
    some ndfoRecvRelease,
    some ndfoRecvFsync,
    none,
    some ndfoRecvFasync,
    none,
    none,
    none,
    some ndfoRecvCheckFlags,
    some ndfoRecvFlock,
    none,
    none,
    some ndfoRecvSetlease,
    some ndfoRecvFallocate,
    some ndfoRecvShowFdinfo ]

/-- The handler for a message type; an index outside the table is a fault. -/
def foHandler (msgtype : Int32) : Mem (Option FoHandler) :=
  match netdevRecvFops[(msgtype - (MSGT_FO_START + 1)).toNatClampNeg]? with
  | some fofun => .ok fofun
  | none => .error .outOfBounds

end Netdev.Kernel
