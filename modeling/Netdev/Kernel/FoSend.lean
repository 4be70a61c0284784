-- SUMMARY: The requests that the `ndfo_send_*` functions of the dummy device hand to `fo_send`.
import Netdev.Kernel.FoComm
import Netdev.Kernel.FoStruct

/-!
# Sending file operations

Each `ndfo_send_*` function of `kernel/fo_send.c` fills an args struct with
`rvalue` set to `- EIO` and passes it to `fo_send`, for read and write together
with a buffer of the size asked for.
-/

namespace Netdev.Kernel
open Base

/-- A buffer of `kmalloc(size)` and its address; larger requests are refused with
`-EINVAL`. -/
structure DataBuffer where
  size : UInt64
  limit : size < NETDEV_MESSAGE_LIMIT
  addr : UInt64
  bytes : Bytes
  length : bytes.length = size.toNat

/-- A call of `ndfo_send_*` that reaches `fo_send`. `pad` is the padding that the
initialiser of a struct leaves unspecified. -/
inductive FoCall where
  | llseek (offset : Int64) (whence : Int32) (pad : UInt32)
  | read (buf : DataBuffer) (offset : Int64)
  /-- The buffer holds the user's bytes. -/
  | write (buf : DataBuffer) (offset : Int64)
  | unlockedIoctl (cmd : UInt32) (arg : UInt64) (pad : UInt32)
  | compatIoctl (cmd : UInt32) (arg : UInt64) (pad : UInt32)
  | open (pad : UInt32)
  | flush
  | release

namespace FoCall

def msgtype : FoCall → Int16
  | .llseek .. => MSGT_FO_LLSEEK.toInt16
  | .read .. => MSGT_FO_READ.toInt16
  | .write .. => MSGT_FO_WRITE.toInt16
  | .unlockedIoctl .. => MSGT_FO_UNLOCKED_IOCTL.toInt16
  | .compatIoctl .. => MSGT_FO_COMPAT_IOCTL.toInt16
  | .open .. => MSGT_FO_OPEN.toInt16
  | .flush => MSGT_FO_FLUSH.toInt16
  | .release => MSGT_FO_RELEASE.toInt16

/-- The args struct in the sender's frame. -/
def args : FoCall → Bytes
  | .llseek offset whence pad => toBytes ({ offset, whence, pad, rvalue := - EIO.toInt64 } : SFoLlseek)
  | .read buf offset =>
      toBytes ({ data := buf.addr, size := buf.size, offset, rvalue := - EIO.toInt64 } : SFoRead)
  | .write buf offset =>
      toBytes ({ data := buf.addr, size := buf.size, offset, rvalue := - EIO.toInt64 } : SFoWrite)
  | .unlockedIoctl cmd arg pad =>
      toBytes ({ cmd, pad, arg, rvalue := - EIO.toInt64 } : SFoUnlockedIoctl)
  | .compatIoctl cmd arg pad =>
      toBytes ({ cmd, pad, arg, rvalue := - EIO.toInt64 } : SFoCompatIoctl)
  | .open pad => toBytes ({ inode := 0, rvalue := - EIO, pad } : SFoOpen)
  | .flush => toBytes ({ rvalue := - EIO } : SFoFlush)
  | .release => toBytes ({ rvalue := - EIO } : SFoRelease)

/-- The buffer passed to `fo_send` as `data`. -/
def data : FoCall → Ptr
  | .read buf _ => some buf.bytes
  | .write buf _ => some buf.bytes
  | _ => none

/-- The payload: a read announces none, a write its whole buffer. -/
def payload : FoCall → Bytes
  | .write buf _ => buf.bytes
  | _ => []

def dataSize : FoCall → UInt64
  | .write buf _ => buf.size
  | _ => 0

/-- The request that `fo_send` queues and serialises. -/
def request (call : FoCall) (accessId : Int32) (seq : Int64) : FoReq where
  seq := seq
  msgtype := call.msgtype
  accessId := accessId
  args := some call.args
  data := call.data
  size := UInt64.ofNat call.args.length
  dataSize := call.dataSize
  rvalue := -1

/-! ## Sizes -/

theorem args_length_pos (call : FoCall) : 0 < call.args.length := by
  cases call <;> exact Nat.lt_of_lt_of_eq (by decide) (Layout.length_toBytes _).symm

theorem args_length_le (call : FoCall) : call.args.length ≤ 32 := by
  cases call <;> exact (Layout.length_toBytes _).trans_le (by decide)

theorem payload_length (call : FoCall) : call.payload.length = call.dataSize.toNat := by
  cases call with
  | write buf offset => exact buf.length
  | _ => rfl

theorem payload_length_lt (call : FoCall) : call.payload.length < NETDEV_MESSAGE_LIMIT.toNat := by
  cases call with
  | write buf offset =>
      rw [payload, buf.length]
      exact UInt64.lt_iff_toNat_lt.mp buf.limit
  | _ => exact (by decide : 0 < NETDEV_MESSAGE_LIMIT.toNat)

/-- Every request has the shape that the codec carries. -/
theorem request_holds (call : FoCall) (accessId : Int32) (seq : Int64) :
    (call.request accessId seq).Holds call.args call.payload := by
  have hpos := call.args_length_pos
  have hle := call.args_length_le
  have hlt := call.payload_length_lt
  have hsize : (UInt64.ofNat call.args.length).toNat = call.args.length :=
    UInt64.toNat_ofNat_of_lt' (by simp only [UInt64.size]; omega)
  have hlimit : NETDEV_MESSAGE_LIMIT.toNat = 213000 := rfl
  have hhead : FoReq.headerSize = 24 := rfl
  refine ⟨rfl, hsize.symm, ?_, ?_, call.payload_length, by omega⟩
  · intro hzero
    have h := congrArg UInt64.toNat hzero
    change (UInt64.ofNat call.args.length).toNat = 0 at h
    omega
  · intro hne
    cases call with
    | write buf offset => exact ⟨[], congrArg some (List.append_nil _).symm⟩
    | _ => exact absurd rfl hne

end FoCall

end Netdev.Kernel
