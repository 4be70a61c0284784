-- SUMMARY: One file operation from the sender's buffers to the remote device and back into them.
import Netdev.Kernel.FoExecute
import Netdev.Kernel.FoSend

/-!
# Exchanges

The request of an `ndfo_send_*` function is serialised, decoded and handled on the
other machine, and the answer is decoded into the request that waits. The space
behind the waiting request's `data` is not on the wire: that the answer fits is a
fact about both ends.
-/

namespace Netdev.Kernel
open Base

/-! ## What the sender's buffers can take -/

namespace FoCall

/-- The size of the buffer behind `data`. -/
def capacity : FoCall → Nat
  | .read buf _ => buf.size.toNat
  | .write buf _ => buf.size.toNat
  | _ => 0

/-- The args struct still points to the sender's buffer. -/
def KeepsPointer : FoCall → Bytes → Prop
  | .read buf _, args => SFoRead.dataField.load args = .ok buf.addr
  | .write buf _, args => SFoRead.dataField.load args = .ok buf.addr
  | _, _ => True

theorem keepsPointer_args (call : FoCall) : call.KeepsPointer call.args := by
  cases call with
  | read buf offset => exact SFoRead.dataField.load_toBytes _
  | write buf offset => exact SFoRead.dataField.load_toBytes _
  | _ => trivial

theorem payload_length_le (call : FoCall) : call.payload.length ≤ call.capacity := by
  cases call with
  | write buf offset => exact buf.length.le
  | _ => exact Nat.zero_le _

theorem capacity_lt (call : FoCall) : call.capacity < NETDEV_MESSAGE_LIMIT.toNat := by
  cases call with
  | read buf offset => exact UInt64.lt_iff_toNat_lt.mp buf.limit
  | write buf offset => exact UInt64.lt_iff_toNat_lt.mp buf.limit
  | _ => exact (by decide : 0 < NETDEV_MESSAGE_LIMIT.toNat)

/-- A payload that is not empty and fits has a buffer to go to. -/
theorem exists_data {call : FoCall} {n : Nat} (hpos : 0 < n) (hn : n ≤ call.capacity) :
    ∃ buf, call.data = some buf ∧ buf.length = call.capacity := by
  cases call with
  | read buf offset => exact ⟨buf.bytes, rfl, buf.length⟩
  | write buf offset => exact ⟨buf.bytes, rfl, buf.length⟩
  | _ => exact absurd hn (Nat.not_le.mpr hpos)

theorem data_length {call : FoCall} {buf : Bytes} (h : call.data = some buf) :
    buf.length = call.capacity := by
  cases call with
  | read buf' offset =>
      cases h
      exact buf'.length
  | write buf' offset =>
      cases h
      exact buf'.length
  | _ => cases h

/-- The request as the server decodes it. -/
def decoded (call : FoCall) (fresh : FoReq) (accessId : Int32) : FoReq :=
  { fresh with
    accessId
    rvalue := -1
    size := UInt64.ofNat call.args.length
    dataSize := call.dataSize
    args := some call.args
    data := if call.dataSize = 0 then none else some call.payload }

end FoCall

/-! ## Handlers -/

/-- The file is open on the server and the device has the function that the handler
calls without a test. -/
def ServerAccess.Serves (acc : ServerAccess) : FoCall → Prop
  | .llseek .. => ∃ ops, acc.fOp = .ok ops
  | .read .. => ∃ ops read, acc.fOp = .ok ops ∧ ops.read = some read
  | .write .. => ∃ ops write, acc.fOp = .ok ops ∧ ops.write = some write
  | .unlockedIoctl .. => ∃ ops ioctl, acc.fOp = .ok ops ∧ ops.unlockedIoctl = some ioctl
  | .compatIoctl .. => ∃ ops ioctl, acc.fOp = .ok ops ∧ ops.compatIoctl = some ioctl
  | .open .. => True
  | .flush => ∃ ops, acc.fOp = .ok ops
  | .release => ∃ filp, acc.filp = some filp

/-- The handler of a read gets its buffer. -/
def FoCall.Buffered (env : HandlerEnv) : FoCall → Prop
  | .read .. => env.dataOk = true
  | _ => True

theorem FoCall.buffered {env : HandlerEnv} (halloc : env.dataOk = true) (call : FoCall) :
    call.Buffered env := by
  cases call with
  | read => exact halloc
  | _ => trivial

/-- What a handler leaves in the request goes into the buffers of the sender, and
its pointer is untouched. -/
structure Handled (call : FoCall) (req : FoReq) (args payload : Bytes) : Prop where
  holds : ∀ rvalue, { req with rvalue }.Holds args payload
  args_length : args.length = call.args.length
  keepsPointer : call.KeepsPointer args
  payload_le : payload.length ≤ call.capacity

/-- It is a small message. -/
theorem Handled.wire_lt {call : FoCall} {req : FoReq} {args payload : Bytes} (h : Handled call req args payload)
    (rvalue : Int32) : ({ req with rvalue }.wire args payload).length < 2 ^ 30 := by
  have hargs := h.args_length.trans_le call.args_length_le
  have hpayload := h.payload_le.trans_lt call.capacity_lt
  have hlimit : NETDEV_MESSAGE_LIMIT.toNat = 213000 := rfl
  have hhead : FoReq.headerSize = 24 := rfl
  have hwire : ({ req with rvalue }.wire args payload).length
      = FoReq.headerSize + args.length + payload.length := by
    simp [FoReq.wire, Nat.add_assoc]
  omega

/-- The handler of an operation. -/
def FoCall.handler : FoCall → FoHandler
  | .llseek .. => ndfoRecvLlseek
  | .read .. => ndfoRecvRead
  | .write .. => ndfoRecvWrite
  | .unlockedIoctl .. => ndfoRecvUnlockedIoctl
  | .compatIoctl .. => ndfoRecvCompatIoctl
  | .open .. => ndfoRecvOpen
  | .flush => ndfoRecvFlush
  | .release => ndfoRecvRelease

theorem foHandler_of_index {t : Int16} {n : Nat} {fofun : FoHandler}
    (hindex : (Int32.ofNat t.toUInt16.toNat - (MSGT_FO_START + 1)).toNatClampNeg = n)
    (hfun : netdevRecvFops[n]? = some (some fofun)) :
    foHandler (Int32.ofNat t.toUInt16.toNat) = .ok (some fofun) := by
  rw [foHandler, hindex, hfun]

theorem foHandler_msgtype (call : FoCall) :
    foHandler (Int32.ofNat call.msgtype.toUInt16.toNat) = .ok (some call.handler) := by
  cases call with
  | llseek offset whence pad =>
      exact @foHandler_of_index MSGT_FO_LLSEEK.toInt16 0 _ (by decide) rfl
  | read buf offset => exact @foHandler_of_index MSGT_FO_READ.toInt16 1 _ (by decide) rfl
  | write buf offset => exact @foHandler_of_index MSGT_FO_WRITE.toInt16 2 _ (by decide) rfl
  | unlockedIoctl cmd arg pad =>
      exact @foHandler_of_index MSGT_FO_UNLOCKED_IOCTL.toInt16 7 _ (by decide) rfl
  | compatIoctl cmd arg pad =>
      exact @foHandler_of_index MSGT_FO_COMPAT_IOCTL.toInt16 8 _ (by decide) rfl
  | «open» pad => exact @foHandler_of_index MSGT_FO_OPEN.toInt16 10 _ (by decide) rfl
  | flush => exact @foHandler_of_index MSGT_FO_FLUSH.toInt16 11 _ (by decide) rfl
  | release => exact @foHandler_of_index MSGT_FO_RELEASE.toInt16 12 _ (by decide) rfl

section Handlers
variable {call : FoCall} {fresh : FoReq} {accessId : Int32}

/-- Handlers replace the args struct by one of the same size, and perhaps the
payload by one that fits. -/
theorem handled_of {args payload : Bytes} {data : Ptr} {dataSize : UInt64}
    (hargs : args.length = call.args.length) (hpointer : call.KeepsPointer args)
    (hsize : payload.length = dataSize.toNat) (hdata : dataSize ≠ 0 → data = some payload)
    (hfits : payload.length ≤ call.capacity) :
    Handled call { call.decoded fresh accessId with args := some args, data, dataSize } args
      payload := by
  have hpos := call.args_length_pos
  have hle := call.args_length_le
  have hlt := call.capacity_lt
  have hlimit : NETDEV_MESSAGE_LIMIT.toNat = 213000 := rfl
  have hhead : FoReq.headerSize = 24 := rfl
  have hsmall : (UInt64.ofNat call.args.length).toNat = call.args.length :=
    UInt64.toNat_ofNat_of_lt' (by simp only [UInt64.size]; omega)
  refine ⟨fun rvalue => ⟨rfl, hargs.trans hsmall.symm, ?_, ?_, hsize, by omega⟩, hargs, hpointer,
    hfits⟩
  · intro hzero
    have h := congrArg UInt64.toNat hzero
    change (UInt64.ofNat call.args.length).toNat = 0 at h
    omega
  · intro hne
    exact ⟨[], (hdata hne).trans (congrArg some (List.append_nil _).symm)⟩

/-- The handlers that change nothing but the args struct. -/
theorem handled_args {args : Bytes} (hargs : args.length = call.args.length)
    (hpointer : call.KeepsPointer args) :
    Handled call { call.decoded fresh accessId with args := some args } args call.payload :=
  handled_of hargs hpointer call.payload_length (fun hne => if_neg hne) call.payload_length_le

/-- A handler returns, and what it leaves can be sent back. -/
def Returns (call : FoCall) (m : Mem HandlerResult) : Prop :=
  ∃ rvalue acc req args payload, m = .ok (rvalue, acc, req) ∧ Handled call req args payload

theorem returns_args {m : Mem HandlerResult} {rvalue : Int32} {acc : ServerAccess} {args : Bytes}
    (hm : m = .ok (rvalue, acc, { call.decoded fresh accessId with args := some args }))
    (hargs : args.length = call.args.length) (hpointer : call.KeepsPointer args) : Returns call m :=
  ⟨_, _, _, _, _, hm, handled_args hargs hpointer⟩

theorem returns_decoded {m : Mem HandlerResult} {rvalue : Int32} {acc : ServerAccess}
    (hm : m = .ok (rvalue, acc, call.decoded fresh accessId)) : Returns call m :=
  returns_args hm rfl call.keepsPointer_args

variable (env : HandlerEnv) (acc : ServerAccess) {ops : FileOperations}

/-- The result of the device's `llseek` goes into the args struct. -/
theorem ndfoRecvLlseek_eq {offset : Int64} {whence : Int32} {pad : UInt32}
    {llseek : Int64 → Int32 → Int64} (hops : acc.fOp = .ok ops) (hseek : ops.llseek = some llseek) :
    ndfoRecvLlseek env acc (FoCall.decoded (.llseek offset whence pad) fresh accessId)
      = .ok (0, acc, { FoCall.decoded (.llseek offset whence pad) fresh accessId with
          args := some (toBytes ({ offset, whence, pad, rvalue := llseek offset whence } : SFoLlseek)) }) := by
  simp only [ndfoRecvLlseek, hops, hseek, FoCall.decoded, FoCall.args, deref_some,
    Field.load_toBytes, Field.store_toBytes, Mem.bind_ok, Mem.pure_eq_ok]
  rfl

theorem handled_llseek {offset : Int64} {whence : Int32} {pad : UInt32} (rvalue : Int64) :
    Handled (.llseek offset whence pad)
      { FoCall.decoded (.llseek offset whence pad) fresh accessId with
        args := some (toBytes ({ offset, whence, pad, rvalue } : SFoLlseek)) }
      (toBytes ({ offset, whence, pad, rvalue } : SFoLlseek)) [] :=
  handled_args ((Layout.length_toBytes _).trans (Layout.length_toBytes _).symm) trivial

theorem ndfoRecvLlseek_returns {offset : Int64} {whence : Int32} {pad : UInt32}
    (hops : acc.fOp = .ok ops) :
    Returns (.llseek offset whence pad)
      (ndfoRecvLlseek env acc (FoCall.decoded (.llseek offset whence pad) fresh accessId)) := by
  cases hseek : ops.llseek with
  | none =>
      refine @returns_decoded _ fresh accessId _ (-1) acc ?_
      simp only [ndfoRecvLlseek, hops, hseek, Mem.bind_ok, Mem.pure_eq_ok]
  | some llseek =>
      exact ⟨_, _, _, _, _, ndfoRecvLlseek_eq env acc hops hseek, handled_llseek (llseek offset whence)⟩

/-- The args struct after a read. -/
def SFoRead.answer (buf : DataBuffer) (offset rvalue : Int64) : SFoRead :=
  { data := buf.addr, size := buf.size, offset, rvalue }

/-- The device reads into a zeroed buffer of the size asked for. -/
theorem ndfoRecvRead_eq {buf : DataBuffer} {offset : Int64}
    {read : (buf : Bytes) → Int64 → ReadResult buf.length} (halloc : env.dataOk = true)
    (hops : acc.fOp = .ok ops) (hread : ops.read = some read) :
    ndfoRecvRead env acc (FoCall.decoded (.read buf offset) fresh accessId)
      = .ok (0, acc, { FoCall.decoded (.read buf offset) fresh accessId with
          args := some (toBytes (SFoRead.answer buf (read (List.replicate buf.size.toNat 0) offset).offset
            (read (List.replicate buf.size.toNat 0) offset).rvalue))
          data := some (read (List.replicate buf.size.toNat 0) offset).data.val
          dataSize := buf.size }) := by
  simp only [ndfoRecvRead, hops, hread, halloc, FoCall.decoded, FoCall.args, deref_some, follow_some,
    zalloc_true, Field.load_toBytes, Field.store_toBytes, Mem.bind_ok, Mem.pure_eq_ok]
  rfl

theorem handled_read {buf : DataBuffer} {offset : Int64} (offset' rvalue : Int64) {payload : Bytes}
    (hlen : payload.length = buf.size.toNat) :
    Handled (.read buf offset)
      { FoCall.decoded (.read buf offset) fresh accessId with
        args := some (toBytes (SFoRead.answer buf offset' rvalue))
        data := some payload
        dataSize := buf.size }
      (toBytes (SFoRead.answer buf offset' rvalue)) payload :=
  handled_of ((Layout.length_toBytes _).trans (Layout.length_toBytes _).symm)
    (SFoRead.dataField.load_toBytes _) hlen (fun _ => rfl) hlen.le

theorem ndfoRecvRead_returns {buf : DataBuffer} {offset : Int64}
    {read : (buf : Bytes) → Int64 → ReadResult buf.length} (halloc : env.dataOk = true)
    (hops : acc.fOp = .ok ops) (hread : ops.read = some read) :
    Returns (.read buf offset)
      (ndfoRecvRead env acc (FoCall.decoded (.read buf offset) fresh accessId)) := by
  have hlen : (read (List.replicate buf.size.toNat 0) offset).data.val.length = buf.size.toNat :=
    (read _ offset).data.property.trans List.length_replicate
  exact ⟨_, _, _, _, _, ndfoRecvRead_eq env acc halloc hops hread, handled_read _ _ hlen⟩

/-- The device gets the bytes that the sender wrote. -/
theorem region_decoded (buf : DataBuffer) :
    region (if buf.size = 0 then none else some buf.bytes) buf.size = .ok buf.bytes := by
  by_cases hzero : buf.size = 0
  · have hnil : buf.bytes = [] := by
      apply List.length_eq_zero_iff.mp
      rw [buf.length, hzero]
      rfl
    rw [if_pos hzero, hnil]
    exact if_pos hzero
  · have hle : buf.size.toNat ≤ buf.bytes.length := buf.length.ge
    rw [if_neg hzero, region, if_pos hle, ← buf.length, List.take_length]

/-- What the device has written is not sent back. -/
theorem ndfoRecvWrite_eq {buf : DataBuffer} {offset : Int64} {write : Bytes → Int64 → WriteResult}
    (hops : acc.fOp = .ok ops) (hwrite : ops.write = some write) :
    ndfoRecvWrite env acc (FoCall.decoded (.write buf offset) fresh accessId)
      = .ok (0, acc, { FoCall.decoded (.write buf offset) fresh accessId with
          args := some (toBytes (SFoRead.answer buf (write buf.bytes offset).offset
            (write buf.bytes offset).rvalue))
          data := none
          dataSize := 0 }) := by
  simp only [ndfoRecvWrite, hops, hwrite, FoCall.decoded, FoCall.args, FoCall.dataSize,
    FoCall.payload, deref_some, follow_some, Field.load_toBytes, Field.store_toBytes, Mem.bind_ok,
    Mem.pure_eq_ok]
  change (region (if buf.size = 0 then none else some buf.bytes) buf.size >>= _) = _
  rw [region_decoded]
  rfl

theorem handled_write {buf : DataBuffer} {offset : Int64} (offset' rvalue : Int64) :
    Handled (.write buf offset)
      { FoCall.decoded (.write buf offset) fresh accessId with
        args := some (toBytes (SFoRead.answer buf offset' rvalue))
        data := none
        dataSize := 0 }
      (toBytes (SFoRead.answer buf offset' rvalue)) [] :=
  handled_of ((Layout.length_toBytes _).trans (Layout.length_toBytes _).symm)
    (SFoRead.dataField.load_toBytes _) rfl (fun hne => absurd rfl hne) (Nat.zero_le _)

theorem ndfoRecvWrite_returns {buf : DataBuffer} {offset : Int64}
    {write : Bytes → Int64 → WriteResult} (hops : acc.fOp = .ok ops)
    (hwrite : ops.write = some write) :
    Returns (.write buf offset)
      (ndfoRecvWrite env acc (FoCall.decoded (.write buf offset) fresh accessId)) :=
  ⟨_, _, _, _, _, ndfoRecvWrite_eq env acc hops hwrite, handled_write _ _⟩

/-- The result is in the args struct, but the handler has failed. -/
theorem ndfoRecvUnlockedIoctl_eq {cmd pad : UInt32} {arg : UInt64}
    {ioctl : UInt32 → UInt64 → Int64} (hops : acc.fOp = .ok ops)
    (hioctl : ops.unlockedIoctl = some ioctl) :
    ndfoRecvUnlockedIoctl env acc (FoCall.decoded (.unlockedIoctl cmd arg pad) fresh accessId)
      = .ok (-1, acc, { FoCall.decoded (.unlockedIoctl cmd arg pad) fresh accessId with
          args := some (toBytes ({ cmd, pad, arg, rvalue := ioctl cmd arg } : SFoUnlockedIoctl)) }) := by
  simp only [ndfoRecvUnlockedIoctl, hops, hioctl, FoCall.decoded, FoCall.args, deref_some,
    follow_some, Field.load_toBytes, Field.store_toBytes, Mem.bind_ok, Mem.pure_eq_ok]
  rfl

theorem ndfoRecvUnlockedIoctl_returns {cmd pad : UInt32} {arg : UInt64}
    {ioctl : UInt32 → UInt64 → Int64} (hops : acc.fOp = .ok ops)
    (hioctl : ops.unlockedIoctl = some ioctl) :
    Returns (.unlockedIoctl cmd arg pad)
      (ndfoRecvUnlockedIoctl env acc (FoCall.decoded (.unlockedIoctl cmd arg pad) fresh accessId)) :=
  returns_args (ndfoRecvUnlockedIoctl_eq env acc hops hioctl)
    ((Layout.length_toBytes _).trans (Layout.length_toBytes _).symm) trivial

theorem ndfoRecvCompatIoctl_eq {cmd pad : UInt32} {arg : UInt64}
    {ioctl : UInt32 → UInt64 → Int64} (hops : acc.fOp = .ok ops)
    (hioctl : ops.compatIoctl = some ioctl) :
    ndfoRecvCompatIoctl env acc (FoCall.decoded (.compatIoctl cmd arg pad) fresh accessId)
      = .ok (0, acc, { FoCall.decoded (.compatIoctl cmd arg pad) fresh accessId with
          args := some (toBytes ({ cmd, pad, arg, rvalue := ioctl cmd arg } : SFoCompatIoctl)) }) := by
  simp only [ndfoRecvCompatIoctl, hops, hioctl, FoCall.decoded, FoCall.args, deref_some,
    follow_some, Field.load_toBytes, Field.store_toBytes, Mem.bind_ok, Mem.pure_eq_ok]
  rfl

theorem ndfoRecvCompatIoctl_returns {cmd pad : UInt32} {arg : UInt64}
    {ioctl : UInt32 → UInt64 → Int64} (hops : acc.fOp = .ok ops)
    (hioctl : ops.compatIoctl = some ioctl) :
    Returns (.compatIoctl cmd arg pad)
      (ndfoRecvCompatIoctl env acc (FoCall.decoded (.compatIoctl cmd arg pad) fresh accessId)) :=
  returns_args (ndfoRecvCompatIoctl_eq env acc hops hioctl)
    ((Layout.length_toBytes _).trans (Layout.length_toBytes _).symm) trivial

/-- `filp_open` has failed, or the file has no operations. -/
theorem ndfoRecvOpen_failed {pad : UInt32} (hfile : ∀ filp, env.filpOpen = .ok filp → filp.fOp = none) :
    ∃ acc', ndfoRecvOpen env acc (FoCall.decoded (.open pad) fresh accessId)
      = .ok (-1, acc', FoCall.decoded (.open pad) fresh accessId) := by
  cases hopen : env.filpOpen with
  | error err => exact ⟨⟨none⟩, by simp only [ndfoRecvOpen, hopen, Mem.pure_eq_ok]⟩
  | ok filp =>
      have hnone : filp.fOp.isNone := Option.isNone_iff_eq_none.mpr (hfile filp hopen)
      exact ⟨⟨some filp⟩, by simp only [ndfoRecvOpen, hopen, if_pos hnone, Mem.pure_eq_ok]⟩

theorem ndfoRecvOpen_eq {pad : UInt32} {filp : File} (hfile : env.filpOpen = .ok filp)
    (hops : filp.fOp = some ops) :
    ndfoRecvOpen env acc (FoCall.decoded (.open pad) fresh accessId)
      = .ok (0, ⟨some filp⟩, { FoCall.decoded (.open pad) fresh accessId with
          args := some (toBytes ({ inode := 0, rvalue := 0, pad } : SFoOpen)) }) := by
  simp only [ndfoRecvOpen, hfile, hops, Option.isNone_some, Bool.false_eq_true, if_false,
    FoCall.decoded, FoCall.args, deref_some, Field.store_toBytes, Mem.bind_ok, Mem.pure_eq_ok]
  rfl

theorem ndfoRecvOpen_returns {pad : UInt32} :
    Returns (.open pad) (ndfoRecvOpen env acc (FoCall.decoded (.open pad) fresh accessId)) := by
  by_cases hfile : ∀ filp, env.filpOpen = .ok filp → filp.fOp = none
  · obtain ⟨_, hfailed⟩ := @ndfoRecvOpen_failed fresh accessId env acc pad hfile
    exact returns_decoded hfailed
  · push Not at hfile
    obtain ⟨filp, hopen, hne⟩ := hfile
    obtain ⟨ops, hops⟩ := Option.ne_none_iff_exists'.mp hne
    exact returns_args (ndfoRecvOpen_eq env acc hopen hops)
      ((Layout.length_toBytes _).trans (Layout.length_toBytes _).symm) trivial

theorem ndfoRecvFlush_eq {rvalue : Int32} (hops : acc.fOp = .ok ops) (hflush : ops.flush = some rvalue) :
    ndfoRecvFlush env acc (FoCall.decoded .flush fresh accessId)
      = .ok (0, acc, { FoCall.decoded .flush fresh accessId with
          args := some (toBytes ({ rvalue } : SFoFlush)) }) := by
  simp only [ndfoRecvFlush, hops, hflush, FoCall.decoded, FoCall.args, deref_some,
    Field.store_toBytes, Mem.bind_ok, Mem.pure_eq_ok]
  rfl

theorem ndfoRecvFlush_returns (hops : acc.fOp = .ok ops) :
    Returns .flush (ndfoRecvFlush env acc (FoCall.decoded .flush fresh accessId)) := by
  cases hflush : ops.flush with
  | none =>
      refine @returns_decoded _ fresh accessId _ (-1) acc ?_
      simp only [ndfoRecvFlush, hops, hflush, Mem.bind_ok, Mem.pure_eq_ok]
  | some rvalue =>
      exact returns_args (ndfoRecvFlush_eq env acc hops hflush)
        ((Layout.length_toBytes _).trans (Layout.length_toBytes _).symm) trivial

theorem ndfoRecvRelease_eq {filp : File} (hfilp : acc.filp = some filp) :
    ndfoRecvRelease env acc (FoCall.decoded .release fresh accessId)
      = .ok (0, acc, { FoCall.decoded .release fresh accessId with
          args := some (toBytes ({ rvalue := filp.close } : SFoRelease)) }) := by
  simp only [ndfoRecvRelease, hfilp, FoCall.decoded, FoCall.args, deref_some, follow_some,
    Field.store_toBytes, Mem.bind_ok, Mem.pure_eq_ok]
  rfl

theorem ndfoRecvRelease_returns {filp : File} (hfilp : acc.filp = some filp) :
    Returns .release (ndfoRecvRelease env acc (FoCall.decoded .release fresh accessId)) :=
  returns_args (ndfoRecvRelease_eq env acc hfilp)
    ((Layout.length_toBytes _).trans (Layout.length_toBytes _).symm) trivial

theorem handler_returns {call : FoCall} (hbuffered : call.Buffered env) (hserves : acc.Serves call) :
    Returns call (call.handler env acc (call.decoded fresh accessId)) := by
  cases call with
  | llseek offset whence pad =>
      obtain ⟨_, hops⟩ := hserves
      exact ndfoRecvLlseek_returns env acc hops
  | read buf offset =>
      obtain ⟨_, _, hops, hread⟩ := hserves
      exact ndfoRecvRead_returns env acc hbuffered hops hread
  | write buf offset =>
      obtain ⟨_, _, hops, hwrite⟩ := hserves
      exact ndfoRecvWrite_returns env acc hops hwrite
  | unlockedIoctl cmd arg pad =>
      obtain ⟨_, _, hops, hioctl⟩ := hserves
      exact ndfoRecvUnlockedIoctl_returns env acc hops hioctl
  | compatIoctl cmd arg pad =>
      obtain ⟨_, _, hops, hioctl⟩ := hserves
      exact ndfoRecvCompatIoctl_returns env acc hops hioctl
  | «open» pad => exact ndfoRecvOpen_returns env acc
  | flush =>
      obtain ⟨_, hops⟩ := hserves
      exact ndfoRecvFlush_returns env acc hops
  | release =>
      obtain ⟨_, hfilp⟩ := hserves
      exact ndfoRecvRelease_returns env acc hfilp

end Handlers

/-! ## The whole exchange -/

/-- An operation, and everything around it that the code does not fix: `flags`,
`pid` and `seq` of the message, what memory from the pool holds, and the bytes
that follow the payload of a message. -/
structure Exchange where
  call : FoCall
  accessId : Int32
  stale : Int64
  curseq : Int64
  flags : UInt16
  seq : UInt32
  pid : UInt32
  pad : Bytes
  fresh : FoReq
  server : ServerAccess
  serves : server.Serves call
  filpOpen : Except Int32 File
  replyPad : Bytes

namespace Exchange

/-- The request as `fo_send` serialises it. -/
def request (x : Exchange) : FoReq := x.call.request x.accessId x.stale

/-- The request that waits for its completion. -/
def waiting (x : Exchange) : FoReq := x.call.request x.accessId x.curseq

def env (x : Exchange) : HandlerEnv := ⟨x.filpOpen, true⟩

/-- The message that reaches `fo_execute`. -/
def message (x : Exchange) (buff : Bytes) : NlMessage where
  header :=
    { nlmsgLen := UInt32.ofNat (sizeof Nlmsghdr + buff.length)
      nlmsgType := x.call.msgtype.toUInt16
      nlmsgFlags := x.flags
      nlmsgSeq := x.seq
      nlmsgPid := x.pid }
  payload := buff ++ x.pad

end Exchange

/-- `seen` is the request that the handler gets, `result` the one it leaves behind,
and `done` the request of the sender after the reply. -/
structure Outcome where
  seen : FoReq
  rvalue : Int32
  result : FoReq
  completed : Bool
  done : FoReq

/-- Serialise, decode, handle, answer, decode. -/
def Exchange.run (x : Exchange) : Mem Outcome := do
  let buff ← deref (← foSerialize true x.request)
  let nlh := x.message buff
  let seen ← follow (← foDeserialize true true true x.fresh nlh.payload)
  let fofun ← follow (← foHandler nlh.msgtype)
  let (rvalue, _, result) ← fofun x.env x.server seen
  let executed ← foExecute .all x.env x.fresh x.server nlh
  let reply ← follow executed.reply
  let (completed, done) ← foDeserializeToreq true true x.waiting (reply.payload ++ x.replyPad)
  return { seen, rvalue, result, completed, done }

/-- What the two ends agree about. -/
structure Outcome.Agrees (o : Outcome) (x : Exchange) : Prop where
  seen_args : o.seen.args = some x.call.args
  seen_data : o.seen.data = if x.call.dataSize = 0 then none else some x.call.payload
  completed : o.completed
  args_fits : o.done.size.toNat ≤ x.call.args.length
  data_fits : o.done.dataSize.toNat ≤ x.call.capacity
  /-- The args struct has its old size and points to the same buffer. -/
  args : ∃ args, o.done.args = some args ∧ args.length = x.call.args.length ∧
    x.call.KeepsPointer args
  /-- The buffer has its old size, and behind the reply its old bytes. -/
  data : ∀ buf, x.call.data = some buf → ∃ buf', o.done.data = some buf' ∧
    buf'.length = buf.length ∧ buf'.drop o.done.dataSize.toNat = buf.drop o.done.dataSize.toNat
  /-- What the handler left in its request is what the sender finds. -/
  success : o.rvalue ≠ -1 → o.done.rvalue = o.rvalue ∧ o.done.args = o.result.args ∧
    (o.done.dataSize ≠ 0 → ∃ payload rest rest', payload.length = o.done.dataSize.toNat ∧
      o.result.data = some (payload ++ rest) ∧ o.done.data = some (payload ++ rest'))
  failure : o.rvalue = -1 → o.done.rvalue = -1

/-! ## The reply in the sender's buffers -/

/-- The request of the sender after a reply with this content. -/
structure Answered (call : FoCall) (done : FoReq) (args payload : Bytes) : Prop where
  size : done.size.toNat = args.length
  dataSize : done.dataSize.toNat = payload.length
  args : done.args = some args
  data : ∀ buf, call.data = some buf → done.data = some (payload ++ buf.drop payload.length)

theorem foDeserializeToreq_answered {call : FoCall} {req : FoReq} {args payload rest : Bytes}
    {accessId : Int32} {seq : Int64} (h : req.Holds args payload)
    (hargs : args.length = call.args.length) (hfits : payload.length ≤ call.capacity) :
    ∃ done, foDeserializeToreq true true (call.request accessId seq) (req.wire args payload ++ rest)
        = .ok (true, done) ∧ done.rvalue = req.rvalue ∧ Answered call done args payload := by
  by_cases hzero : req.dataSize = 0
  · refine ⟨_, @FoReq.Holds.foDeserializeToreq req args payload (call.request accessId seq)
      call.args [] rest true true h rfl hargs.symm (fun hne => absurd hzero hne), rfl,
      h.size.symm, h.dataSize.symm, rfl, ?_⟩
    intro buf hbuf
    rw [h.payload_eq_nil hzero]
    exact (if_pos hzero).trans hbuf
  · have hpos : 0 < payload.length := by
      have hne : req.dataSize.toNat ≠ 0 := fun h' => hzero (UInt64.toNat_inj.mp h')
      have hsize := h.dataSize
      omega
    obtain ⟨buf, hbuf, hlen⟩ := FoCall.exists_data hpos hfits
    have hroom : (call.request accessId seq).data.or (zalloc true payload.length) = some buf :=
      congrArg (Option.or · _) hbuf
    refine ⟨_, @FoReq.Holds.foDeserializeToreq req args payload (call.request accessId seq)
      call.args buf rest true true h rfl hargs.symm (fun _ => ⟨hroom, hfits.trans hlen.ge⟩), rfl,
      h.size.symm, h.dataSize.symm, rfl, ?_⟩
    intro buf' hbuf'
    obtain rfl : buf = buf' := Option.some.inj (hbuf.symm.trans hbuf')
    exact if_neg hzero

/-! ## Agreement -/

namespace Exchange
variable (x : Exchange)

/-- What `fo_serialize` makes of the request. -/
def wire : Bytes := x.request.wire x.call.args x.call.payload

theorem request_holds : x.request.Holds x.call.args x.call.payload :=
  x.call.request_holds x.accessId x.stale

theorem wire_length : x.wire.length = FoReq.headerSize + x.call.args.length + x.call.payload.length := by
  simp [wire, FoReq.wire, Nat.add_assoc]

theorem payloadLen_message :
    cSize (nlmsgPayloadLen (x.message x.wire)) ≤ (x.message x.wire).payload.length := by
  have hargs := x.call.args_length_le
  have hpayload := x.call.payload_length_lt
  have hlimit : NETDEV_MESSAGE_LIMIT.toNat = 213000 := rfl
  have hhead : FoReq.headerSize = 24 := rfl
  have hmax : INT_MAX = 2 ^ 31 - 1 := rfl
  have hlen := x.wire_length
  rw [nlmsgPayloadLen_eq (by omega) rfl, cSize_of_le_INT_MAX (by omega)]
  simp [message]

end Exchange

/-- What the sender finds when the message that comes back holds this request. -/
theorem Outcome.agrees_of_answered {x : Exchange} {o : Outcome} {args payload : Bytes}
    (hseen : o.seen = x.call.decoded x.fresh x.accessId) (hcompleted : o.completed)
    (hanswered : Answered x.call o.done args payload) (hargs : args.length = x.call.args.length)
    (hpointer : x.call.KeepsPointer args) (hfits : payload.length ≤ x.call.capacity)
    (hsuccess : o.rvalue ≠ -1 → o.done.rvalue = o.rvalue ∧ o.result.args = some args ∧
      (o.done.dataSize ≠ 0 → ∃ rest, o.result.data = some (payload ++ rest)))
    (hfailure : o.rvalue = -1 → o.done.rvalue = -1) : o.Agrees x where
  seen_args := by rw [hseen]; rfl
  seen_data := by rw [hseen]; rfl
  completed := hcompleted
  args_fits := (hanswered.size.trans hargs).le
  data_fits := hanswered.dataSize.trans_le hfits
  args := ⟨args, hanswered.args, hargs, hpointer⟩
  data := by
    intro buf hbuf
    have hlen : payload.length ≤ buf.length := hfits.trans (x.call.data_length hbuf).ge
    refine ⟨_, hanswered.data buf hbuf, ?_, ?_⟩
    · rw [List.length_append, List.length_drop]
      omega
    · rw [hanswered.dataSize, List.drop_left]
  success := by
    intro hrvalue
    obtain ⟨hdone, hresult, hdata⟩ := hsuccess hrvalue
    refine ⟨hdone, hanswered.args.trans hresult.symm, fun hne => ?_⟩
    obtain ⟨rest, hrest⟩ := hdata hne
    have hpos : 0 < payload.length := by
      have hne' : o.done.dataSize.toNat ≠ 0 := fun h' => hne (UInt64.toNat_inj.mp h')
      have hsize := hanswered.dataSize
      omega
    obtain ⟨buf, hbuf, -⟩ := FoCall.exists_data hpos hfits
    exact ⟨payload, rest, _, hanswered.dataSize.symm, hrest, hanswered.data buf hbuf⟩
  failure := hfailure

namespace Exchange
variable (x : Exchange) {rvalue : Int32} {acc : ServerAccess} {result : FoReq}

theorem foSerialize_request : foSerialize true x.request = .ok (some x.wire) :=
  x.request_holds.foSerialize

theorem foDeserialize_message : foDeserialize true true true x.fresh (x.message x.wire).payload
    = .ok (some (x.call.decoded x.fresh x.accessId)) :=
  x.request_holds.foDeserialize x.fresh x.pad

theorem foHandler_message : foHandler (x.message x.wire).msgtype = .ok (some x.call.handler) :=
  foHandler_msgtype x.call

/-- The exchange from what its parts do. -/
theorem run_eq {executed : ExecResult} {reply : NlMessage} {done : FoReq}
    (hresult : x.call.handler x.env x.server (x.call.decoded x.fresh x.accessId)
      = .ok (rvalue, acc, result))
    (hexecuted : foExecute .all x.env x.fresh x.server (x.message x.wire) = .ok executed)
    (hreply : executed.reply = some reply)
    (hdone : foDeserializeToreq true true x.waiting (reply.payload ++ x.replyPad) = .ok (true, done)) :
    x.run = .ok ⟨x.call.decoded x.fresh x.accessId, rvalue, result, true, done⟩ := by
  simp only [Exchange.run, x.foSerialize_request, deref_some, x.foDeserialize_message, follow_some,
    x.foHandler_message, hresult, hexecuted, hreply, hdone, Mem.bind_ok, Mem.pure_eq_ok]

/-- When the handler fails, the request goes back as it came. -/
theorem run_failure (hresult : x.call.handler x.env x.server (x.call.decoded x.fresh x.accessId)
      = .ok (-1, acc, result)) :
    ∃ done, x.run = .ok ⟨x.call.decoded x.fresh x.accessId, -1, result, true, done⟩ ∧
      done.rvalue = -1 ∧ Answered x.call done x.call.args x.call.payload := by
  obtain ⟨done, hdone, hsame, hanswered⟩ := @foDeserializeToreq_answered x.call x.request
    x.call.args x.call.payload (x.pad ++ x.replyPad) x.accessId x.curseq x.request_holds rfl
    x.call.payload_length_le
  rw [← List.append_assoc] at hdone
  have hexecuted := @foExecute_failure .all _ _ _ _ _ _ _ _ x.foDeserialize_message
    x.foHandler_message hresult
  exact ⟨done, x.run_eq hresult hexecuted rfl hdone, hsame, hanswered⟩

/-- When it succeeds, the sender finds its result. -/
theorem run_success {args payload : Bytes}
    (hresult : x.call.handler x.env x.server (x.call.decoded x.fresh x.accessId)
      = .ok (rvalue, acc, result)) (hrvalue : rvalue ≠ -1)
    (handled : Handled x.call result args payload) :
    ∃ done, x.run = .ok ⟨x.call.decoded x.fresh x.accessId, rvalue, result, true, done⟩ ∧
      done.rvalue = rvalue ∧ Answered x.call done args payload := by
  obtain ⟨reply, rest, hreply, hpayload⟩ := foReply_eq (handled.holds rvalue) (handled.wire_lt rvalue) x.payloadLen_message
  obtain ⟨done, hdone, hsame, hanswered⟩ := @foDeserializeToreq_answered x.call
    { result with rvalue } args payload (rest ++ x.replyPad) x.accessId x.curseq
    (handled.holds rvalue) handled.args_length handled.payload_le
  rw [← List.append_assoc, ← hpayload] at hdone
  have hexecuted := @foExecute_success .all _ _ _ _ _ _ _ _ _ _ _ x.foDeserialize_message
    x.foHandler_message hresult hrvalue hreply
  exact ⟨done, x.run_eq hresult hexecuted rfl hdone, hsame, hanswered⟩

end Exchange

/-- Client and server agree on every exchange: no buffer is left on the way, the
handler gets what was sent, and the sender gets what the handler returned. -/
theorem exchange_agrees (x : Exchange) : ∃ o, x.run = .ok o ∧ o.Agrees x := by
  obtain ⟨rvalue, acc, result, args, payload, hresult, handled⟩ :=
    @handler_returns x.fresh x.accessId x.env x.server x.call (FoCall.buffered rfl _) x.serves
  by_cases hrvalue : rvalue = -1
  · subst hrvalue
    obtain ⟨done, hrun, hsame, hanswered⟩ := x.run_failure hresult
    refine ⟨_, hrun, ?_⟩
    exact Outcome.agrees_of_answered rfl rfl hanswered rfl x.call.keepsPointer_args
      x.call.payload_length_le (fun hne => absurd rfl hne) (fun _ => hsame)
  · obtain ⟨done, hrun, hsame, hanswered⟩ := x.run_success hresult hrvalue handled
    have hdataSize : done.dataSize = result.dataSize :=
      UInt64.toNat_inj.mp (hanswered.dataSize.trans (handled.holds rvalue).dataSize)
    refine ⟨_, hrun, ?_⟩
    exact Outcome.agrees_of_answered rfl rfl hanswered handled.args_length handled.keepsPointer
      handled.payload_le (fun _ => ⟨hsame, (handled.holds rvalue).pointer, fun hne =>
        (handled.holds rvalue).data fun hzero => hne (hdataSize.trans hzero)⟩)
      (fun h => absurd h hrvalue)

namespace Sample

/-- Four bytes are read from a device that can only read. -/
def readExchange : Exchange where
  call := .read { addr := 4096, size := 4, limit := by decide, bytes := [9, 9, 9, 9], length := rfl } 0
  accessId := 3
  stale := 7
  curseq := 1
  flags := 0
  seq := 1
  pid := 7
  pad := [0, 0]
  fresh := freshReq
  server := readable
  serves := ⟨_, _, rfl, rfl⟩
  filpOpen := .error 0
  replyPad := []

end Sample

theorem exchange_agrees_read : ∃ o, Sample.readExchange.run = .ok o ∧ o.Agrees Sample.readExchange :=
  exchange_agrees Sample.readExchange

end Netdev.Kernel
