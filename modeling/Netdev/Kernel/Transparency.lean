-- SUMMARY: What the `ndfo_send_*` functions return beside what the remote device has returned, for reads and for the operations without a buffer.
import Netdev.Kernel.Position

/-!
# Results of remote operations

The device's result comes back in the args struct, and next to it comes what the handler
has returned. After an exchange that went well, a function of the dummy device should
return what the device did.
-/

namespace Netdev.Kernel
open Base

/-! ## Reading -/

/-- `copy_to_user` of a number of bytes into the user's buffer: the buffer afterwards, and
how many bytes could not be copied. -/
abbrev CopyToUser := (user data : Bytes) → UInt64 → Bytes × UInt64

/-- What the kernel promises where both buffers are as long as the copy. -/
def CopyToUser.Copies (copy : CopyToUser) : Prop :=
  ∀ user data n, n.toNat ≤ user.length → n.toNat ≤ data.length →
    copy user data n = (data.take n.toNat ++ user.drop n.toNat, 0)

/-- How a read ends: its value, the length of its copy, the user's buffer, and
`*offset`. -/
structure ReadEnd where
  value : Int64
  copied : Option UInt64
  user : Bytes
  offset : Int64

/-- `ndfo_send_read` after `copy_to_user`. -/
def copyReturn (args : Bytes) (left : UInt64) : Mem Int64 :=
  if left.toInt64 > 0 then return -1 else SFoRead.rvalueField.load args

/-- `ndfo_send_read` after `fo_send`. The result of the device is converted to
`unsigned long` for `copy_to_user`. -/
def sendReadReturn (copy : CopyToUser) (done : FoReq) (user : Bytes) (offset : Int64) : Mem ReadEnd := do
  if done.rvalue < 0 then
    return ⟨done.rvalue.toInt64, none, user, offset⟩
  else do
    let args ← deref done.args
    let offset ← SFoRead.offsetField.load args
    let len ← SFoRead.rvalueField.load args
    let data ← deref done.data
    let (user, left) := copy user data len.toUInt64
    let value ← copyReturn args left
    return ⟨value, some len.toUInt64, user, offset⟩

theorem copyReturn_eq (args : SFoRead) (left : UInt64) :
    copyReturn (toBytes args) left = .ok (if left.toInt64 > 0 then -1 else args.rvalue) := by
  unfold copyReturn
  split
  · rfl
  · rw [Field.load_toBytes]
    rfl

theorem sendReadReturn_eq (copy : CopyToUser) {done : FoReq} {args : SFoRead} {data : Bytes} (user : Bytes)
    (offset : Int64) (hrvalue : done.rvalue = 0) (hargs : done.args = some (toBytes args))
    (hdata : done.data = some data) :
    sendReadReturn copy done user offset = .ok
      { value := if (copy user data args.rvalue.toUInt64).2.toInt64 > 0 then -1 else args.rvalue
        copied := some args.rvalue.toUInt64
        user := (copy user data args.rvalue.toUInt64).1
        offset := args.offset } := by
  have hoffset : SFoRead.offsetField.load (toBytes args) = .ok args.offset :=
    SFoRead.offsetField.load_toBytes args
  have hlen : SFoRead.rvalueField.load (toBytes args) = .ok args.rvalue :=
    SFoRead.rvalueField.load_toBytes args
  unfold sendReadReturn
  rw [hrvalue, if_neg (by decide), hargs, hdata]
  simp only [deref_some, hoffset, hlen, copyReturn_eq, Mem.bind_ok, Mem.pure_eq_ok]

/-- A read of a device that is open on the server. The device returns an error or at most
the size it was asked for. -/
structure RemoteRead where
  surroundings : Surroundings
  server : ServerAccess
  ops : FileOperations
  read : (buf : Bytes) → Int64 → ReadResult buf.length
  opened : server.fOp = .ok ops
  device : ops.read = some read
  size : UInt64
  limit : size < NETDEV_MESSAGE_LIMIT
  offset : Int64
  bounded : (read (List.replicate size.toNat 0) offset).rvalue.toInt ≤ size.toNat
  user : Bytes
  length : user.length = size.toNat

namespace RemoteRead

/-- What the device does. -/
def result (x : RemoteRead) : ReadResult (List.replicate x.size.toNat (0 : UInt8)).length :=
  x.read (List.replicate x.size.toNat 0) x.offset

def exchange (x : RemoteRead) : Exchange :=
  x.surroundings.exchange x.server (.read (x.surroundings.buffer x.size x.limit) x.offset)
    ⟨x.ops, x.read, x.opened, x.device⟩

/-- `ndfo_send_read`. -/
def run (copy : CopyToUser) (x : RemoteRead) : Mem ReadEnd := do
  let o ← x.exchange.run
  sendReadReturn copy o.done x.user x.offset

/-- The user gets what the device has given. -/
structure Transparent (x : RemoteRead) (o : ReadEnd) : Prop where
  copied : ∃ len, o.copied = some len ∧ len ≤ x.size
  user : o.user = x.result.data.val.take x.result.rvalue.toNatClampNeg
    ++ x.user.drop x.result.rvalue.toNatClampNeg
  offset : o.offset = x.result.offset
  value : o.value = x.result.rvalue

variable {copy : CopyToUser} {x : RemoteRead}

theorem data_length (x : RemoteRead) : x.result.data.val.length = x.size.toNat :=
  x.result.data.property.trans List.length_replicate

/-- The exchange brings the device's bytes and results to the buffer and the args struct
of the client. -/
theorem run_eq (copy : CopyToUser) (x : RemoteRead) : ∃ rest, x.run copy = .ok
    { value := if (copy x.user (x.result.data.val ++ rest) x.result.rvalue.toUInt64).2.toInt64 > 0 then -1
        else x.result.rvalue
      copied := some x.result.rvalue.toUInt64
      user := (copy x.user (x.result.data.val ++ rest) x.result.rvalue.toUInt64).1
      offset := x.result.offset } := by
  let buf := x.surroundings.buffer x.size x.limit
  have hresult := @ndfoRecvRead_eq x.exchange.fresh x.exchange.accessId x.exchange.env x.server x.ops
    buf x.offset x.read rfl x.opened x.device
  obtain ⟨done, hrun, hrvalue, hanswered⟩ := x.exchange.run_success hresult (by decide)
    (handled_read _ _ x.data_length)
  have hreturn := sendReadReturn_eq copy x.user x.offset hrvalue hanswered.args
    (hanswered.data buf.bytes rfl)
  refine ⟨buf.bytes.drop x.result.data.val.length, ?_⟩
  unfold run
  rw [hrun, Mem.bind_ok]
  exact hreturn

/-- A negative result is a very large length. -/
theorem lt_toUInt64_of_neg (hneg : ¬ 0 ≤ x.result.rvalue) : x.size < x.result.rvalue.toUInt64 := by
  have hlimit : NETDEV_MESSAGE_LIMIT.toNat = 213000 := rfl
  have hsize := UInt64.lt_iff_toNat_lt.mp x.limit
  have hnat : x.result.rvalue.toUInt64.toNat = x.result.rvalue.toBitVec.toNat := rfl
  have hint : x.result.rvalue.toInt = x.result.rvalue.toBitVec.toInt := rfl
  have hcond := BitVec.toInt_eq_toNat_cond x.result.rvalue.toBitVec
  have hneg' := Int64.le_iff_toInt_le.not.mp hneg
  have hzero : (0 : Int64).toInt = 0 := rfl
  apply UInt64.lt_iff_toNat_lt.mpr
  rw [← hint] at hcond
  split at hcond
  all_goals omega

theorem toUInt64_le_of_nonneg (hpos : 0 ≤ x.result.rvalue) : x.result.rvalue.toUInt64 ≤ x.size := by
  have hnat := Int64.toNat_toUInt64_of_le hpos
  have hclamp : x.result.rvalue.toNatClampNeg = x.result.rvalue.toInt.toNat := rfl
  have hbounded : x.result.rvalue.toInt ≤ x.size.toNat := x.bounded
  apply UInt64.le_iff_toNat_le.mpr
  omega

end RemoteRead

/-- A read is transparent exactly when the device does not fail: the user's buffer, the
offset and the value are those of the device, and the copy is no longer than the buffer. -/
theorem read_transparent_iff (x : RemoteRead) {copy : CopyToUser} (hcopy : copy.Copies) :
    ∃ o, x.run copy = .ok o ∧ (x.Transparent o ↔ 0 ≤ x.result.rvalue) := by
  obtain ⟨rest, hrun⟩ := x.run_eq copy
  refine ⟨_, hrun, fun htransparent => ?_, fun hpos => ?_⟩
  · by_contra hneg
    obtain ⟨len, hlen, hle⟩ := htransparent.copied
    obtain rfl := Option.some.inj hlen
    exact absurd (x.lt_toUInt64_of_neg hneg) (UInt64.not_lt.mpr hle)
  · have hle := x.toUInt64_le_of_nonneg hpos
    have hlen := UInt64.le_iff_toNat_le.mp hle
    have hnat := Int64.toNat_toUInt64_of_le hpos
    have hdata := x.data_length
    have hdone := hcopy x.user (x.result.data.val ++ rest) x.result.rvalue.toUInt64
      (hlen.trans x.length.ge) (by rw [List.length_append]; omega)
    rw [hnat, List.take_append_of_le_length (by omega)] at hdone
    rw [hdone]
    exact ⟨⟨_, rfl, hle⟩, rfl, rfl, rfl⟩

namespace Sample

/-- A `copy_to_user` that refuses what is too long. -/
def copyToUser : CopyToUser := fun user data n =>
  if n.toNat ≤ user.length ∧ n.toNat ≤ data.length then
    (data.take n.toNat ++ user.drop n.toNat, 0)
  else
    (user, n)

theorem copyToUser_copies : copyToUser.Copies := fun _ _ _ huser hdata => if_pos ⟨huser, hdata⟩

/-- A driver that can only be read from. -/
def readOnly (read : (buf : Bytes) → Int64 → ReadResult buf.length) : FileOperations where
  llseek := none
  read := some read
  write := none
  unlockedIoctl := none
  compatIoctl := none
  flush := none

theorem four_limit : (4 : UInt64) < NETDEV_MESSAGE_LIMIT := by decide

/-- Four bytes are asked for. -/
def readFour (read : (buf : Bytes) → Int64 → ReadResult buf.length)
    (bounded : (read (List.replicate 4 0) 0).rvalue.toInt ≤ 4) : RemoteRead where
  surroundings := surroundings
  server := ⟨some ⟨some (readOnly read), 0⟩⟩
  ops := readOnly read
  read := read
  opened := rfl
  device := rfl
  size := 4
  limit := four_limit
  offset := 0
  bounded := bounded
  user := [1, 2, 3, 4]
  length := rfl

/-- The device has one byte left. -/
def shortRead : RemoteRead :=
  readFour (fun buf offset => ⟨1, offset + 1, ⟨([10] : Bytes).take buf.length ++ buf.drop 1, by simp; omega⟩⟩)
    (by decide)

/-- What it reports when it fails with `-EIO`. -/
theorem eio_le : (-5 : Int64).toInt ≤ 4 := by decide

def failedRead : RemoteRead :=
  readFour (fun buf offset => ⟨-5, offset, ⟨buf, rfl⟩⟩) eio_le

end Sample

theorem read_transparent_iff_short : ∃ o, Sample.shortRead.run Sample.copyToUser = .ok o ∧
    Sample.shortRead.Transparent o := by
  obtain ⟨o, hrun, hiff⟩ := read_transparent_iff Sample.shortRead Sample.copyToUser_copies
  exact ⟨o, hrun, hiff.mpr (by decide)⟩

/-- The error becomes the length of the copy. -/
theorem read_error_copied : ∃ o, Sample.failedRead.run Sample.copyToUser = .ok o ∧
    o.copied = some 18446744073709551611 ∧ ¬ Sample.failedRead.Transparent o := by
  obtain ⟨rest, hrun⟩ := Sample.failedRead.run_eq Sample.copyToUser
  refine ⟨_, hrun, rfl, fun h => ?_⟩
  obtain ⟨len, hlen, hle⟩ := h.copied
  obtain rfl := Option.some.inj hlen
  exact absurd hle (by decide)

/-! ## Operations without a buffer -/

/-- What most `ndfo_send_*` functions do after `fo_send`: its error, or the result in the
args struct. -/
def sendReturn {σ α : Type} [Layout σ] [Layout α] (ofInt : Int32 → α) (rvalueField : Field σ α)
    (done : FoReq) : Mem α := do
  if done.rvalue < 0 then
    return ofInt done.rvalue
  else
    rvalueField.load (← deref done.args)

def unlockedIoctlReturn : FoReq → Mem Int64 := sendReturn Int32.toInt64 SFoUnlockedIoctl.rvalueField
def compatIoctlReturn : FoReq → Mem Int64 := sendReturn Int32.toInt64 SFoUnlockedIoctl.rvalueField
def openReturn : FoReq → Mem Int32 := sendReturn id SFoOpen.rvalueField
def flushReturn : FoReq → Mem Int32 := sendReturn id SFoRelease.rvalueField
def releaseReturn : FoReq → Mem Int32 := sendReturn id SFoRelease.rvalueField

theorem llseekReturn_sendReturn : llseekReturn = sendReturn Int32.toInt64 SFoLlseek.rvalueField := rfl

section Returns
variable {σ α : Type} [Layout σ] [Layout α] {ofInt : Int32 → α} {rvalueField : Field σ α} {done : FoReq}

theorem sendReturn_args {args : σ} (hrvalue : done.rvalue = 0) (hargs : done.args = some (toBytes args)) :
    sendReturn ofInt rvalueField done = .ok (rvalueField.get args) := by
  unfold sendReturn
  rw [hrvalue, if_neg (by decide), hargs]
  exact rvalueField.load_toBytes args

theorem sendReturn_failed (hrvalue : done.rvalue = -1) :
    sendReturn ofInt rvalueField done = .ok (ofInt (-1)) := by
  unfold sendReturn
  rw [hrvalue]
  rfl

end Returns

/-- The calls of `ndfo_send_*` functions that pass no buffer. -/
inductive PlainCall where
  | llseek (offset : Int64) (whence : Int32) (pad : UInt32)
  | unlockedIoctl (cmd : UInt32) (arg : UInt64) (pad : UInt32)
  | compatIoctl (cmd : UInt32) (arg : UInt64) (pad : UInt32)
  | open (pad : UInt32)
  | flush
  | release

namespace PlainCall

def call : PlainCall → FoCall
  | .llseek offset whence pad => .llseek offset whence pad
  | .unlockedIoctl cmd arg pad => .unlockedIoctl cmd arg pad
  | .compatIoctl cmd arg pad => .compatIoctl cmd arg pad
  | .open pad => .open pad
  | .flush => .flush
  | .release => .release

/-- The value as a number, whatever the C type of the function. -/
def returned : PlainCall → FoReq → Mem Int
  | .llseek .., done => do return (← llseekReturn done).toInt
  | .unlockedIoctl .., done => do return (← unlockedIoctlReturn done).toInt
  | .compatIoctl .., done => do return (← compatIoctlReturn done).toInt
  | .open .., done => do return (← openReturn done).toInt
  | .flush, done => do return (← flushReturn done).toInt
  | .release, done => do return (← releaseReturn done).toInt

/-- The device implements the operation, and gives `r`: `filp_open` for an open, and
`filp_close` for a release. -/
def Gives (server : ServerAccess) (filpOpen : Except Int32 File) : PlainCall → Int → Prop
  | .llseek offset whence _, r =>
      ∃ ops llseek, server.fOp = .ok ops ∧ ops.llseek = some llseek ∧ r = (llseek offset whence).toInt
  | .unlockedIoctl cmd arg _, r =>
      ∃ ops ioctl, server.fOp = .ok ops ∧ ops.unlockedIoctl = some ioctl ∧ r = (ioctl cmd arg).toInt
  | .compatIoctl cmd arg _, r =>
      ∃ ops ioctl, server.fOp = .ok ops ∧ ops.compatIoctl = some ioctl ∧ r = (ioctl cmd arg).toInt
  | .open _, r =>
      (∃ filp ops, filpOpen = .ok filp ∧ filp.fOp = some ops ∧ r = 0) ∨
        ∃ err, filpOpen = .error err ∧ r = err.toInt
  | .flush, r => ∃ ops rvalue, server.fOp = .ok ops ∧ ops.flush = some rvalue ∧ r = rvalue.toInt
  | .release, r => ∃ filp, server.filp = some filp ∧ r = filp.close.toInt

theorem Gives.serves {server : ServerAccess} {filpOpen : Except Int32 File} {c : PlainCall} {r : Int}
    (h : c.Gives server filpOpen r) : server.Serves c.call := by
  cases c with
  | llseek =>
      obtain ⟨ops, _, hops, _⟩ := h
      exact ⟨ops, hops⟩
  | unlockedIoctl =>
      obtain ⟨ops, ioctl, hops, hioctl, _⟩ := h
      exact ⟨ops, ioctl, hops, hioctl⟩
  | compatIoctl =>
      obtain ⟨ops, ioctl, hops, hioctl, _⟩ := h
      exact ⟨ops, ioctl, hops, hioctl⟩
  | «open» => trivial
  | flush =>
      obtain ⟨ops, _, hops, _⟩ := h
      exact ⟨ops, hops⟩
  | release =>
      obtain ⟨filp, hfilp, _⟩ := h
      exact ⟨filp, hfilp⟩

/-- The handler's own result says nothing about the device's. -/
def KeepsResult (filpOpen : Except Int32 File) : PlainCall → Int → Prop
  | .unlockedIoctl .., r => r = -1
  | .open _, r => (∃ filp, filpOpen = .ok filp) ∨ r = -1
  | _, _ => True

/-- The whole call. -/
def send (w : Surroundings) (server : ServerAccess) (c : PlainCall) (serves : server.Serves c.call) :
    Mem Int := do
  let o ← (w.exchange server c.call serves).run
  c.returned o.done

section Calls
variable (w : Surroundings) {server : ServerAccess} {c : PlainCall} (serves : server.Serves c.call)

theorem send_eq {o : Outcome} (hrun : (w.exchange server c.call serves).run = .ok o) :
    c.send w server serves = c.returned o.done := by
  unfold send
  rw [hrun, Mem.bind_ok]

/-- A handler that fails makes the function return -1. -/
theorem send_failed {acc : ServerAccess} {result : FoReq}
    (hresult : c.call.handler ⟨w.filpOpen, true⟩ server (c.call.decoded w.fresh w.accessId)
      = .ok (-1, acc, result)) :
    c.send w server serves = .ok (-1) := by
  obtain ⟨done, hrun, hrvalue, -⟩ := (w.exchange server c.call serves).run_failure hresult
  rw [send_eq w serves hrun]
  cases c with
  | llseek =>
      simp only [returned, llseekReturn_sendReturn, sendReturn_failed hrvalue, Mem.bind_ok]
      rfl
  | unlockedIoctl =>
      simp only [returned, unlockedIoctlReturn, sendReturn_failed hrvalue, Mem.bind_ok]
      rfl
  | compatIoctl =>
      simp only [returned, compatIoctlReturn, sendReturn_failed hrvalue, Mem.bind_ok]
      rfl
  | «open» =>
      simp only [returned, openReturn, sendReturn_failed hrvalue, Mem.bind_ok]
      rfl
  | flush =>
      simp only [returned, flushReturn, sendReturn_failed hrvalue, Mem.bind_ok]
      rfl
  | release =>
      simp only [returned, releaseReturn, sendReturn_failed hrvalue, Mem.bind_ok]
      rfl

/-- One that succeeds brings back the result in the args struct. -/
theorem send_handled {σ α : Type} [Layout σ] [Layout α] (ofInt : Int32 → α) (rvalueField : Field σ α)
    (toInt : α → Int) (hreturned : ∀ done, c.returned done
      = sendReturn ofInt rvalueField done >>= fun value => .ok (toInt value))
    {acc : ServerAccess} {args : σ}
    (hresult : c.call.handler ⟨w.filpOpen, true⟩ server (c.call.decoded w.fresh w.accessId)
      = .ok (0, acc, { c.call.decoded w.fresh w.accessId with args := some (toBytes args) }))
    (hlen : c.call.args.length = sizeof σ) (hpointer : c.call.KeepsPointer (toBytes args)) :
    c.send w server serves = .ok (toInt (rvalueField.get args)) := by
  obtain ⟨done, hrun, hrvalue, hanswered⟩ := (w.exchange server c.call serves).run_success hresult
    (by decide) (handled_args ((Layout.length_toBytes args).trans hlen.symm) hpointer)
  rw [send_eq w serves hrun, hreturned]
  change sendReturn ofInt rvalueField done >>= _ = _
  rw [sendReturn_args hrvalue hanswered.args, Mem.bind_ok]

end Calls

end PlainCall

/-- The caller gets the device's result, success or error, except from
`unlocked_ioctl`, whose handler always fails, and from an `open` whose error is lost with
the handler's failure. -/
theorem result_unchanged_iff (w : Surroundings) {server : ServerAccess} {c : PlainCall} {r : Int}
    (h : c.Gives server w.filpOpen r) :
    ∃ v, c.send w server h.serves = .ok v ∧ (v = r ↔ c.KeepsResult w.filpOpen r) := by
  generalize h.serves = serves
  cases c with
  | llseek offset whence pad =>
      obtain ⟨ops, llseek, hops, hllseek, rfl⟩ := h
      refine ⟨_, ?_, iff_of_true rfl trivial⟩
      exact PlainCall.send_handled w serves Int32.toInt64 SFoLlseek.rvalueField Int64.toInt (fun _ => rfl)
        (ndfoRecvLlseek_eq ⟨w.filpOpen, true⟩ server hops hllseek) (Layout.length_toBytes _) trivial
  | unlockedIoctl cmd arg pad =>
      obtain ⟨ops, ioctl, hops, hioctl, rfl⟩ := h
      refine ⟨-1, ?_, eq_comm⟩
      exact PlainCall.send_failed w serves (ndfoRecvUnlockedIoctl_eq ⟨w.filpOpen, true⟩ server hops hioctl)
  | compatIoctl cmd arg pad =>
      obtain ⟨ops, ioctl, hops, hioctl, rfl⟩ := h
      refine ⟨_, ?_, iff_of_true rfl trivial⟩
      exact PlainCall.send_handled w serves Int32.toInt64 SFoUnlockedIoctl.rvalueField Int64.toInt
        (fun _ => rfl) (ndfoRecvCompatIoctl_eq ⟨w.filpOpen, true⟩ server hops hioctl)
        (Layout.length_toBytes _) trivial
  | «open» pad =>
      rcases h with ⟨filp, ops, hfile, hops, rfl⟩ | ⟨err, herr, rfl⟩
      · refine ⟨_, ?_, iff_of_true rfl (.inl ⟨filp, hfile⟩)⟩
        exact PlainCall.send_handled w serves id SFoOpen.rvalueField Int32.toInt (fun _ => rfl)
          (ndfoRecvOpen_eq ⟨w.filpOpen, true⟩ server hfile hops) (Layout.length_toBytes _) trivial
      · obtain ⟨acc, hfailed⟩ := @ndfoRecvOpen_failed w.fresh w.accessId ⟨w.filpOpen, true⟩ server pad
          fun filp hfile => nomatch herr.symm.trans hfile
        refine ⟨-1, PlainCall.send_failed w serves hfailed, fun heq => .inr heq.symm, fun hkeeps => ?_⟩
        rcases hkeeps with ⟨filp, hfile⟩ | hr
        · cases herr.symm.trans hfile
        · exact hr.symm
  | flush =>
      obtain ⟨ops, rvalue, hops, hflush, rfl⟩ := h
      refine ⟨_, ?_, iff_of_true rfl trivial⟩
      exact PlainCall.send_handled w serves id SFoRelease.rvalueField Int32.toInt (fun _ => rfl)
        (ndfoRecvFlush_eq ⟨w.filpOpen, true⟩ server hops hflush) (Layout.length_toBytes _) trivial
  | release =>
      obtain ⟨filp, hfilp, rfl⟩ := h
      refine ⟨_, ?_, iff_of_true rfl trivial⟩
      exact PlainCall.send_handled w serves id SFoRelease.rvalueField Int32.toInt (fun _ => rfl)
        (ndfoRecvRelease_eq ⟨w.filpOpen, true⟩ server hfilp) (Layout.length_toBytes _) trivial

namespace Sample

/-- A device with an `ioctl` that always succeeds, and an `llseek` to where it is told. -/
def ioctls : FileOperations where
  llseek := some fun offset _ => offset
  read := none
  write := none
  unlockedIoctl := some fun _ _ => 0
  compatIoctl := some fun _ _ => 0
  flush := none

def ioctlServer : ServerAccess := ⟨some ⟨some ioctls, 0⟩⟩

theorem llseek_gives : (PlainCall.llseek 7 0 0).Gives ioctlServer surroundings.filpOpen 7 :=
  ⟨ioctls, _, rfl, rfl, rfl⟩

theorem ioctl_gives : (PlainCall.unlockedIoctl 1 2 0).Gives ioctlServer surroundings.filpOpen 0 :=
  ⟨ioctls, _, rfl, rfl, rfl⟩

end Sample

theorem result_unchanged_iff_llseek :
    (PlainCall.llseek 7 0 0).send Sample.surroundings Sample.ioctlServer Sample.llseek_gives.serves = .ok 7 := by
  obtain ⟨v, hsend, hiff⟩ := result_unchanged_iff Sample.surroundings Sample.llseek_gives
  rw [hsend, hiff.mpr trivial]

/-- The device's `ioctl` returns 0, and the caller gets -1. -/
theorem ioctl_result_lost : (PlainCall.unlockedIoctl 1 2 0).Gives Sample.ioctlServer Sample.surroundings.filpOpen 0 ∧
    (PlainCall.unlockedIoctl 1 2 0).send Sample.surroundings Sample.ioctlServer Sample.ioctl_gives.serves
      = .ok (-1) :=
  ⟨Sample.ioctl_gives, PlainCall.send_failed _ _ (@ndfoRecvUnlockedIoctl_eq _ _
    ⟨Sample.surroundings.filpOpen, true⟩ Sample.ioctlServer Sample.ioctls 1 0 2 _ rfl rfl)⟩

end Netdev.Kernel
