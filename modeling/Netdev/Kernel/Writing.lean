-- SUMMARY: Writes to a dummy file one after the other beside the same writes on the remote device: the position stays behind.
import Netdev.Kernel.Position

/-!
# Sequences of writes

`ndfo_send_write` sets `*offset` before the exchange and not after it, and keeps what
`fo_send` returns in a `size_t`, which is never negative.
-/

namespace Netdev.Kernel
open Base

/-! ## Writes -/

/-- How `fo_send` fails before its request is on the way. -/
inductive SendError where
  | inactive
  | noMemory
  | unserialized
  | unnumbered
  | unsent

def SendError.code : SendError → Int32
  | .inactive => -EBUSY
  | .noMemory => -ENOMEM
  | .unserialized => -ENODATA
  | .unnumbered => -EBUSY
  | .unsent => -ECANCELED

/-- What becomes of the request of a write. -/
inductive Fate where
  | failed (e : SendError)
  /-- The server has failed, and sends the request back as it came. -/
  | refused
  | served (server : ServerAccess) (ops : FileOperations) (write : Bytes → Int64 → WriteResult)
      (opened : server.fOp = .ok ops) (device : ops.write = some write)

/-- A write; `bytes` are the user's. -/
structure WriteCall where
  surroundings : Surroundings
  size : UInt64
  limit : size < NETDEV_MESSAGE_LIMIT
  bytes : Bytes
  length : bytes.length = size.toNat
  fate : Fate

/-- How a write ends: its value, the offset at which it has reached the device, and
`*offset`. -/
structure Written where
  value : Int64
  reached : Option Int64
  offset : Int64
  deriving DecidableEq

namespace WriteCall

/-- `args.data` after `copy_from_user`. -/
def buffer (c : WriteCall) : DataBuffer := ⟨c.size, c.limit, c.surroundings.addr, c.bytes, c.length⟩

def call (c : WriteCall) (offset : Int64) : FoCall := .write c.buffer offset

/-- The exchange with a server that has the file open. -/
def exchange (c : WriteCall) (offset : Int64) {server : ServerAccess} {ops : FileOperations}
    {write : Bytes → Int64 → WriteResult} (opened : server.fOp = .ok ops)
    (device : ops.write = some write) : Exchange :=
  c.surroundings.exchange server (c.call offset) ⟨ops, write, opened, device⟩

/-- The request that waits, and the one that was sent coming back to it. -/
def waiting (c : WriteCall) (offset : Int64) : FoReq :=
  (c.call offset).request c.surroundings.accessId c.surroundings.curseq

def echo (c : WriteCall) (offset : Int64) : Bytes :=
  ((c.call offset).request c.surroundings.accessId c.surroundings.stale).wire (c.call offset).args
    (c.call offset).payload ++ c.surroundings.replyPad

/-- `fo_send` of a write: its result, the args struct afterwards, and the offset that the
device was given. -/
def foSend (c : WriteCall) (offset : Int64) : Mem (Int32 × Bytes × Option Int64) :=
  match c.fate with
  | .failed e => return (e.code, (c.call offset).args, none)
  | .refused => do
      let (_, done) ← foDeserializeToreq true true (c.waiting offset) (c.echo offset)
      return (done.rvalue, ← deref done.args, none)
  | .served _ _ _ opened device => do
      let o ← (c.exchange offset opened device).run
      let reached ← SFoRead.offsetField.load (← deref o.seen.args)
      return (o.done.rvalue, ← deref o.done.args, some reached)

/-- `ndfo_send_write` from its args struct on. -/
def ndfoSendWrite (c : WriteCall) (offset : Int64) : Mem Written := do
  let offset ← SFoRead.offsetField.load (c.call offset).args
  let (result, args, reached) ← c.foSend offset
  let rvalue : UInt64 := result.toInt64.toUInt64
  if rvalue < 0 then
    return ⟨rvalue.toInt64, reached, offset⟩
  else do
    let value ← SFoRead.rvalueField.load args
    return ⟨value, reached, offset⟩

/-- The writes of one process; `*offset` is the `f_pos` of its file. -/
def run : Int64 → List WriteCall → Mem (List Written)
  | _, [] => return []
  | offset, c :: calls => do
      let written ← c.ndfoSendWrite offset
      return written :: (← run written.offset calls)

/-! ## The writes on the device -/

/-- What the write should do at an offset. -/
def direct (c : WriteCall) (offset : Int64) : Written :=
  match c.fate with
  | .failed e => ⟨e.code.toInt64, none, offset⟩
  | .refused => ⟨-1, none, offset⟩
  | .served _ _ write _ _ => ⟨(write c.bytes offset).rvalue, some offset, (write c.bytes offset).offset⟩

def runDirect : Int64 → List WriteCall → List Written
  | _, [] => []
  | offset, c :: calls => c.direct offset :: runDirect (c.direct offset).offset calls

/-- `fo_send` succeeds, and the device leaves the offset as it was. -/
def Keeps (offset : Int64) (c : WriteCall) : Prop :=
  match c.fate with
  | .failed _ => False
  | .refused => False
  | .served _ _ write _ _ => (write c.bytes offset).offset = offset

/-! ## What the writes return -/

/-- What the write does. -/
def sent (c : WriteCall) (offset : Int64) : Written :=
  match c.fate with
  | .failed _ => ⟨- EIO.toInt64, none, offset⟩
  | .refused => ⟨- EIO.toInt64, none, offset⟩
  | .served _ _ write _ _ => ⟨(write c.bytes offset).rvalue, some offset, offset⟩

variable {c : WriteCall} {offset : Int64}

/-- No `size_t` is negative, so that the result of `fo_send` is never returned. -/
theorem ndfoSendWrite_of {result : Int32} {args : SFoRead} {reached : Option Int64}
    (h : c.foSend offset = .ok (result, toBytes args, reached)) :
    c.ndfoSendWrite offset = .ok ⟨args.rvalue, reached, offset⟩ := by
  have hoffset : SFoRead.offsetField.load (c.call offset).args = .ok offset :=
    SFoRead.offsetField.load_toBytes _
  have hvalue : SFoRead.rvalueField.load (toBytes args) = .ok args.rvalue :=
    SFoRead.rvalueField.load_toBytes args
  unfold ndfoSendWrite
  rw [hoffset, Mem.bind_ok, h, Mem.bind_ok]
  simp only [if_neg UInt64.not_lt_zero, hvalue, Mem.bind_ok, Mem.pure_eq_ok]

theorem foSend_failed {e : SendError} (hfate : c.fate = .failed e) :
    c.foSend offset = .ok (e.code, (c.call offset).args, none) := by
  simp only [foSend, hfate, Mem.pure_eq_ok]

theorem foSend_refused (hfate : c.fate = .refused) :
    c.foSend offset = .ok (-1, (c.call offset).args, none) := by
  obtain ⟨done, hdone, hrvalue, hanswered⟩ := @foDeserializeToreq_answered (c.call offset)
    ((c.call offset).request c.surroundings.accessId c.surroundings.stale) (c.call offset).args
    (c.call offset).payload c.surroundings.replyPad c.surroundings.accessId c.surroundings.curseq
    ((c.call offset).request_holds _ _) rfl (c.call offset).payload_length_le
  have hecho : foDeserializeToreq true true (c.waiting offset) (c.echo offset) = .ok (true, done) := hdone
  have hfailed : done.rvalue = -1 := hrvalue
  simp only [foSend, hfate, hecho, hfailed, hanswered.args, deref_some, Mem.bind_ok, Mem.pure_eq_ok]

theorem foSend_served {server : ServerAccess} {ops : FileOperations}
    {write : Bytes → Int64 → WriteResult} {opened : server.fOp = .ok ops}
    {device : ops.write = some write} (hfate : c.fate = .served server ops write opened device) :
    c.foSend offset = .ok (0, toBytes (SFoRead.answer c.buffer (write c.bytes offset).offset
      (write c.bytes offset).rvalue), some offset) := by
  let x := c.exchange offset opened device
  have hresult := @ndfoRecvWrite_eq x.fresh x.accessId x.env server ops c.buffer offset write opened device
  obtain ⟨done, hrun, hrvalue, hanswered⟩ := x.run_success hresult (by decide) (handled_write _ _)
  have hargs : done.args = some (toBytes (SFoRead.answer c.buffer (write c.bytes offset).offset
    (write c.bytes offset).rvalue)) := hanswered.args
  have hrun' : (c.exchange offset opened device).run = _ := hrun
  have hseen : deref (x.call.decoded x.fresh x.accessId).args = .ok (c.call offset).args := rfl
  have hreached : SFoRead.offsetField.load (c.call offset).args = .ok offset :=
    SFoRead.offsetField.load_toBytes _
  simp only [foSend, hfate, hrun', hseen, hreached, hrvalue, hargs, deref_some, Mem.bind_ok,
    Mem.pure_eq_ok]

theorem ndfoSendWrite_eq (c : WriteCall) (offset : Int64) :
    c.ndfoSendWrite offset = .ok (c.sent offset) := by
  cases hfate : c.fate with
  | failed e =>
      rw [ndfoSendWrite_of (foSend_failed hfate)]
      simp only [sent, hfate]
  | refused =>
      rw [ndfoSendWrite_of (foSend_refused hfate)]
      simp only [sent, hfate]
  | served server ops write opened device =>
      rw [ndfoSendWrite_of (foSend_served hfate)]
      simp only [sent, hfate]
      rfl

theorem sent_offset (c : WriteCall) (offset : Int64) : (c.sent offset).offset = offset := by
  unfold sent
  cases c.fate with
  | _ => rfl

/-- The position never moves. -/
theorem run_eq (offset : Int64) (calls : List WriteCall) :
    run offset calls = .ok (calls.map fun c => c.sent offset) := by
  induction calls with
  | nil => rfl
  | cons c calls ih =>
      simp only [run, ndfoSendWrite_eq, sent_offset, ih, Mem.bind_ok, Mem.pure_eq_ok, List.map_cons]

/-- `fo_send` never fails with the error that the args struct begins with. -/
theorem code_ne (e : SendError) : - EIO.toInt64 ≠ e.code.toInt64 := by
  cases e with
  | _ => decide

theorem sent_eq_direct_iff (c : WriteCall) (offset : Int64) :
    c.sent offset = c.direct offset ↔ c.Keeps offset := by
  unfold sent direct Keeps
  cases c.fate with
  | failed e =>
      refine iff_of_false (fun heq => ?_) not_false
      exact code_ne e (congrArg Written.value heq)
  | refused =>
      refine iff_of_false (fun heq => ?_) not_false
      have hne : - EIO.toInt64 ≠ -1 := by decide
      exact hne (congrArg Written.value heq)
  | served server ops write opened device =>
      simp only [Written.mk.injEq, true_and]
      exact eq_comm

theorem sent_eq_runDirect_iff (offset : Int64) (calls : List WriteCall) :
    (calls.map fun c => c.sent offset) = runDirect offset calls ↔ ∀ c ∈ calls, c.Keeps offset := by
  induction calls with
  | nil => exact iff_of_true rfl (List.forall_mem_nil _)
  | cons c calls ih =>
      simp only [List.map_cons, runDirect, List.cons.injEq, List.forall_mem_cons, sent_eq_direct_iff]
      refine and_congr_right fun hkeeps => ?_
      rw [← (sent_eq_direct_iff c offset).mpr hkeeps, sent_offset, ih]

end WriteCall

/-- Writes to a dummy file reach the device where the one before it has left off, and
return what the device or `fo_send` has returned, exactly when no `fo_send` fails and the
device never moves the offset. -/
theorem writes_transparent_iff (offset : Int64) (calls : List WriteCall) :
    ∃ written, WriteCall.run offset calls = .ok written ∧
      (written = WriteCall.runDirect offset calls ↔ ∀ c ∈ calls, c.Keeps offset) :=
  ⟨_, WriteCall.run_eq offset calls, WriteCall.sent_eq_runDirect_iff offset calls⟩

namespace Sample

/-- A driver that can only be written to. -/
def writeWith (write : Bytes → Int64 → WriteResult) : FileOperations where
  llseek := none
  read := none
  write := some write
  unlockedIoctl := none
  compatIoctl := none
  flush := none

/-- One byte is written. -/
def writeByte (write : Bytes → Int64 → WriteResult) : WriteCall where
  surroundings := surroundings
  size := 1
  limit := by decide
  bytes := [7]
  length := rfl
  fate := .served ⟨some ⟨some (writeWith write), 0⟩⟩ (writeWith write) write rfl rfl

/-- The device moves the offset past what it has taken. -/
def append : WriteCall :=
  writeByte fun bytes offset => ⟨Int64.ofNat bytes.length, offset + Int64.ofNat bytes.length⟩

end Sample

/-- The second byte goes over the first. -/
theorem writes_overwrite : WriteCall.run 0 [Sample.append, Sample.append]
      = .ok [⟨1, some 0, 0⟩, ⟨1, some 0, 0⟩] ∧
    WriteCall.runDirect 0 [Sample.append, Sample.append] = [⟨1, some 0, 1⟩, ⟨1, some 1, 2⟩] :=
  ⟨WriteCall.run_eq 0 _, by decide⟩

end Netdev.Kernel
