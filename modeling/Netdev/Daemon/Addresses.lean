-- SUMMARY: The way of a read or write from its buffer to the TCP socket, and what it tells about the addresses of buffers.
import Netdev.Daemon.Sendall
import Netdev.Kernel.FoSend
import Netdev.Kernel.Netlink

/-!
# Addresses on the wire

The args of a read or write hold the address of the kernel's buffer, and the header of a
frame that of the daemon's. Both are sent as they lie in memory.
-/

namespace Netdev.Daemon
open Base Kernel

/-- Where a run has its buffers: `args.data` of `kmalloc`, and the message that
`netlink_recv` returned. -/
structure Addresses where
  data : UInt64
  nlh : UInt64

/-- A call of `ndfo_send_read` or `ndfo_send_write` below the size limit, and what `fo_send`
adds to it. The buffer of a write holds the user's bytes. -/
structure Transfer where
  write : Bool
  size : UInt64
  limit : size < NETDEV_MESSAGE_LIMIT
  offset : Int64
  bytes : Bytes
  length : bytes.length = size.toNat
  accessId : Int32
  stale : Int64
  nlpid : UInt32
  seq : UInt32

/-- What the two programs meet: whether their allocations succeed, the padding in the
allocated header, the heap behind the frame, and the answers of `sendmsg`. -/
structure Machine where
  serialize : Bool
  ndhead : Bool
  buff : Bool
  pad : UInt32
  behind : Nat → UInt8
  events : List SendEvent

/-- Everything succeeds, and `sendmsg` accepts `n` bytes. -/
def Machine.whole (n : Nat) : Machine := ⟨true, true, true, 0, fun _ => 0, [.data n]⟩

namespace Transfer

def call (t : Transfer) (a : Addresses) : FoCall :=
  let buf : DataBuffer := ⟨t.size, t.limit, a.data, t.bytes, t.length⟩
  if t.write then .write buf t.offset else .read buf t.offset

/-- `proxy_handle_netlink` for the message that `netlink_recv` returned. -/
def proxyHandleNetlink (a : Addresses) (m : Machine) (nlh : NlMessage) : Mem Send :=
  if isFileOperation nlh.msgtype then
    if !m.ndhead then
      return .failed ⟨[], []⟩
    else
      let ndhead : NetdevHeader := ⟨nlh.msgtype, m.pad, nlh.header.nlmsgLen.toUInt64, a.nlh⟩
      connSend m.buff m.behind ndhead (nlh.bytes.take nlh.header.nlmsgLen.toNat) m.events
  else
    return .failed ⟨[], []⟩

/-- From `fo_send` on the kernel's side to `conn_send` on the daemon's. -/
def run (t : Transfer) (a : Addresses) (m : Machine) : Mem Send := do
  match ← foSerialize m.serialize ((t.call a).request t.accessId t.stale) with
  | none => return .failed ⟨[], []⟩
  | some buffer =>
      proxyHandleNetlink a m
        (Kernel.netlinkSend t.nlpid t.seq (t.call a).msgtype.toUInt16 NLM_F_REQUEST buffer)

/-- The bytes that `conn_send` writes to the socket. -/
def written (t : Transfer) (a : Addresses) (m : Machine) : Bytes :=
  match t.run a m with
  | .ok (.ok out _) => out.stream
  | .ok (.failed out) => out.stream
  | _ => []

/-! ## The frame -/

/-- The serialised request. -/
def wire (t : Transfer) (a : Addresses) : Bytes :=
  ((t.call a).request t.accessId t.stale).wire (t.call a).args (t.call a).payload

theorem args_call (t : Transfer) (a : Addresses) : (t.call a).args =
    toBytes ({ data := a.data, size := t.size, offset := t.offset, rvalue := - EIO.toInt64 } : SFoRead) := by
  cases hwrite : t.write <;> simp [call, hwrite, FoCall.args]

theorem payload_call (t : Transfer) (a : Addresses) : (t.call a).payload = if t.write then t.bytes else [] := by
  cases hwrite : t.write <;> simp [call, hwrite, FoCall.payload]

theorem wire_length (t : Transfer) (a : Addresses) :
    (t.wire a).length = 56 + (if t.write then t.bytes else []).length := by
  simp only [wire, FoReq.wire, List.length_append, FoReq.header_length, args_call, payload_call,
    Layout.length_toBytes]
  rfl

theorem wire_length_lt (t : Transfer) (a : Addresses) : (t.wire a).length < 213056 := by
  have hlimit : t.size.toNat < 213000 := UInt64.lt_iff_toNat_lt.mp t.limit
  have hlength := t.length
  rw [wire_length]
  split
  · omega
  · simp

/-- The header of the netlink message. -/
def nlh (t : Transfer) (a : Addresses) : Nlmsghdr :=
  (Kernel.netlinkSend t.nlpid t.seq (t.call a).msgtype.toUInt16 NLM_F_REQUEST (t.wire a)).header

/-- The frame that `conn_send` builds. -/
def frame (t : Transfer) (a : Addresses) (m : Machine) : Frame where
  msgtype := if t.write then MSGT_FO_WRITE else MSGT_FO_READ
  pad := m.pad
  ptr := a.nlh
  payload := toBytes (t.nlh a) ++ t.wire a
  nonempty := by
    simp [List.length_append]
    left
    decide
  bounded := by
    have := t.wire_length_lt a
    have hmax : INT_MAX = 2 ^ 31 - 1 := rfl
    have hsize : sizeof Nlmsghdr = 16 := rfl
    simp only [List.length_append, Layout.length_toBytes]
    omega

theorem frame_payload_length (t : Transfer) (a : Addresses) (m : Machine) :
    (t.frame a m).payload.length = sizeof Nlmsghdr + (t.wire a).length := by
  simp [frame]

theorem frame_bytes_length_le (t : Transfer) (a : Addresses) (m : Machine) :
    (t.frame a m).bytes.length ≤ INT_MAX := by
  have := t.wire_length_lt a
  have hmax : INT_MAX = 2 ^ 31 - 1 := rfl
  have hsize : sizeof Nlmsghdr = 16 := rfl
  have hhead : sizeof NetdevHeader = 24 := rfl
  rw [Frame.bytes_length, frame_payload_length]
  omega

/-- `nlmsg_len` of the message. -/
theorem nlmsgLen_nlh (t : Transfer) (a : Addresses) :
    (t.nlh a).nlmsgLen.toNat = sizeof Nlmsghdr + (t.wire a).length := by
  have := t.wire_length_lt a
  have hsize : sizeof Nlmsghdr = 16 := rfl
  change (UInt32.ofNat (sizeof Nlmsghdr + (t.wire a).length)).toNat = _
  apply UInt32.toNat_ofNat_of_lt'
  simp only [UInt32.size]
  omega

/-- The daemon takes the header and the request, and not the padding. -/
theorem take_netlinkSend (t : Transfer) (a : Addresses) :
    (Kernel.netlinkSend t.nlpid t.seq (t.call a).msgtype.toUInt16 NLM_F_REQUEST (t.wire a)).bytes.take
      (t.nlh a).nlmsgLen.toNat = toBytes (t.nlh a) ++ t.wire a := by
  rw [nlmsgLen_nlh]
  change (toBytes (t.nlh a) ++ (t.wire a ++ _)).take _ = _
  rw [← List.append_assoc]
  apply List.take_left'
  simp

theorem msgtype_netlinkSend (t : Transfer) (a : Addresses) (m : Machine) :
    (Kernel.netlinkSend t.nlpid t.seq (t.call a).msgtype.toUInt16 NLM_F_REQUEST (t.wire a)).msgtype
      = (t.frame a m).msgtype := by
  cases hwrite : t.write <;> simp [call, frame, hwrite] <;> rfl

/-- What `conn_send` is called with. -/
theorem run_eq (t : Transfer) (a : Addresses) {m : Machine} (hserialize : m.serialize = true)
    (hndhead : m.ndhead = true) :
    t.run a m = connSend m.buff m.behind (t.frame a m).header (t.frame a m).payload m.events := by
  have hserialized : foSerialize m.serialize ((t.call a).request t.accessId t.stale) = .ok (some (t.wire a)) := by
    rw [hserialize]
    exact ((t.call a).request_holds t.accessId t.stale).foSerialize
  have htype : isFileOperation (t.frame a m).msgtype = true := by
    cases hwrite : t.write <;> simp [frame, hwrite] <;> decide
  have hsize : (t.nlh a).nlmsgLen.toUInt64 = (t.frame a m).header.size := by
    apply UInt64.toNat_inj.mp
    rw [Frame.header_size, frame_payload_length, UInt32.toNat_toUInt64, nlmsgLen_nlh]
  have hheader : (⟨(t.frame a m).msgtype, m.pad, (t.nlh a).nlmsgLen.toUInt64, a.nlh⟩ : NetdevHeader)
      = (t.frame a m).header := by
    rw [hsize]
    rfl
  simp only [run, hserialized, Mem.bind_ok, proxyHandleNetlink, msgtype_netlinkSend t a m, htype, if_true, hndhead,
    Bool.not_true, Bool.false_eq_true, if_false]
  change connSend m.buff m.behind ⟨_, _, (t.nlh a).nlmsgLen.toUInt64, _⟩
    (List.take (t.nlh a).nlmsgLen.toNat _) m.events = _
  rw [take_netlinkSend, hheader]
  rfl

theorem written_whole (t : Transfer) (a : Addresses) {n : Nat}
    (hn : (t.frame a (.whole n)).bytes.length = n) :
    t.written a (.whole n) = (t.frame a (.whole n)).bytes := by
  have hsent := connSend_whole (t.frame a (.whole n)) (t.frame_bytes_length_le a _) fun _ => 0
  rw [hn] at hsent
  have hrun := (@run_eq t a (.whole n) rfl rfl).trans hsent
  rw [written, hrun]

/-- The frame tells both addresses. -/
theorem frame_injective (t : Transfer) {a a' : Addresses} {m : Machine}
    (h : (t.frame a m).bytes = (t.frame a' m).bytes) : a = a' := by
  have hsize : (toBytes (t.frame a m).header).length = (toBytes (t.frame a' m).header).length := by
    simp only [Layout.length_toBytes]
  obtain ⟨hheader, hpayload⟩ := List.append_inj h hsize
  have hnlh : a.nlh = a'.nlh := congrArg NetdevHeader.payload (Layout.toBytes_injective hheader)
  have hnlhSize : (toBytes (t.nlh a)).length = (toBytes (t.nlh a')).length := by
    simp only [Layout.length_toBytes]
  obtain ⟨-, hwire⟩ := List.append_inj hpayload hnlhSize
  have hargs : (t.call a).args = (t.call a').args := by
    unfold wire FoReq.wire at hwire
    simp only [List.append_assoc] at hwire
    obtain ⟨-, hrest⟩ := List.append_inj hwire (by simp only [FoReq.header_length])
    exact (List.append_inj hrest (by simp only [args_call, Layout.length_toBytes])).1
  have hdata : a.data = a'.data := by
    rw [args_call, args_call] at hargs
    exact congrArg SFoRead.data (Layout.toBytes_injective hargs)
  obtain ⟨data, nlh⟩ := a
  obtain ⟨data', nlh'⟩ := a'
  exact congrArg₂ Addresses.mk hdata hnlh

end Transfer

/-- The bytes that a read or write makes `conn_send` write, whatever else happens in the two
programs, are the same in two runs exactly when these have their buffers at the same
addresses. -/
theorem Transfer.written_same_iff (t : Transfer) (a a' : Addresses) :
    (∀ m, t.written a m = t.written a' m) ↔ a = a' := by
  constructor
  · intro h
    apply t.frame_injective (m := .whole (t.frame a (.whole 0)).bytes.length)
    have hlen : (t.frame a' (.whole 0)).bytes.length = (t.frame a (.whole 0)).bytes.length := by
      simp only [Frame.bytes_length, frame_payload_length, wire_length]
    rw [← t.written_whole a rfl, ← t.written_whole a' hlen]
    exact h _
  · rintro rfl m
    rfl

/-- A read of no bytes. -/
def Transfer.sample : Transfer where
  write := false
  size := 0
  limit := by decide
  offset := 0
  bytes := []
  length := rfl
  accessId := 3
  stale := 0
  nlpid := 7
  seq := 1

/-- The peer reads the address of the kernel's buffer in bytes 64 to 71 of the frame, and that
of the daemon's in bytes 16 to 23. -/
theorem Transfer.written_sample :
    let a : Addresses := ⟨0xffff888012345678, 0x55d0aabbccd0⟩
    let a' : Addresses := ⟨0xffff888087654320, 0x55d0ddeeff00⟩
    (((Transfer.sample.written a (.whole 96)).drop 64).take 8 = toBytes a.data ∧
      ((Transfer.sample.written a (.whole 96)).drop 16).take 8 = toBytes a.nlh) ∧
    Transfer.sample.written a (.whole 96) ≠ Transfer.sample.written a' (.whole 96) := by
  decide +kernel

end Netdev.Daemon
