-- SUMMARY: The daemon's TCP framing: `struct netdev_header`, the frame `conn_send` builds, and `recvall`/`conn_recv`.
import Netdev.Base.Memory
import Netdev.Protocol

/-!
# Frames on the TCP stream

`conn_send` puts a header struct and then the payload on the stream, and
`conn_recv` reads them back with two calls of `recvall`. The peer and the network
appear as a `Socket`: the bytes not yet received, and what the next calls of
`recvmsg` will do with them.
-/

namespace Netdev.Daemon
open Base

/-! ## Frames -/

/-- `struct netdev_header` as it lies in memory: the padding after `msgtype` and
the sender's payload pointer are part of it. -/
structure NetdevHeader where
  msgtype : Int32
  pad : UInt32
  size : UInt64
  payload : UInt64
  deriving DecidableEq

instance : Layout NetdevHeader :=
  Layout.ofEquiv (β := (Int32 × UInt32) × UInt64 × UInt64)
    { toFun := fun h => ((h.msgtype, h.pad), h.size, h.payload)
      invFun := fun p => ⟨p.1.1, p.1.2, p.2.1, p.2.2⟩
      left_inv := fun _ => rfl
      right_inv := fun _ => rfl }

/-- What a caller of `conn_recv` gets: `size` is the length of the payload. -/
structure Message where
  msgtype : Int32
  payload : Bytes
  deriving DecidableEq

def Message.size (m : Message) : Nat := m.payload.length

/-- The buffer `conn_send` hands to `sendall`. -/
def connSendBuff (ndhead : NetdevHeader) (payload : Bytes) : Mem Bytes := do
  let size := (UInt64.ofNat (sizeof NetdevHeader) + ndhead.size).toNat
  let buff ← deref (zalloc true size)
  let buff ← store buff 0 ndhead
  memcpy buff (sizeof NetdevHeader) payload 0 ndhead.size.toNat

/-- A message that the framing claims to carry: its payload is not empty and its
size is an `int`. The padding and the pointer are whatever the sender's memory
held. -/
structure Frame where
  msgtype : Int32
  pad : UInt32
  ptr : UInt64
  payload : Bytes
  nonempty : 0 < payload.length
  bounded : payload.length ≤ INT_MAX

namespace Frame

def header (f : Frame) : NetdevHeader := ⟨f.msgtype, f.pad, UInt64.ofNat f.payload.length, f.ptr⟩

def bytes (f : Frame) : Bytes := toBytes f.header ++ f.payload

def message (f : Frame) : Message := ⟨f.msgtype, f.payload⟩

@[simp] theorem header_msgtype (f : Frame) : f.header.msgtype = f.msgtype := rfl

@[simp] theorem header_size (f : Frame) : f.header.size.toNat = f.payload.length := by
  have h := f.bounded
  unfold INT_MAX at h
  exact UInt64.toNat_ofNat_of_lt' (by simp only [UInt64.size]; omega)

@[simp] theorem bytes_length (f : Frame) :
    f.bytes.length = sizeof NetdevHeader + f.payload.length := by
  simp [bytes]

private theorem sendSize (f : Frame) :
    (UInt64.ofNat (sizeof NetdevHeader) + f.header.size).toNat
      = sizeof NetdevHeader + f.payload.length := by
  have h := f.bounded
  unfold INT_MAX at h
  have hhead : (UInt64.ofNat (sizeof NetdevHeader)).toNat = sizeof NetdevHeader := by decide
  have hlt : sizeof NetdevHeader < 2 ^ 10 := by decide
  rw [UInt64.toNat_add, header_size, hhead, Nat.mod_eq_of_lt (by omega)]

/-- The frame is what `conn_send` builds for its header and payload. -/
theorem connSendBuff_eq (f : Frame) : connSendBuff f.header f.payload = .ok f.bytes := by
  have hstore : store (List.replicate (sizeof NetdevHeader + f.payload.length) 0) 0 f.header
      = .ok (toBytes f.header ++ List.replicate f.payload.length 0) := by
    simpa using @store_zeros NetdevHeader _ [] f.header 0 f.payload.length _ rfl rfl
  have hcopy := @memcpy_zeros (toBytes f.header) f.payload (sizeof NetdevHeader)
    f.payload.length 0 f.payload.length (by simp) le_rfl rfl
  simp only [List.take_length, List.replicate_zero, List.append_nil] at hcopy
  simp only [connSendBuff, sendSize, header_size, zalloc_true, deref_some, Mem.bind_ok, hstore, hcopy, bytes]

end Frame

/-! ## Receiving -/

/-- What one call of `recvmsg` does: hand out a piece of the given length, fail,
or report that the peer closed the connection. -/
inductive RecvEvent where
  | data (n : Nat)
  | error
  | closed
  deriving DecidableEq, Repr

structure Socket where
  stream : Bytes
  events : List RecvEvent
  deriving DecidableEq

/-- How a receiving function ends. `overrun` is a store behind the end of the
buffer; `illegal` marks an event that `recvmsg` cannot produce, such as a piece
longer than the `iov_len` it was asked for; `blocked` is a call that never
returns. -/
inductive Recv (α : Type) where
  | ok (a : α) (sock : Socket)
  | failed (sock : Socket)
  | overrun
  | illegal
  | blocked
  deriving DecidableEq

namespace Recv
variable {α β : Type}

def bind : Recv α → (α → Socket → Recv β) → Recv β
  | ok a sock, f => f a sock
  | failed sock, _ => failed sock
  | overrun, _ => overrun
  | illegal, _ => illegal
  | blocked, _ => blocked

@[simp] theorem bind_ok (a : α) (sock : Socket) (f : α → Socket → Recv β) :
    (ok a sock).bind f = f a sock := rfl
@[simp] theorem bind_overrun (f : α → Socket → Recv β) : (overrun : Recv α).bind f = overrun := rfl
@[simp] theorem bind_illegal (f : α → Socket → Recv β) : (illegal : Recv α).bind f = illegal := rfl

end Recv

/-- The one `struct iovec` of a `struct msghdr`: the buffer, how far `iov_base`
has moved into it, and `iov_len`. -/
structure Iovec where
  buf : Bytes
  base : Nat
  len : Nat

/-- The loop of `recvall`. After each piece `iov_len` becomes the number of bytes
read so far. -/
def recvallLoop (size : Int) (iov : Iovec) (bytes : Int) (stream : Bytes) :
    List RecvEvent → Recv Bytes
  | [] => .blocked
  | .error :: es => .failed ⟨stream, es⟩
  | .closed :: es => .failed ⟨stream, es⟩
  | .data n :: es =>
      if 0 < n ∧ n ≤ iov.len ∧ n ≤ stream.length then
        match memcpy iov.buf iov.base stream 0 n with
        | .error _ => .overrun
        | .ok buf =>
            let bytes := cInt (bytes + n)
            if bytes < size then
              recvallLoop size ⟨buf, iov.base + n, cSize bytes⟩ bytes (stream.drop n) es
            else
              .ok buf ⟨stream.drop n, es⟩
      else
        .illegal

/-- `recvall` into a fresh buffer of `size` bytes; the parameter `size` of the C
function is an `int`. -/
def recvall (size : Nat) (sock : Socket) : Recv Bytes :=
  recvallLoop (cInt size) ⟨List.replicate size 0, 0, size⟩ 0 sock.stream sock.events

/-- A NULL result is `failed`. -/
def connRecv (sock : Socket) : Recv Message :=
  (recvall (sizeof NetdevHeader) sock).bind fun buf sock =>
    let ndhead : NetdevHeader := ofBytes buf
    (recvall ndhead.size.toNat sock).bind fun payload sock =>
      .ok ⟨ndhead.msgtype, payload⟩ sock

/-- `n` successive calls. -/
def connRecvs : Nat → Socket → Recv (List Message)
  | 0, sock => .ok [] sock
  | n + 1, sock =>
      (connRecv sock).bind fun m sock =>
        (connRecvs n sock).bind fun ms sock => .ok (m :: ms) sock

end Netdev.Daemon
