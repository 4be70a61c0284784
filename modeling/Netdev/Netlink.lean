-- SUMMARY: Netlink messages: `struct nlmsghdr`, whole datagrams, and acknowledgements.
import Netdev.Base.Memory
import Netdev.Protocol

/-!
# Netlink messages

The daemon and the kernel module exchange whole datagrams: a `struct nlmsghdr`
and a payload.
-/

namespace Netdev
open Base

structure Nlmsghdr where
  nlmsgLen : UInt32
  nlmsgType : UInt16
  nlmsgFlags : UInt16
  nlmsgSeq : UInt32
  nlmsgPid : UInt32
  deriving DecidableEq

instance : Layout Nlmsghdr :=
  Layout.ofEquiv (β := UInt32 × (UInt16 × UInt16) × UInt32 × UInt32)
    { toFun := fun h => (h.nlmsgLen, (h.nlmsgType, h.nlmsgFlags), h.nlmsgSeq, h.nlmsgPid)
      invFun := fun p => ⟨p.1, p.2.1.1, p.2.1.2, p.2.2.1, p.2.2.2⟩
      left_inv := fun _ => rfl
      right_inv := fun _ => rfl }

def NLM_F_REQUEST : UInt16 := 1
def NLM_F_ACK : UInt16 := 4

/-- `NLMSG_SPACE`: header and payload, rounded up to four bytes. -/
def nlmsgSpace (len : Nat) : Nat := (sizeof Nlmsghdr + len + 3) / 4 * 4

/-- The `int` at the start of a buffer. -/
def asInt (buf : Bytes) : Int32 := ofBytes (buf.take (sizeof Int32))

@[simp] theorem asInt_toBytes (n : Int32) : asInt (toBytes n) = n := by
  have h : (toBytes n).take (sizeof Int32) = toBytes n := by
    rw [← Layout.length_toBytes n, List.take_length]
  rw [asInt, h, Layout.ofBytes_toBytes]

theorem asInt_take (buf : Bytes) : asInt (buf.take (sizeof Int32)) = asInt buf := by
  rw [asInt, List.take_take, Nat.min_self, asInt]

@[simp] theorem asInt_toBytes_append (n : Int32) (buf : Bytes) : asInt (toBytes n ++ buf) = n := by
  have h : (toBytes n ++ buf).take (sizeof Int32) = toBytes n :=
    List.take_left' (Layout.length_toBytes n)
  rw [asInt, h, Layout.ofBytes_toBytes]

structure NlMessage where
  header : Nlmsghdr
  payload : Bytes
  deriving DecidableEq

namespace NlMessage

/-- `nlmsg_type`, promoted to `int`. -/
def msgtype (m : NlMessage) : Int32 := Int32.ofNat m.header.nlmsgType.toNat

def bytes (m : NlMessage) : Bytes := toBytes m.header ++ m.payload

/-- Read a buffer as a `struct nlmsghdr` and what follows it. -/
def read (buf : Bytes) : NlMessage :=
  ⟨ofBytes (buf.take (sizeof Nlmsghdr)), buf.drop (sizeof Nlmsghdr)⟩

theorem read_bytes (m : NlMessage) : read m.bytes = m := by
  have hlen := Layout.length_toBytes m.header
  simp only [read, bytes, List.take_left' hlen, List.drop_left' hlen, Layout.ofBytes_toBytes]

/-- `nlmsg_put` and the copy of the payload: the length is that of header and
payload, and the payload is padded to four bytes. -/
def put (pid seq : UInt32) (msgtype flags : UInt16) (buff : Bytes) : NlMessage where
  header :=
    { nlmsgLen := UInt32.ofNat (sizeof Nlmsghdr + buff.length)
      nlmsgType := msgtype
      nlmsgFlags := flags
      nlmsgSeq := seq
      nlmsgPid := pid }
  payload := buff ++ List.replicate (nlmsgSpace buff.length - sizeof Nlmsghdr - buff.length) 0

/-- A message to or from the daemon `pid` with the type and payload given. -/
def build (pid : UInt32) (msgtype : Int32) (flags : UInt16) (payload : Bytes) : NlMessage where
  header :=
    { nlmsgLen := UInt32.ofNat (nlmsgSpace payload.length)
      nlmsgType := UInt16.ofNat msgtype.toNatClampNeg
      nlmsgFlags := flags
      nlmsgSeq := 0
      nlmsgPid := pid }
  payload := payload ++ List.replicate (nlmsgSpace payload.length - sizeof Nlmsghdr - payload.length) 0

/-- `nlmsg_pid` is the sender's. -/
def fromPid (m : NlMessage) (pid : UInt32) : NlMessage :=
  { m with header := { m.header with nlmsgPid := pid } }

/-- A type that fits into `nlmsg_type` is read back. -/
theorem build_msgtype {t : Int32} (hlow : 0 ≤ t.toInt) (hhigh : t.toInt < 2 ^ 16) (pid : UInt32)
    (flags : UInt16) (payload : Bytes) : (build pid t flags payload).msgtype = t := by
  have hclamp : t.toNatClampNeg = t.toInt.toNat := rfl
  have htype : (UInt16.ofNat t.toInt.toNat).toNat = t.toInt.toNat :=
    UInt16.toNat_ofNat_of_lt' (by simp only [UInt16.size]; omega)
  change Int32.ofNat (UInt16.ofNat t.toNatClampNeg).toNat = t
  apply Int32.toInt_inj.mp
  rw [hclamp, htype, Int32.toInt_ofNat_of_lt (by omega)]
  omega

/-- `netlink_ack`: type `NLMSG_ERROR`, and a `struct nlmsgerr` that begins with
the error and repeats the header of the message it answers. -/
def ack (m : NlMessage) (err : Int32) : NlMessage where
  header := { m.header with
    nlmsgLen := UInt32.ofNat (sizeof Nlmsghdr + sizeof Int32 + sizeof Nlmsghdr)
    nlmsgType := UInt16.ofNat NLMSG_ERROR.toNatClampNeg
    nlmsgFlags := 0 }
  payload := toBytes err ++ toBytes m.header

@[simp] theorem ack_msgtype (m : NlMessage) (err : Int32) : (ack m err).msgtype = NLMSG_ERROR :=
  rfl

/-- The field `error` of the `struct nlmsgerr` in the payload. -/
def error (m : NlMessage) : Int32 := asInt m.payload

@[simp] theorem ack_error (m : NlMessage) (err : Int32) : (ack m err).error = err :=
  asInt_toBytes_append err _

end NlMessage

end Netdev
