-- SUMMARY: What the daemon forwards to the kernel: as many bytes as the nested header says, from a payload of another size.
import Netdev.Daemon.Sendall
import Netdev.Netlink

/-!
# Forwarding a frame

The payload of a frame is sent to the kernel as a netlink message. Its length is the one
that the peer wrote into the netlink header, which nothing compares with the size of the
frame.
-/

namespace Netdev.Daemon.Forward
open Base

/-- The `struct nlmsghdr` at the start of the memory. -/
def nlmsghdr (memory : Nat → UInt8) : Nlmsghdr := ofBytes (window memory 0 (sizeof Nlmsghdr))

/-- What `sendmsg` does on a netlink socket: it takes a datagram whole, or fails. -/
def datagram (sent : Bool) (len : Nat) : List SendEvent :=
  if !sent then [.error] else if len = 0 then [.nothing] else [.data len]

/-- The message that `netlink_send` gives to `sendall`. -/
def netlinkSend (memory : Nat → UInt8) (sent : Bool) : Send :=
  let nlmsgLen := (nlmsghdr memory).nlmsgLen.toNat
  sendallLoop memory (cInt nlmsgLen) ⟨0, nlmsgLen⟩ 0 ⟨[], []⟩ (datagram sent nlmsgLen)

/-- `netlink_send_nlh` up to the confirmation: it stores the pid in the message. -/
def netlinkSendNlh (pid : UInt32) (memory : Nat → UInt8) (sent : Bool) : Send :=
  netlinkSend (memoryAt (toBytes { nlmsghdr memory with nlmsgPid := pid }) memory) sent

/-- What `proxy_handle_remote` hands to the netlink socket for a message that `conn_recv`
returned; `behind` is the heap after its payload. -/
def proxyHandleRemote (pid : UInt32) (ndhead : Message) (behind : Nat → UInt8) (sent : Bool) : Option Send :=
  if isFileOperation ndhead.msgtype then
    some (netlinkSendNlh pid (memoryAt ndhead.payload behind) sent)
  else
    none

/-- The offers that a sending function made. -/
def offers : Send → List Offer
  | .ok out _ => out.offers
  | .failed out => out.offers
  | .illegal => []
  | .blocked => []

/-- `nlmsg_len` in the payload of a frame. -/
def nlmsgLen (payload : Bytes) : Nat := (ofBytes (payload.take (sizeof Nlmsghdr)) : Nlmsghdr).nlmsgLen.toNat

/-- What is handed to the socket lies inside a payload of `size` bytes. -/
structure Within (size : Nat) (send : Send) : Prop where
  header : sizeof Nlmsghdr ≤ size
  offers : ∀ o ∈ offers send, o.base + o.len ≤ size

section
variable {memory : Nat → UInt8}

theorem window_memoryAt_take {buf : Bytes} {behind : Nat → UInt8} {n : Nat} (h : n ≤ buf.length) :
    window (memoryAt buf behind) 0 n = buf.take n := by
  apply List.ext_getElem
  · simp [h]
  · intro i hi hi'
    simp at hi
    have hlt : i < buf.length := by omega
    simp [window, memoryAt, hlt]

/-- A header that was stored is read back. -/
theorem nlmsghdr_memoryAt (nlh : Nlmsghdr) : nlmsghdr (memoryAt (toBytes nlh) memory) = nlh := by
  have hwindow := window_memoryAt (toBytes nlh) memory
  rw [Layout.length_toBytes] at hwindow
  rw [nlmsghdr, hwindow, Layout.ofBytes_toBytes]

/-- One offer is made, of as many bytes as the header says. -/
theorem offers_netlinkSend (sent : Bool) :
    ∀ o ∈ offers (netlinkSend memory sent), o = ⟨0, (nlmsghdr memory).nlmsgLen.toNat⟩ := by
  unfold netlinkSend datagram
  cases sent with
  | false => simp [sendallLoop, offers]
  | true =>
      by_cases hzero : (nlmsghdr memory).nlmsgLen.toNat = 0
      · simp [hzero, sendallLoop, offers]
      · simp [hzero, sendallLoop]
        split <;> simp [offers]

theorem offers_netlinkSend_error :
    offers (netlinkSend memory false) = [⟨0, (nlmsghdr memory).nlmsgLen.toNat⟩] := by
  simp [netlinkSend, datagram, sendallLoop, offers]

end

/-- What is handed to the socket for a message lies inside its payload exactly when, for a
file operation, the payload holds a netlink header and as many bytes as that says. -/
theorem proxyHandleRemote_within_iff (pid : UInt32) (ndhead : Message) (behind : Nat → UInt8) :
    (∀ sent send, proxyHandleRemote pid ndhead behind sent = some send → Within ndhead.size send) ↔
      (isFileOperation ndhead.msgtype = true →
        sizeof Nlmsghdr ≤ ndhead.size ∧ nlmsgLen ndhead.payload ≤ ndhead.size) := by
  have hlen : sizeof Nlmsghdr ≤ ndhead.size →
      (nlmsghdr (memoryAt ndhead.payload behind)).nlmsgLen.toNat = nlmsgLen ndhead.payload := by
    intro hsize
    unfold nlmsghdr nlmsgLen
    rw [window_memoryAt_take hsize]
  unfold proxyHandleRemote
  constructor
  · intro hwithin hfo
    have hfailed := hwithin false _ (if_pos hfo)
    refine ⟨hfailed.header, ?_⟩
    have hoffer := hfailed.offers
    unfold netlinkSendNlh at hoffer
    rw [offers_netlinkSend_error, nlmsghdr_memoryAt] at hoffer
    have hle := hoffer _ (List.mem_singleton_self _)
    simpa [hlen hfailed.header] using hle
  · intro hfits sent send hsend
    split at hsend
    · rename_i hfo
      cases hsend
      obtain ⟨hheader, hle⟩ := hfits hfo
      refine ⟨hheader, ?_⟩
      intro o ho
      have ho' := offers_netlinkSend sent o ho
      rw [nlmsghdr_memoryAt] at ho'
      simpa [ho', hlen hheader] using hle
    · cases hsend

/-- A read whose frame ends with the netlink header, which speaks of 100 bytes. -/
def shortFrame : Frame where
  msgtype := MSGT_FO_READ
  pad := 0
  ptr := 0
  payload := toBytes ({ nlmsgLen := 100, nlmsgType := 102, nlmsgFlags := 1, nlmsgSeq := 1, nlmsgPid := 7 } : Nlmsghdr)
  nonempty := by decide
  bounded := by decide

/-- It is received, and 84 bytes of the heap go to the kernel with it. -/
theorem proxyHandleRemote_leaks_shortFrame :
    connRecv ⟨streamOf [shortFrame], handOut [24, 16]⟩ = .ok shortFrame.message ⟨[], []⟩ ∧
      ∃ send, proxyHandleRemote 7 shortFrame.message (fun _ => 170) true = some send ∧
        offers send = [⟨0, 100⟩] ∧ ¬ Within shortFrame.message.size send := by
  refine ⟨by decide, _, rfl, by decide, ?_⟩
  intro hwithin
  exact absurd (hwithin.offers ⟨0, 100⟩ (by decide)) (by decide)

end Netdev.Daemon.Forward
