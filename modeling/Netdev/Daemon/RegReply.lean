-- SUMMARY: The reply to a registration: its header is that of the request, so that its size is that of the device name.
import Netdev.Daemon.Framing
import Netdev.Daemon.Ops

/-!
# The registration reply

`conn_recv_dev_reg` answers in the header struct that it received, with another payload. The
size stays that of the name, and `conn_send` copies as many bytes of the reply.
-/

namespace Netdev.Daemon
open Base

/-! ## What `conn_recv` returns -/

/-- The loop of `recvall` with `pre` already read: when it returns, the rest of the buffer is
filled from the stream. The induction is on the events; a piece that did not fit would have
been stored behind the buffer. -/
theorem recvallLoop_ok {es : List RecvEvent} {len : Nat} {pre mid stream buf : Bytes} {sock : Socket}
    (hmax : pre.length + mid.length ≤ INT_MAX)
    (h : recvallLoop (pre.length + mid.length : Nat) ⟨pre ++ mid, pre.length, len⟩ pre.length stream es
      = .ok buf sock) :
    buf = pre ++ stream.take mid.length ∧ mid.length ≤ stream.length ∧ sock.stream = stream.drop mid.length := by
  induction es generalizing len pre mid stream with
  | nil => simp [recvallLoop] at h
  | cons e es ih =>
      cases e with
      | error => simp [recvallLoop] at h
      | closed => simp [recvallLoop] at h
      | data n =>
          simp only [recvallLoop] at h
          split at h
          · rename_i hlegal
            by_cases hroom : n ≤ mid.length
            · have hcopy : memcpy (pre ++ mid) pre.length stream 0 n = .ok (pre ++ stream.take n ++ mid.drop n) :=
                memcpy_behind hroom hlegal.2.2
              have hread : cInt ((pre.length : Int) + n) = (pre.length + n : Nat) := cInt_add (by omega)
              simp only [hcopy, hread] at h
              by_cases hmore : n < mid.length
              · have hpre : (pre ++ stream.take n).length = pre.length + n := by
                  rw [List.length_append, List.length_take]
                  omega
                have hmid : (mid.drop n).length = mid.length - n := List.length_drop
                have htotal : pre.length + mid.length = (pre ++ stream.take n).length + (mid.drop n).length := by
                  omega
                rw [if_pos (by omega), ← hpre, htotal] at h
                obtain ⟨hbuf, hle, hstream⟩ := ih (by omega) h
                rw [hmid] at hbuf hle hstream
                rw [List.length_drop] at hle
                have hsum : n + (mid.length - n) = mid.length := by omega
                refine ⟨?_, by omega, ?_⟩
                · rw [hbuf, List.append_assoc, ← List.take_add, hsum]
                · rw [hstream, List.drop_drop, hsum]
              · obtain rfl : n = mid.length := by omega
                rw [if_neg (by omega)] at h
                cases h
                simp
                omega
            · have hcopy : memcpy (pre ++ mid) pre.length stream 0 n = .error .outOfBounds :=
                memcpy_past (Nat.lt_of_not_le hroom)
              simp [hcopy] at h
          · cases h

theorem recvall_ok {n : Nat} {sock sock' : Socket} {buf : Bytes} (hmax : n ≤ INT_MAX)
    (h : recvall n sock = .ok buf sock') :
    buf = sock.stream.take n ∧ n ≤ sock.stream.length ∧ sock'.stream = sock.stream.drop n := by
  have hloop := @recvallLoop_ok sock.events n [] (List.replicate n 0) sock.stream buf sock' (by simpa using hmax)
  simp only [List.length_nil, List.length_replicate, Nat.zero_add, List.nil_append, Nat.cast_zero] at hloop
  apply hloop
  unfold recvall at h
  rwa [cInt_of_le_INT_MAX hmax] at h

/-- What `conn_recv` returns from a stream that begins with this header. -/
theorem connRecv_ok {ndhead : NetdevHeader} {rest : Bytes} {es : List RecvEvent} {m : Message} {sock : Socket}
    (hsize : ndhead.size.toNat ≤ INT_MAX) (h : connRecv ⟨toBytes ndhead ++ rest, es⟩ = .ok m sock) :
    m = ⟨ndhead.msgtype, rest.take ndhead.size.toNat⟩ ∧ ndhead.size.toNat ≤ rest.length := by
  unfold connRecv at h
  cases hhead : recvall (sizeof NetdevHeader) ⟨toBytes ndhead ++ rest, es⟩ with
  | ok buf sock' =>
      obtain ⟨rfl, -, hstream⟩ := recvall_ok (by decide) hhead
      have hlen : (toBytes ndhead).length = sizeof NetdevHeader := Layout.length_toBytes ndhead
      rw [hhead, List.take_left' hlen, Recv.bind_ok, Layout.ofBytes_toBytes] at h
      dsimp only at h
      rw [List.drop_left' hlen] at hstream
      cases hpayload : recvall ndhead.size.toNat sock' with
      | ok payload sock'' =>
          obtain ⟨rfl, hle, -⟩ := recvall_ok hsize hpayload
          rw [hpayload] at h
          cases h
          rw [hstream] at hle ⊢
          exact ⟨rfl, hle⟩
      | _ =>
          rw [hpayload] at h
          cases h
  | _ =>
      rw [hhead] at h
      cases h

/-! ## The reply -/

/-- A string of C: no null inside, and its size with the null is a `size_t`. -/
structure CString where
  chars : Bytes
  noNull : 0 ∉ chars
  fits : chars.length + 1 < 2 ^ 64

/-- `strlen(s) + 1`. -/
def CString.size (s : CString) : UInt64 := UInt64.ofNat (s.chars.length + 1)

namespace RegReply

/-- What is not determined by the name: the padding of the client's header, the address of
its name, and that of the server's reply; and whether the server can allocate its copy of the
name, register it, and allocate the reply. -/
structure Env where
  pad : UInt32
  name : UInt64
  reply : UInt64
  mallocName : Bool
  registered : Bool
  mallocReply : Bool

/-- The header that `conn_send_dev_reg` sends. -/
def connSendDevReg (env : Env) (remoteDevName : CString) : NetdevHeader :=
  ⟨MSGT_CONTROL_REG_SERVER, env.pad, remoteDevName.size, env.name⟩

/-- What `conn_recv_dev_reg` gives to `conn_send` when it has received this header: the header
and the bytes at its payload. The allocation of the reply is not checked. -/
def connRecvDevReg (env : Env) (ndhead : NetdevHeader) : Mem (Option (NetdevHeader × Bytes)) := do
  if ndhead.msgtype ≠ MSGT_CONTROL_REG_SERVER then
    return none
  else if !env.mallocName then
    return none
  else if !env.registered then
    return none
  else
    let buf ← deref (zalloc env.mallocReply (sizeof Int32))
    let payload ← store buf 0 NETDEV_PROTOCOL_SUCCESS
    return some ({ ndhead with payload := env.reply }, payload)

/-- The value that `conn_send_dev_reg` reads from the reply. -/
def rvalue (ndhead : Message) : Mem Int32 := load Int32 ndhead.payload 0

/-- The reply has the size of its payload, `conn_send` copies no other bytes, and however it
is received the client reads success from the bytes that came. -/
structure WellFormed (ndhead : NetdevHeader) (payload : Bytes) : Prop where
  size : ndhead.size.toNat = payload.length
  copied : ∃ frame, connSendBuff ndhead payload = .ok frame
  decoded : ∀ frame es m sock, connSendBuff ndhead payload = .ok frame →
    connRecv ⟨frame, es⟩ = .ok m sock → rvalue m = .ok NETDEV_PROTOCOL_SUCCESS

variable {env : Env} {name : CString}

/-- Only the payload is new: the size is that of the name. -/
theorem reply_eq {reply : NetdevHeader × Bytes}
    (h : connRecvDevReg env (connSendDevReg env name) = .ok (some reply)) :
    reply = (⟨MSGT_CONTROL_REG_SERVER, env.pad, name.size, env.reply⟩, toBytes NETDEV_PROTOCOL_SUCCESS) := by
  unfold connRecvDevReg at h
  split at h
  · cases h
  · split at h
    · cases h
    · split at h
      · cases h
      · cases hreply : env.mallocReply with
        | false => simp [hreply] at h
        | true =>
            have hstore := @store_window Int32 _ [] (List.replicate (sizeof Int32) 0) [] NETDEV_PROTOCOL_SUCCESS 0
              rfl List.length_replicate
            simp only [List.nil_append, List.append_nil] at hstore
            simp only [hreply, zalloc_true, deref_some, Mem.bind_ok, hstore, Mem.pure_eq_ok] at h
            cases h
            rfl

/-- The status frame that a reply has to be. -/
def status (env : Env) : Frame where
  msgtype := MSGT_CONTROL_REG_SERVER
  pad := env.pad
  ptr := env.reply
  payload := toBytes NETDEV_PROTOCOL_SUCCESS
  nonempty := by decide
  bounded := by decide

theorem status_wellFormed (env : Env) : WellFormed (status env).header (status env).payload where
  size := (status env).header_size
  copied := ⟨(status env).bytes, (status env).connSendBuff_eq⟩
  decoded := by
    intro frame es m sock hframe hrecv
    rw [Frame.connSendBuff_eq] at hframe
    cases hframe
    obtain ⟨rfl, -⟩ := connRecv_ok (by rw [Frame.header_size]; exact (status env).bounded) hrecv
    rw [Frame.header_size, List.take_length]
    exact @load_window Int32 _ [] [] NETDEV_PROTOCOL_SUCCESS 0 rfl

/-- For every name: the reply to its registration is a well-formed status frame exactly when
the name has three characters. -/
theorem wellFormed_iff (env : Env) (name : CString) (reply : NetdevHeader × Bytes)
    (hreply : connRecvDevReg env (connSendDevReg env name) = .ok (some reply)) :
    WellFormed reply.1 reply.2 ↔ name.chars.length = 3 := by
  have hsize : name.size.toNat = name.chars.length + 1 := UInt64.toNat_ofNat_of_lt' name.fits
  have hlen : (toBytes NETDEV_PROTOCOL_SUCCESS).length = 4 := rfl
  cases reply_eq hreply
  constructor
  · intro h
    have hpayload : name.size.toNat = (toBytes NETDEV_PROTOCOL_SUCCESS).length := h.size
    omega
  · intro h
    have hheader : (status env).header = ⟨MSGT_CONTROL_REG_SERVER, env.pad, name.size, env.reply⟩ := by
      simp only [Frame.header, status, CString.size, hlen, h]
    rw [← hheader]
    exact status_wellFormed env

/-- A server that can allocate and register. -/
def able : Env where
  pad := 0
  name := 0x1000
  reply := 0x2000
  mallocName := true
  registered := true
  mallocReply := true

/-- `sda` is answered by a status frame. -/
theorem wellFormed_sda :
    WellFormed ⟨MSGT_CONTROL_REG_SERVER, 0, 4, 0x2000⟩ (toBytes NETDEV_PROTOCOL_SUCCESS) :=
  (wellFormed_iff able ⟨[115, 100, 97], by decide, by decide⟩ _ rfl).mpr rfl

/-- The reply to `random` has size 7, and `conn_send` reads three bytes behind its payload;
the reply to `a` has size 2, and the client reads two bytes behind the one it received. -/
theorem reply_random_a :
    ∃ random a, connRecvDevReg able (connSendDevReg able ⟨[114, 97, 110, 100, 111, 109], by decide, by decide⟩)
        = .ok (some random) ∧
      random.1.size = 7 ∧ random.2.length = 4 ∧ connSendBuff random.1 random.2 = .error .outOfBounds ∧
      ¬ WellFormed random.1 random.2 ∧
      connRecvDevReg able (connSendDevReg able ⟨[97], by decide, by decide⟩) = .ok (some a) ∧
      ¬ WellFormed a.1 a.2 ∧ ∃ frame m sock, connSendBuff a.1 a.2 = .ok frame ∧
        connRecv ⟨frame, handOut [24, 2]⟩ = .ok m sock ∧ rvalue m = .error .outOfBounds := by
  refine ⟨_, _, rfl, by decide, by decide, by decide, ?_, rfl, ?_, _, _, _, rfl, rfl, by decide⟩
  · intro h
    exact absurd h.size (by decide)
  · intro h
    exact absurd h.size (by decide)

end RegReply

end Netdev.Daemon
