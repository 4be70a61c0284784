-- SUMMARY: `netlink_recv` of the daemon over its two rounds of `recvmsg`: it takes the oldest datagram off the socket, whole and alone.
import Netdev.Daemon.Delivery
import Netdev.Daemon.Forwarding

/-!
# Reading from the netlink socket

`netlink_recv` looks at the header of the next datagram with `MSG_PEEK`, makes room
for as many bytes as it announces, and receives again. Both rounds use `recvall`,
which was written for streams: it goes on until it has the bytes it was asked for,
and a datagram that is too short is completed from the next one.
-/

namespace Netdev.Daemon.NetlinkSocket
open Base Prog

/-! ## Datagrams -/

/-- The bits of `msg_flags` that matter here. -/
structure MsgFlags where
  peek : Bool
  trunc : Bool

/-- What `recvmsg` gives for a datagram: the bytes it stores, its result, and the
flags that it stores back into `msg_flags`. -/
structure Receipt where
  copied : Bytes
  rvalue : Nat
  flags : MsgFlags

/-- Bytes that do not fit are dropped; with `MSG_TRUNC` the result counts them. -/
def recvmsg (flags : MsgFlags) (len : Nat) (d : Bytes) : Receipt where
  copied := d.take len
  rvalue := if flags.trunc then d.length else min len d.length
  flags := ⟨false, len < d.length⟩

/-- The queue after a datagram was received. -/
def MsgFlags.left (flags : MsgFlags) (d : Bytes) (ds : List Bytes) : List Bytes :=
  if flags.peek then d :: ds else ds

/-- What happens next on the socket: a datagram is queued, or a call of `recvmsg`
succeeds or fails. -/
inductive NlEvent where
  | arrives (d : Bytes)
  | data
  | error

structure NlSocket where
  queue : List Bytes
  events : List NlEvent

/-- How a receiving function ends. `overrun` is a store behind the end of the buffer;
`illegal` is a success of `recvmsg` on an empty socket; `blocked` never returns. -/
inductive NlRecv (α : Type) where
  | ok (a : α) (sock : NlSocket)
  | failed (sock : NlSocket)
  | overrun
  | illegal
  | blocked

def NlRecv.bind {α β : Type} : NlRecv α → (α → NlSocket → NlRecv β) → NlRecv β
  | .ok a sock, f => f a sock
  | .failed sock, _ => .failed sock
  | .overrun, _ => .overrun
  | .illegal, _ => .illegal
  | .blocked, _ => .blocked

/-! ## The functions -/

/-- The loop of `recvall`. The flags of each call are those that the last one stored. -/
def recvallLoop (size : Int) (iov : Iovec) (flags : MsgFlags) (bytes : Int) (queue : List Bytes) :
    List NlEvent → NlRecv Bytes
  | [] => .blocked
  | .arrives d :: es => recvallLoop size iov flags bytes (queue ++ [d]) es
  | .error :: es => .failed ⟨queue, es⟩
  | .data :: es =>
      match queue with
      | [] => .illegal
      | d :: ds =>
          let got := recvmsg flags iov.len d
          match memcpy iov.buf iov.base got.copied 0 got.copied.length with
          | .error _ => .overrun
          | .ok buf =>
              if got.rvalue = 0 then
                .failed ⟨flags.left d ds, es⟩
              else
                let bytes := cInt (bytes + got.rvalue)
                if bytes < size then
                  recvallLoop size ⟨buf, iov.base + got.rvalue, cSize bytes⟩ got.flags bytes
                    (flags.left d ds) es
                else
                  .ok buf ⟨flags.left d ds, es⟩

/-- `recvall` into a whole buffer. -/
def recvall (buf : Bytes) (flags : MsgFlags) (sock : NlSocket) : NlRecv Bytes :=
  recvallLoop (cInt buf.length) ⟨buf, 0, buf.length⟩ flags 0 sock.queue sock.events

/-- What was in the buffer stays in front. -/
def realloc (buf : Bytes) (n : Nat) : Bytes := buf.take n ++ List.replicate (n - buf.length) 0

/-- `netlink_recv`; a NULL result is `failed`. -/
def netlinkRecv (sock : NlSocket) : NlRecv Bytes :=
  (recvall (List.replicate (sizeof Nlmsghdr) 0) ⟨true, false⟩ sock).bind fun buffer sock =>
    recvall (realloc buffer (Forward.nlmsgLen buffer)) ⟨false, false⟩ sock

/-! ## One call of `recvall` -/

/-- The datagrams that come with these events. -/
def arrivals : List NlEvent → List Bytes
  | [] => []
  | .arrives d :: es => d :: arrivals es
  | .data :: es => arrivals es
  | .error :: es => arrivals es

/-- A call has used up the events `pre`. When it succeeds it has the front of the oldest
datagram, of a length that depends on it; otherwise it has left the queue alone. -/
inductive Took (flags : MsgFlags) (n : Bytes → Nat) (sock : NlSocket) : NlRecv Bytes → Prop where
  | ok {pre es : List NlEvent} {d : Bytes} {ds : List Bytes} :
      sock.events = pre ++ es → sock.queue ++ arrivals pre = d :: ds →
      Took flags n sock (.ok (d.take (n d)) ⟨flags.left d ds, es⟩)
  | failed {pre es : List NlEvent} :
      sock.events = pre ++ es → Took flags n sock (.failed ⟨sock.queue ++ arrivals pre, es⟩)
  | illegal : Took flags n sock .illegal
  | blocked : Took flags n sock .blocked

section
variable {flags : MsgFlags} {buf d : Bytes} {ds queue : List Bytes} {es : List NlEvent} {n : Nat}

/-- A datagram that is long enough fills the buffer at once. -/
theorem recvallLoop_data (hpos : 0 < buf.length) (hle : buf.length ≤ d.length) (hmax : buf.length ≤ INT_MAX)
    (htrunc : flags.trunc = false) :
    recvallLoop buf.length ⟨buf, 0, buf.length⟩ flags 0 (d :: ds) (.data :: es)
      = .ok (d.take buf.length) ⟨flags.left d ds, es⟩ := by
  have hlen : (d.take buf.length).length = buf.length := by simp [hle]
  have hcopy : memcpy buf 0 (d.take buf.length) 0 buf.length = .ok (d.take buf.length) := by
    have h := @memcpy_part buf [] (d.take buf.length) [] 0 buf.length rfl hlen le_rfl
    simpa using h
  have hread : cInt (buf.length : Nat) = (buf.length : Nat) := cInt_of_le_INT_MAX hmax
  have hmin : min buf.length d.length = buf.length := Nat.min_eq_left hle
  have hne : buf.length ≠ 0 := hpos.ne'
  simp [recvallLoop, recvmsg, htrunc, hlen, hcopy, hmin, hne, hread]

theorem recvallLoop_took (hpos : 0 < buf.length) (hmax : buf.length ≤ INT_MAX) (htrunc : flags.trunc = false)
    (hlong : ∀ d ds, queue ++ arrivals es = d :: ds → buf.length ≤ d.length) :
    Took flags (fun _ => buf.length) ⟨queue, es⟩
      (recvallLoop buf.length ⟨buf, 0, buf.length⟩ flags 0 queue es) := by
  induction es generalizing queue with
  | nil => exact .blocked
  | cons e es ih =>
      cases e with
      | error =>
          have h := @Took.failed flags (fun _ => buf.length) ⟨queue, .error :: es⟩ [.error] es rfl
          rw [arrivals, arrivals, List.append_nil] at h
          exact h
      | arrives d =>
          have hrest := @ih (queue ++ [d]) (by simpa [arrivals] using hlong)
          rw [recvallLoop]
          generalize recvallLoop _ _ _ _ (queue ++ [d]) es = out at hrest ⊢
          cases hrest with
          | @ok pre es' d' ds hes hqueue =>
              have hevents : .arrives d :: es = (.arrives d :: pre) ++ es' := congrArg _ hes
              have hqueue' : queue ++ arrivals (.arrives d :: pre) = d' :: ds := by simpa [arrivals] using hqueue
              exact @Took.ok flags (fun _ => buf.length) ⟨queue, .arrives d :: es⟩ _ _ _ _ hevents hqueue'
          | @failed pre es' hes =>
              have hevents : .arrives d :: es = (.arrives d :: pre) ++ es' := congrArg _ hes
              have h := @Took.failed flags (fun _ => buf.length) ⟨queue, .arrives d :: es⟩ _ _ hevents
              simpa [arrivals] using h
          | illegal => exact .illegal
          | blocked => exact .blocked
      | data =>
          cases queue with
          | nil => exact .illegal
          | cons d ds =>
              rw [recvallLoop_data hpos (hlong d _ rfl) hmax htrunc]
              exact @Took.ok flags (fun _ => buf.length) ⟨d :: ds, .data :: es⟩ [.data] es d ds rfl
                (List.append_nil _)

theorem recvall_took {sock : NlSocket} (hpos : 0 < buf.length) (hmax : buf.length ≤ INT_MAX)
    (htrunc : flags.trunc = false)
    (hlong : ∀ d ds, sock.queue ++ arrivals sock.events = d :: ds → buf.length ≤ d.length) :
    Took flags (fun _ => buf.length) sock (recvall buf flags sock) := by
  rw [recvall, cInt_of_le_INT_MAX hmax]
  exact recvallLoop_took hpos hmax htrunc hlong

end

/-! ## `netlink_recv` -/

/-- A datagram as the kernel builds it: `nlmsg_len` counts the header, and the datagram
holds as many bytes. -/
structure Sound (d : Bytes) : Prop where
  header : sizeof Nlmsghdr ≤ Forward.nlmsgLen d
  length : Forward.nlmsgLen d ≤ d.length
  bounded : Forward.nlmsgLen d ≤ INT_MAX

/-- All that is queued and all that arrives. -/
def NlSocket.Sound (sock : NlSocket) : Prop :=
  ∀ d ∈ sock.queue ++ arrivals sock.events, NetlinkSocket.Sound d

/-- A call of `netlink_recv`: the oldest datagram without its padding, or nothing. -/
abbrev Received (sock : NlSocket) : NlRecv Bytes → Prop := Took ⟨false, false⟩ Forward.nlmsgLen sock

theorem arrivals_append (es es' : List NlEvent) : arrivals (es ++ es') = arrivals es ++ arrivals es' := by
  induction es with
  | nil => rfl
  | cons e es ih =>
      cases e with
      | arrives d => simp [arrivals, ih]
      | _ => exact ih

theorem length_realloc (buf : Bytes) (n : Nat) : (realloc buf n).length = n := by
  simp only [realloc, List.length_append, List.length_take, List.length_replicate]
  omega

/-- The length is in the header. -/
theorem nlmsgLen_take (d : Bytes) : Forward.nlmsgLen (d.take (sizeof Nlmsghdr)) = Forward.nlmsgLen d := by
  rw [Forward.nlmsgLen, List.take_take, Nat.min_self, Forward.nlmsgLen]

theorem netlinkRecv_received {sock : NlSocket} (hsound : sock.Sound) : Received sock (netlinkRecv sock) := by
  have hhead : (List.replicate (sizeof Nlmsghdr) (0 : UInt8)).length = sizeof Nlmsghdr := List.length_replicate
  have hpeek := @recvall_took ⟨true, false⟩ (List.replicate (sizeof Nlmsghdr) 0) sock (by decide) (by decide) rfl
    fun d ds hqueue => by
      have hd := hsound d (hqueue ▸ List.mem_cons_self)
      exact hhead ▸ hd.header.trans hd.length
  rw [hhead] at hpeek
  unfold netlinkRecv
  generalize recvall (List.replicate _ 0) _ sock = out at hpeek ⊢
  cases hpeek with
  | failed hes => exact .failed hes
  | illegal => exact .illegal
  | blocked => exact .blocked
  | @ok pre es d ds hes hqueue =>
      have hd : Sound d := by
        refine hsound d ?_
        rw [hes, arrivals_append, ← List.append_assoc, hqueue]
        exact List.mem_cons_self
      have hlen := length_realloc (d.take (sizeof Nlmsghdr)) (Forward.nlmsgLen d)
      have hread := @recvall_took ⟨false, false⟩ (realloc (d.take (sizeof Nlmsghdr)) (Forward.nlmsgLen d))
        ⟨d :: ds, es⟩ (hlen.trans_gt (Nat.lt_of_lt_of_le (by decide) hd.header)) (hlen.trans_le hd.bounded) rfl
        fun d' ds' hqueue' => by
          obtain ⟨rfl, -⟩ := List.cons.inj hqueue'
          exact hlen.trans_le hd.length
      rw [hlen] at hread
      change Received sock (recvall (realloc (d.take (sizeof Nlmsghdr))
        (Forward.nlmsgLen (d.take (sizeof Nlmsghdr)))) ⟨false, false⟩ ⟨d :: ds, es⟩)
      rw [nlmsgLen_take]
      generalize recvall (realloc _ _) _ ⟨d :: ds, es⟩ = out at hread ⊢
      have hjoin : ∀ {pre' es'}, es = pre' ++ es' → sock.events = (pre ++ pre') ++ es' := by
        rintro pre' es' rfl
        rw [hes, List.append_assoc]
      have hbacklog : ∀ pre', sock.queue ++ arrivals (pre ++ pre') = (d :: ds) ++ arrivals pre' := by
        intro pre'
        rw [arrivals_append, ← List.append_assoc, hqueue]
      cases hread with
      | @failed pre' es' hes' =>
          have h := @Took.failed ⟨false, false⟩ Forward.nlmsgLen sock (pre ++ pre') es' (hjoin hes')
          rw [hbacklog] at h
          exact h
      | illegal => exact .illegal
      | blocked => exact .blocked
      | @ok pre' es' d' ds' hes' hqueue' =>
          obtain ⟨rfl, rfl⟩ := List.cons.inj hqueue'
          exact .ok (n := Forward.nlmsgLen) (hjoin hes') (hbacklog pre')

/-! ## Successive calls -/

/-- What `netlink_recv` keeps of a datagram. -/
def trim (d : Bytes) : Bytes := d.take (Forward.nlmsgLen d)

/-- Calls that return one after the other, with the messages of those that succeed. -/
inductive Reads (sock : NlSocket) : List Bytes → NlSocket → Prop where
  | start : Reads sock [] sock
  | ok {ms : List Bytes} {m : Bytes} {sock' sock'' : NlSocket} :
      Reads sock ms sock' → netlinkRecv sock' = .ok m sock'' → Reads sock (ms ++ [m]) sock''
  | failed {ms : List Bytes} {sock' sock'' : NlSocket} :
      Reads sock ms sock' → netlinkRecv sock' = .failed sock'' → Reads sock ms sock''

theorem NlSocket.Sound.suffix {sock sock' : NlSocket} (h : sock.Sound) {pre : List NlEvent} {ds : List Bytes}
    (hes : sock.events = pre ++ sock'.events) (hqueue : sock.queue ++ arrivals pre = ds ++ sock'.queue) :
    sock'.Sound := by
  intro d hd
  refine h d ?_
  rw [hes, arrivals_append, ← List.append_assoc, hqueue, List.append_assoc]
  exact List.mem_append_right ds hd

/-- What has been read, and what is left, are all the datagrams in order. -/
theorem Reads.backlog {sock sock' : NlSocket} {ms : List Bytes} (h : Reads sock ms sock') (hsound : sock.Sound) :
    ∃ pre ds, sock.events = pre ++ sock'.events ∧ sock.queue ++ arrivals pre = ds ++ sock'.queue ∧
      ms = ds.map trim := by
  induction h with
  | start => exact ⟨[], [], rfl, List.append_nil _, rfl⟩
  | @ok ms m sock' sock'' _ hrecv ih =>
      obtain ⟨pre, ds, hes, hqueue, hms⟩ := ih
      have hreceived := netlinkRecv_received (hsound.suffix hes hqueue)
      rw [hrecv] at hreceived
      cases hreceived with
      | @ok pre' es' d ds' hes' hqueue' =>
          refine ⟨pre ++ pre', ds ++ [d], ?_, ?_, ?_⟩
          · rw [hes, hes', List.append_assoc]
          · rw [arrivals_append, ← List.append_assoc, hqueue, List.append_assoc, hqueue', List.append_assoc]
            rfl
          · rw [hms, List.map_append]
            rfl
  | @failed ms sock' sock'' _ hrecv ih =>
      obtain ⟨pre, ds, hes, hqueue, hms⟩ := ih
      have hreceived := netlinkRecv_received (hsound.suffix hes hqueue)
      rw [hrecv] at hreceived
      cases hreceived with
      | @failed pre' es' hes' =>
          refine ⟨pre ++ pre', ds, ?_, ?_, hms⟩
          · rw [hes, hes', List.append_assoc]
          · rw [arrivals_append, ← List.append_assoc, hqueue, List.append_assoc]

theorem recvallLoop_arrives (size : Int) (iov : Iovec) (flags : MsgFlags) (bytes : Int) (queue ds : List Bytes)
    (es : List NlEvent) :
    recvallLoop size iov flags bytes queue (ds.map .arrives ++ es)
      = recvallLoop size iov flags bytes (queue ++ ds) es := by
  induction ds generalizing queue with
  | nil => simp
  | cons d ds ih => simp [recvallLoop, ih]

section
variable {d : Bytes} {rest late : List Bytes} {es : List NlEvent}

/-- After the header has been looked at. -/
theorem netlinkRecv_peeked (hhead : sizeof Nlmsghdr ≤ d.length) : netlinkRecv ⟨d :: rest, .data :: es⟩
    = recvall (realloc (d.take (sizeof Nlmsghdr)) (Forward.nlmsgLen d)) ⟨false, false⟩ ⟨d :: rest, es⟩ := by
  have hbuf : (List.replicate (sizeof Nlmsghdr) (0 : UInt8)).length = sizeof Nlmsghdr := List.length_replicate
  have hpeek := @recvallLoop_data ⟨true, false⟩ (List.replicate (sizeof Nlmsghdr) 0) d rest es (by decide)
    (hbuf.trans_le hhead) (by decide) rfl
  have hsize : cInt (sizeof Nlmsghdr : Nat) = (sizeof Nlmsghdr : Nat) := by decide
  rw [hbuf] at hpeek
  simp only [netlinkRecv, recvall, hbuf, hsize, hpeek, NlRecv.bind, nlmsgLen_take]
  rfl

/-- Two successful calls of `recvmsg` return the oldest datagram, whatever arrives in
between. -/
theorem netlinkRecv_returns (hhead : sizeof Nlmsghdr ≤ d.length) (hpos : 0 < Forward.nlmsgLen d)
    (hle : Forward.nlmsgLen d ≤ d.length) (hmax : Forward.nlmsgLen d ≤ INT_MAX) :
    netlinkRecv ⟨d :: rest, .data :: (late.map .arrives ++ .data :: es)⟩ = .ok (trim d) ⟨rest ++ late, es⟩ := by
  have hlen := length_realloc (d.take (sizeof Nlmsghdr)) (Forward.nlmsgLen d)
  have hread := @recvallLoop_data ⟨false, false⟩ (realloc (d.take (sizeof Nlmsghdr)) (Forward.nlmsgLen d)) d
    (rest ++ late) es (hlen.trans_gt hpos) (hlen.trans_le hle) (hlen.trans_le hmax) rfl
  rw [hlen] at hread
  rw [netlinkRecv_peeked hhead, recvall, hlen, cInt_of_le_INT_MAX hmax, recvallLoop_arrives]
  exact hread

/-- A length of zero: the datagram is lost. -/
theorem netlinkRecv_empty (hhead : sizeof Nlmsghdr ≤ d.length) (hzero : Forward.nlmsgLen d = 0) :
    netlinkRecv ⟨d :: rest, .data :: .data :: es⟩ = .failed ⟨rest, es⟩ := by
  rw [netlinkRecv_peeked hhead, hzero]
  simp [recvall, realloc, recvallLoop, recvmsg, memcpy, MsgFlags.left]

/-- A length beyond the datagram: it goes into the front of the buffer, and the loop asks for
more unless `size` has become negative. -/
theorem netlinkRecv_short (hhead : sizeof Nlmsghdr ≤ d.length) (hmax : d.length ≤ INT_MAX)
    (hshort : d.length < Forward.nlmsgLen d) :
    ∃ buf iov flags, buf.length = Forward.nlmsgLen d ∧ netlinkRecv ⟨d :: rest, .data :: .data :: es⟩
      = if (d.length : Int) < cInt (Forward.nlmsgLen d) then
          recvallLoop (cInt (Forward.nlmsgLen d)) iov flags d.length rest es
        else
          .ok buf ⟨rest, es⟩ := by
  have hlen := length_realloc (d.take (sizeof Nlmsghdr)) (Forward.nlmsgLen d)
  generalize hbuf : realloc (d.take (sizeof Nlmsghdr)) (Forward.nlmsgLen d) = buf at hlen
  obtain ⟨out, hcopy⟩ := @memcpy_ok buf d 0 0 d.length (Nat.zero_add _).le (by omega)
  have htake : d.take (Forward.nlmsgLen d) = d := List.take_of_length_le hshort.le
  have hpos : d.length ≠ 0 := (Nat.lt_of_lt_of_le (by decide : 0 < sizeof Nlmsghdr) hhead).ne'
  have hread : cInt (d.length : Nat) = (d.length : Nat) := cInt_of_le_INT_MAX hmax
  refine ⟨out, ⟨out, 0 + d.length, cSize d.length⟩, ⟨false, Forward.nlmsgLen d < d.length⟩,
    (memcpy_length hcopy).trans hlen, ?_⟩
  rw [netlinkRecv_peeked hhead, hbuf]
  simp only [recvall, hlen, recvallLoop, recvmsg, htake, hcopy, Bool.false_eq_true, if_false, hpos,
    Nat.min_eq_right hshort.le, MsgFlags.left, Int.zero_add, hread]

/-- A datagram with a whole header is read alone, and without its padding, exactly when its
length field is not zero and does not exceed it. With a length of zero it is lost, and with a
larger one the call reads on behind it, or returns a buffer of that length. -/
theorem takes_alone_iff (hhead : sizeof Nlmsghdr ≤ d.length) (hmax : d.length ≤ INT_MAX) :
    ((∀ rest es, netlinkRecv ⟨d :: rest, .data :: .data :: es⟩ = .ok (trim d) ⟨rest, es⟩) ↔
      0 < Forward.nlmsgLen d ∧ Forward.nlmsgLen d ≤ d.length) ∧
    (Forward.nlmsgLen d = 0 → ∀ rest es, netlinkRecv ⟨d :: rest, .data :: .data :: es⟩ = .failed ⟨rest, es⟩) ∧
    (d.length < Forward.nlmsgLen d → ∀ rest es, ∃ buf iov flags, buf.length = Forward.nlmsgLen d ∧
      netlinkRecv ⟨d :: rest, .data :: .data :: es⟩
        = if (d.length : Int) < cInt (Forward.nlmsgLen d) then
            recvallLoop (cInt (Forward.nlmsgLen d)) iov flags d.length rest es
          else
            .ok buf ⟨rest, es⟩) := by
  refine ⟨?_, fun hzero _ _ => netlinkRecv_empty hhead hzero, fun hshort _ _ => netlinkRecv_short hhead hmax hshort⟩
  constructor
  · intro h
    have hone := h [] []
    refine ⟨Nat.pos_of_ne_zero fun hzero => ?_, le_of_not_gt fun hshort => ?_⟩
    · rw [netlinkRecv_empty hhead hzero] at hone
      cases hone
    · obtain ⟨buf, iov, flags, hlen, hrecv⟩ := @netlinkRecv_short d [] [] hhead hmax hshort
      rw [hrecv] at hone
      split at hone
      · cases hone
      · have hbuf : buf = trim d := (NlRecv.ok.inj hone).1
        have hle := (hlen.symm.trans (congrArg List.length hbuf)).trans_le (List.length_take_le' _ d)
        exact absurd hle (Nat.not_le.mpr hshort)
  · rintro ⟨hpos, hle⟩ rest es
    have h := @netlinkRecv_returns d rest [] es hhead hpos hle (hle.trans hmax)
    simpa using h

end

/-- On a socket with datagrams as the kernel builds them, `netlink_recv` returns them in the
order of their arrival, each without its padding; a call that fails loses none, and one
whose two calls of `recvmsg` succeed returns the next. -/
theorem reads_in_order {sock sock' : NlSocket} {ms : List Bytes} (hsound : sock.Sound) (h : Reads sock ms sock') :
    (∃ pre ds, sock.events = pre ++ sock'.events ∧ sock.queue ++ arrivals pre = ds ++ sock'.queue ∧
      ms = ds.map trim) ∧
    ∀ d rest late es, sock'.queue = d :: rest → sock'.events = .data :: (late.map .arrives ++ .data :: es) →
      netlinkRecv sock' = .ok (trim d) ⟨rest ++ late, es⟩ := by
  obtain ⟨pre, ds, hes, hqueue, hms⟩ := h.backlog hsound
  refine ⟨⟨pre, ds, hes, hqueue, hms⟩, fun d rest late es hhead hevents => ?_⟩
  have hd : Sound d := by
    refine hsound.suffix hes hqueue d (List.mem_append_left _ ?_)
    rw [hhead]
    exact List.mem_cons_self
  obtain ⟨queue, events⟩ := sock'
  subst hhead hevents
  exact netlinkRecv_returns (hd.header.trans hd.length) (Nat.lt_of_lt_of_le (by decide) hd.header) hd.length hd.bounded

/-! ## Messages of the kernel -/

/-- A message as the kernel puts it on the daemon's socket. -/
structure FromKernel (m : NlMessage) : Prop where
  sound : Sound m.bytes
  error : m.msgtype = NLMSG_ERROR → sizeof Nlmsghdr + sizeof Int32 ≤ m.header.nlmsgLen.toNat

/-- The message that `netlink_recv` makes of it. -/
def kept (m : NlMessage) : NlMessage := .read (trim m.bytes)

section
variable {m : NlMessage}

theorem take_bytes (m : NlMessage) : m.bytes.take (sizeof Nlmsghdr) = toBytes m.header :=
  List.take_left' (Layout.length_toBytes m.header)

theorem nlmsgLen_bytes (m : NlMessage) : Forward.nlmsgLen m.bytes = m.header.nlmsgLen.toNat := by
  rw [Forward.nlmsgLen, take_bytes, Layout.ofBytes_toBytes]

theorem length_bytes (m : NlMessage) : m.bytes.length = sizeof Nlmsghdr + m.payload.length := by
  simp [NlMessage.bytes]

/-- A file operation is passed on as it is; the header is whole. -/
theorem kept_eq (h : sizeof Nlmsghdr ≤ m.header.nlmsgLen.toNat) :
    kept m = ⟨m.header, m.payload.take (m.header.nlmsgLen.toNat - sizeof Nlmsghdr)⟩ := by
  have hdrop : m.bytes.drop (sizeof Nlmsghdr) = m.payload := List.drop_left' (Layout.length_toBytes m.header)
  unfold kept trim NlMessage.read
  rw [nlmsgLen_bytes, List.take_take, Nat.min_eq_left h, take_bytes, Layout.ofBytes_toBytes, List.drop_take, hdrop]

theorem FromKernel.header (h : FromKernel m) : sizeof Nlmsghdr ≤ m.header.nlmsgLen.toNat :=
  nlmsgLen_bytes m ▸ h.sound.header

theorem FromKernel.length (h : FromKernel m) : m.header.nlmsgLen.toNat ≤ m.bytes.length :=
  nlmsgLen_bytes m ▸ h.sound.length

/-- `nlmsg_put` builds such messages. -/
theorem fromKernel_put {pid seq : UInt32} {msgtype flags : UInt16} {buff : Bytes}
    (hmax : sizeof Nlmsghdr + buff.length ≤ INT_MAX)
    (htype : (NlMessage.put pid seq msgtype flags buff).msgtype ≠ NLMSG_ERROR) :
    FromKernel (.put pid seq msgtype flags buff) := by
  have hlen : (NlMessage.put pid seq msgtype flags buff).header.nlmsgLen.toNat = sizeof Nlmsghdr + buff.length := by
    have hlt : INT_MAX < UInt32.size := by decide
    exact UInt32.toNat_ofNat_of_lt' (by omega)
  refine ⟨⟨?_, ?_, ?_⟩, fun h => absurd h htype⟩
  · rw [nlmsgLen_bytes, hlen]
    exact Nat.le_add_right _ _
  · rw [nlmsgLen_bytes, hlen, length_bytes]
    simp [NlMessage.put]
  · rw [nlmsgLen_bytes, hlen]
    exact hmax

/-- So does `netlink_ack`. -/
theorem fromKernel_ack (m : NlMessage) (err : Int32) : FromKernel (m.ack err) := by
  have hlen : (m.ack err).header.nlmsgLen.toNat = sizeof Nlmsghdr + sizeof Int32 + sizeof Nlmsghdr := rfl
  refine ⟨⟨?_, ?_, ?_⟩, fun _ => ?_⟩
  · rw [nlmsgLen_bytes, hlen]
    decide
  · rw [nlmsgLen_bytes, hlen, length_bytes]
    simp [NlMessage.ack, Nat.add_assoc]
  · rw [nlmsgLen_bytes, hlen]
    decide
  · rw [hlen]
    decide

/-! ## The operation of the handlers -/

theorem kept_msgtype (h : FromKernel m) : (kept m).msgtype = m.msgtype := by
  rw [kept_eq h.header]
  rfl

theorem kept_error (h : FromKernel m) (htype : m.msgtype = NLMSG_ERROR) : (kept m).error = m.error := by
  have hlen : sizeof Int32 ≤ m.header.nlmsgLen.toNat - sizeof Nlmsghdr := Nat.le_sub_of_add_le' (h.error htype)
  rw [kept_eq h.header]
  unfold NlMessage.error asInt
  rw [List.take_take, Nat.min_eq_left hlen]

theorem readBuf_kept (h : FromKernel m) :
    readBuf (kept m).bytes (kept m).header.nlmsgLen.toNat = readBuf m.bytes m.header.nlmsgLen.toNat := by
  have hheader : (kept m).header = m.header := by rw [kept_eq h.header]
  have hbytes : (kept m).bytes = m.bytes.take m.header.nlmsgLen.toNat := by
    rw [kept_eq h.header, NlMessage.bytes, NlMessage.bytes, List.take_append, Layout.length_toBytes,
      List.take_of_length_le ((Layout.length_toBytes m.header).trans_le h.header)]
  have hlen : (kept m).bytes.length = m.header.nlmsgLen.toNat := by
    rw [hbytes, List.length_take, Nat.min_eq_left h.length]
  unfold readBuf
  rw [hheader, if_pos hlen.ge, if_pos h.length, hbytes, List.take_take, Nat.min_self]

/-- `proxy_handle_netlink` goes on alike with the message that was queued and with what
`netlink_recv` makes of it. -/
theorem proxyHandleNetlink_kept (h : FromKernel m) :
    ∃ k, proxyHandleNetlink = .call .nlRecv k ∧ k (some (kept m)) = k (some m) := by
  refine ⟨_, rfl, ?_⟩
  simp only [Prog.bind, readBuf_kept h]
  rw [kept_msgtype h]

/-- And so does `netlink_send_nlh`. -/
theorem netlinkSendNlh_kept (h : FromKernel m) (pid : UInt32) (nlh : NlMessage) :
    ∃ k : Option Int32 → Option NlMessage → DaemonM Int32,
      netlinkSendNlh pid nlh = .call (.nlSend (nlh.fromPid pid)) (fun verdict => .call .nlRecv (k verdict)) ∧
        ∀ verdict, k verdict (some (kept m)) = k verdict (some m) := by
  refine ⟨_, rfl, fun verdict => ?_⟩
  simp only [Prog.bind, kept_msgtype h]
  by_cases htype : m.msgtype = NLMSG_ERROR
  · simp only [if_pos htype, kept_error h htype]
  · simp only [if_neg htype]

/-- While messages of the kernel are on the socket, a read in two rounds does what the operation
`nlRecv` of the proxy does, and both of its callers go on as with the whole datagram. -/
theorem netlinkRecv_refines {version : Int32} {handler : Handler} {env : Kernel.RecvEnv} {w : Wire}
    {rest late : List NlMessage} {es : List NlEvent} (h : FromKernel m) (hqueue : w.queue = m :: rest) :
    (∃ w' sock', netlinkRecv ⟨w.queue.map NlMessage.bytes,
        .data :: ((late.map NlMessage.bytes).map .arrives ++ .data :: es)⟩ = .ok (trim m.bytes) sock' ∧
      Serves version handler env { w with queue := w.queue ++ late } ⟨.nlRecv, some m⟩ w' ∧
      sock'.queue = w'.queue.map NlMessage.bytes ∧ sock'.events = es) ∧
    (∃ k, proxyHandleNetlink = .call .nlRecv k ∧ k (some (.read (trim m.bytes))) = k (some m)) ∧
    ∀ pid nlh, ∃ k : Option Int32 → Option NlMessage → DaemonM Int32,
      netlinkSendNlh pid nlh = .call (.nlSend (nlh.fromPid pid)) (fun verdict => .call .nlRecv (k verdict)) ∧
        ∀ verdict, k verdict (some (.read (trim m.bytes))) = k verdict (some m) := by
  refine ⟨?_, proxyHandleNetlink_kept h, netlinkSendNlh_kept h⟩
  have hqueue' : w.queue ++ late = m :: (rest ++ late) := by rw [hqueue, List.cons_append]
  have hrecv := @netlinkRecv_returns m.bytes (rest.map NlMessage.bytes) (late.map NlMessage.bytes) es
    (h.sound.header.trans h.sound.length) (Nat.lt_of_lt_of_le (by decide) h.sound.header) h.sound.length
    h.sound.bounded
  rw [← List.map_cons, ← hqueue] at hrecv
  refine ⟨_, _, hrecv, .nlRecv hqueue', ?_, rfl⟩
  cases handler with
  | remote => exact List.map_append.symm
  | netlink => exact List.map_append.symm

end

/-! ## A read that fails in between -/

namespace Sample

theorem fromKernel_llseek : FromKernel Proxy.llseekMessage :=
  ⟨⟨by decide, by decide, by decide⟩, fun h => absurd h (by decide)⟩

/-- The confirmation of the daemon arrives behind a file operation, which the first call of
`netlink_recv` sees and does not take. -/
def socket : NlSocket where
  queue := [Proxy.llseekMessage.bytes]
  events := [.data, .error, .data, .arrives (Proxy.llseekMessage.ack 0).bytes, .data, .data, .data]

theorem socket_sound : socket.Sound := by
  intro d hd
  have hd : d = Proxy.llseekMessage.bytes ∨ d = (Proxy.llseekMessage.ack 0).bytes := by
    simpa [socket, arrivals] using hd
  rcases hd with rfl | rfl
  · exact fromKernel_llseek.sound
  · exact (fromKernel_ack _ 0).sound

theorem socket_reads :
    Reads socket [trim Proxy.llseekMessage.bytes, trim (Proxy.llseekMessage.ack 0).bytes] ⟨[], []⟩ := by
  have hfailed := Reads.failed (@Reads.start socket) ((netlinkRecv_peeked (by decide)).trans rfl)
  have hone := hfailed.ok (@netlinkRecv_returns Proxy.llseekMessage.bytes [] [(Proxy.llseekMessage.ack 0).bytes]
    [.data, .data] (by decide) (by decide) (by decide) (by decide))
  exact hone.ok (@netlinkRecv_returns (Proxy.llseekMessage.ack 0).bytes [] [] [] (by decide) (by decide)
    (by decide) (by decide))

end Sample

theorem reads_in_order_socket : ∃ pre ds, Sample.socket.events = pre ++ [] ∧
    Sample.socket.queue ++ arrivals pre = ds ++ [] ∧
    [trim Proxy.llseekMessage.bytes, trim (Proxy.llseekMessage.ack 0).bytes] = ds.map trim :=
  (reads_in_order Sample.socket_sound Sample.socket_reads).1

/-- An `llseek` is read alone; a header that says nothing of its length is lost. -/
theorem takes_alone_iff_llseek :
    (∀ rest es, netlinkRecv ⟨Proxy.llseekMessage.bytes :: rest, .data :: .data :: es⟩
      = .ok (trim Proxy.llseekMessage.bytes) ⟨rest, es⟩) ∧
    netlinkRecv ⟨[List.replicate (sizeof Nlmsghdr) 0, Proxy.llseekMessage.bytes], [.data, .data]⟩
      = .failed ⟨[Proxy.llseekMessage.bytes], []⟩ :=
  ⟨(takes_alone_iff (by decide) (by decide)).1.mpr ⟨by decide, by decide⟩,
    (takes_alone_iff (by decide) (by decide)).2.1 (by decide) [Proxy.llseekMessage.bytes] []⟩

theorem netlinkRecv_refines_llseek : ∃ k, proxyHandleNetlink = .call .nlRecv k ∧
    k (some (.read (trim Proxy.llseekMessage.bytes))) = k (some Proxy.llseekMessage) :=
  (@netlinkRecv_refines _ 2 .netlink Proxy.smooth ((Wire.empty).queueFo Proxy.llseekMessage) [] [] []
    Sample.fromKernel_llseek rfl).2.1

end Netdev.Daemon.NetlinkSocket
