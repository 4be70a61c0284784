-- SUMMARY: One file operation through both machines byte by byte: two kernels, two daemons, their netlink sockets and the stream.
import Netdev.Daemon.Tunnel
import Netdev.Kernel.Exchange

/-!
# The whole stack

A daemon here runs on bytes: it reads its netlink socket with `netlink_recv`, and its
stream is what `conn_send` and `conn_recv` make of the calls of `sendmsg` and `recvmsg`.
-/

namespace Netdev.Stack
open Base Prog Kernel Daemon NetlinkSocket Tunnel

/-! ## Hosts -/

/-- What a daemon works on: its netlink socket, the bytes that its peer has sent, what its next
calls of `sendmsg` will do, the bytes that it has sent, and the messages that its kernel module
was given. -/
structure Host where
  netlink : NlSocket
  remote : Socket
  sends : List SendEvent
  outbound : Bytes
  delivered : List NlMessage

/-- What the code leaves open: the padding and the pointer in the headers that it sends and the
heap behind its frames, and the version and the answers of the kernel module. -/
structure Place where
  pad : UInt32
  ptr : UInt64
  behind : Nat → UInt8
  version : Int32
  env : RecvEnv

namespace Place

/-! A call that never returns, or that stores outside a buffer, stops the daemon. -/

def nlRecv : Exec Host Unit (Option NlMessage) := fun host =>
  match netlinkRecv host.netlink with
  | .ok buf netlink => (.ok (some (.read buf)), { host with netlink })
  | .failed netlink => (.ok none, { host with netlink })
  | _ => (.error (), host)

def nlSend (place : Place) (nlh : NlMessage) : Exec Host Unit (Option Int32) := fun host =>
  match Kernel.netlinkRecv place.env place.version nlh with
  | none => (.error (), host)
  | some r =>
      (.ok r.ack, { host with
        netlink := { host.netlink with queue := host.netlink.queue ++ (r.queued nlh).map NlMessage.bytes }
        delivered := host.delivered ++ [nlh] })

def connSend (place : Place) (m : Message) : Exec Host Unit Bool := fun host =>
  let ndhead : NetdevHeader := ⟨m.msgtype, place.pad, UInt64.ofNat m.payload.length, place.ptr⟩
  match Daemon.connSend true place.behind ndhead m.payload host.sends with
  | .ok (.ok out sends) => (.ok true, { host with sends, outbound := host.outbound ++ out.stream })
  | .ok (.failed out) => (.ok false, { host with outbound := host.outbound ++ out.stream })
  | _ => (.error (), host)

def connRecv : Exec Host Unit (Option Message) := fun host =>
  match Daemon.connRecv host.remote with
  | .ok m remote => (.ok (some m), { host with remote })
  | .failed remote => (.ok none, { host with remote })
  | _ => (.error (), host)

/-- The operations of the two handlers. -/
def serve (place : Place) : (op : DaemonOp) → Exec Host Unit op.Res
  | .malloc => pure true
  | .getsockopt => pure true
  | .nlRecv => nlRecv
  | .nlSend m => place.nlSend m
  | .connSend m => place.connSend m
  | .connRecv => connRecv
  | _ => Exec.stop ()

/-- A handler on a host. -/
def run {α : Type} (place : Place) (p : DaemonM α) : Exec Host Unit α := p.exec place.serve

end Place

/-! ## One hop -/

/-- A stream on which frames come through: what `sendmsg` accepts of a frame ends with a half
of it, and what `recvmsg` hands out ends where its header and its payload end. The pieces depend
on the size of the payload. -/
structure Stream where
  accepts : Nat → List Nat
  handsOut : Nat → List Nat
  sent : ∀ (f : Frame) (behind : Nat → UInt8), f.bytes.length ≤ INT_MAX → ∃ out,
    connSend true behind f.header f.payload ((accepts f.payload.length).map .data) = .ok (.ok out [])
  halves : ∀ f : Frame, f.bytes.length ≤ INT_MAX → InHalves f.bytes.length 0 (accepts f.payload.length)
  legal : ∀ f : Frame, connRecv ⟨f.bytes, handOut (handsOut f.payload.length)⟩ ≠ .illegal
  positive : ∀ n, ∀ p ∈ handsOut n, 0 < p
  respects : ∀ f : Frame, Respects (parts [f]) (handsOut f.payload.length)

/-- The way from one kernel to the other. Behind the message on the socket there may be others,
and others may arrive while it is read. -/
structure Hop where
  stream : Stream
  near : Place
  far : Place
  waiting : List Bytes
  late : List Bytes
  pid : UInt32
  pid_ne : pid ≠ 0
  found : far.env.found = true
  thread : far.env.thread = 0

namespace Hop

/-- The daemon whose kernel has queued the message. -/
def sender (hop : Hop) (m : NlMessage) : Host where
  netlink := ⟨m.bytes :: hop.waiting, .data :: (hop.late.map .arrives ++ [.data])⟩
  remote := ⟨[], []⟩
  sends := (hop.stream.accepts m.header.nlmsgLen.toNat).map .data
  outbound := []
  delivered := []

/-- The daemon that it has sent these bytes to. -/
def receiver (hop : Hop) (m : NlMessage) (stream : Bytes) : Host where
  netlink := ⟨[], [.data, .data]⟩
  remote := ⟨stream, handOut (hop.stream.handsOut m.header.nlmsgLen.toNat)⟩
  sends := []
  outbound := []
  delivered := []

/-- `proxy_handle_netlink` on the one machine and `proxy_handle_remote` on the other: what the
kernel of the second gets of a message that the kernel of the first has queued. -/
def carry (hop : Hop) (m : NlMessage) : Option NlMessage :=
  match hop.near.run proxyHandleNetlink (hop.sender m) with
  | (.error _, _) => none
  | (.ok rvalue, host) =>
      if rvalue = -1 then
        none
      else
        match hop.far.run (proxyHandleRemote hop.pid) (hop.receiver m host.outbound) with
        | (.error _, _) => none
        | (.ok rvalue, host) => if rvalue = -1 then none else host.delivered.head?

end Hop

/-- A message whose frame `sendall` and `recvall` can count. -/
structure Sized (m : NlMessage) : Prop where
  carried : Carried m
  bounded : sizeof NetdevHeader + m.header.nlmsgLen.toNat ≤ INT_MAX

section
variable {m : NlMessage} {hop : Hop}

theorem Sized.fromKernel (h : Sized m) : FromKernel m where
  sound :=
    { header := by
        rw [nlmsgLen_bytes]
        exact h.carried.header
      length := by
        rw [nlmsgLen_bytes]
        exact h.carried.isFo.length
      bounded := by
        rw [nlmsgLen_bytes]
        exact (Nat.le_add_left _ _).trans h.bounded }
  error htype := by
    have hfo := h.carried.isFo.msgtype
    rw [htype] at hfo
    exact absurd hfo (by decide)

/-- Its frame. -/
def Sized.frame (h : Sized m) (place : Place) : Frame where
  msgtype := m.msgtype
  pad := place.pad
  ptr := place.ptr
  payload := (frameOf m).payload
  nonempty := by
    rw [h.carried.payload_length]
    exact Nat.lt_of_lt_of_le (by decide) h.carried.header
  bounded := by
    rw [h.carried.payload_length]
    exact (Nat.le_add_left _ _).trans h.bounded

theorem Sized.frame_header (h : Sized m) (place : Place) : (h.frame place).header
    = ⟨(frameOf m).msgtype, place.pad, UInt64.ofNat (frameOf m).payload.length, place.ptr⟩ := rfl

theorem Sized.frame_size (h : Sized m) (place : Place) :
    (h.frame place).payload.length = m.header.nlmsgLen.toNat := h.carried.payload_length

theorem Sized.frame_length (h : Sized m) (place : Place) : (h.frame place).bytes.length ≤ INT_MAX := by
  rw [Frame.bytes_length, h.frame_size]
  exact h.bounded

end

/-! ## The stream -/

section
variable {s : Stream} {f : Frame}

theorem Stream.connSend (s : Stream) (f : Frame) (behind : Nat → UInt8) (hmax : f.bytes.length ≤ INT_MAX) :
    ∃ offers, Daemon.connSend true behind f.header f.payload ((s.accepts f.payload.length).map .data)
      = .ok (.ok ⟨offers, f.bytes⟩ []) := by
  obtain ⟨out, h⟩ := s.sent f behind hmax
  refine ⟨out.offers, ?_⟩
  have hsent := h
  simp only [Daemon.connSend, Bool.not_true, Bool.false_eq_true, if_false, f.connSendBuff_eq, Mem.bind_ok,
    Mem.pure_eq_ok, Except.ok.injEq] at hsent
  unfold sendall at hsent
  rw [cInt_of_le_INT_MAX hmax] at hsent
  have hpos : 0 < f.bytes.length := by
    rw [Frame.bytes_length]
    exact Nat.lt_of_lt_of_le f.nonempty (Nat.le_add_left _ _)
  obtain ⟨-, hstream⟩ := sendallLoop_inside_iff hpos hmax rfl (by simp) rfl hsent
  rw [h, ← window_memoryAt f.bytes behind, ← hstream (s.halves f hmax)]

theorem Stream.connRecv (s : Stream) (f : Frame) :
    Daemon.connRecv ⟨f.bytes, handOut (s.handsOut f.payload.length)⟩ = .ok f.message ⟨[], []⟩ := by
  have hpos := s.positive f.payload.length
  obtain ⟨ps, hhead, hrest⟩ := (respects_cons_iff (by decide) hpos).mp (s.respects f)
  obtain ⟨group, hgroup, -⟩ := cut_eq_some hhead
  have hpos' : ∀ p ∈ ps, 0 < p := fun p hp => hpos p (hgroup ▸ List.mem_append_right _ hp)
  obtain ⟨ps', hpay, hnone⟩ := (respects_cons_iff f.nonempty hpos').mp hrest
  have hnil : ps' = [] := by
    obtain ⟨groups, hflat, hsums⟩ := hnone
    rw [← hflat, List.map_eq_nil_iff.mp hsums]
    rfl
  have hsum : f.bytes.length ≤ (s.handsOut f.payload.length).sum := by
    rw [cut_sum hhead, cut_sum hpay, hnil, Frame.bytes_length]
    exact le_rfl
  have hrecv := @connRecv_handOut f _ [] hsum
  rw [List.append_nil, hhead] at hrecv
  dsimp only at hrecv
  rw [hpay, hnil] at hrecv
  exact hrecv.resolve_left (s.legal f)

end

/-! ## The handlers -/

section
variable {place : Place} {host host' : Host}

/-- The next operation of a handler. -/
theorem Place.run_call {α : Type} {op : DaemonOp} {k : op.Res → DaemonM α} {r : op.Res}
    (h : place.serve op host = (.ok r, host')) : place.run (.call op k) host = place.run (k r) host' :=
  Exec.bind_ok h

theorem Place.serve_malloc : place.serve .malloc host = (.ok true, host) := rfl

theorem Place.serve_getsockopt : place.serve .getsockopt host = (.ok true, host) := rfl

theorem Place.serve_nlRecv {buf : Bytes} {netlink : NlSocket} (h : netlinkRecv host.netlink = .ok buf netlink) :
    place.serve .nlRecv host = (.ok (some (.read buf)), { host with netlink }) := by
  change nlRecv host = _
  unfold nlRecv
  rw [h]

theorem Place.serve_nlSend {nlh : NlMessage} {r : RecvResult}
    (h : Kernel.netlinkRecv place.env place.version nlh = some r) : place.serve (.nlSend nlh) host
      = (.ok r.ack, { host with
          netlink := { host.netlink with queue := host.netlink.queue ++ (r.queued nlh).map NlMessage.bytes }
          delivered := host.delivered ++ [nlh] }) := by
  change place.nlSend nlh host = _
  unfold nlSend
  rw [h]

theorem Place.serve_connSend {msg : Message} {out : Outbound} {sends : List SendEvent}
    (h : Daemon.connSend true place.behind ⟨msg.msgtype, place.pad, UInt64.ofNat msg.payload.length, place.ptr⟩
      msg.payload host.sends = .ok (.ok out sends)) :
    place.serve (.connSend msg) host
      = (.ok true, { host with sends, outbound := host.outbound ++ out.stream }) := by
  change place.connSend msg host = _
  unfold connSend
  dsimp only
  rw [h]

theorem Place.serve_connRecv {msg : Message} {remote : Socket} (h : Daemon.connRecv host.remote = .ok msg remote) :
    place.serve .connRecv host = (.ok (some msg), { host with remote }) := by
  change connRecv host = _
  unfold connRecv
  rw [h]

end

section
variable {m : NlMessage} {hop : Hop}

/-- The sender's daemon reads the message, sends its frame, and leaves the others on its
socket. -/
theorem run_netlink (h : Sized m) : hop.near.run proxyHandleNetlink (hop.sender m)
    = (.ok 0, { hop.sender m with
        netlink := ⟨hop.waiting ++ hop.late, []⟩
        sends := []
        outbound := (h.frame hop.near).bytes }) := by
  have hsound := h.fromKernel.sound
  have hrecv : hop.near.serve .nlRecv (hop.sender m)
      = (.ok (some (kept m)), { hop.sender m with netlink := ⟨hop.waiting ++ hop.late, []⟩ }) :=
    @Place.serve_nlRecv hop.near (hop.sender m) _ _ (@netlinkRecv_returns m.bytes hop.waiting hop.late []
      (hsound.header.trans hsound.length) (Nat.lt_of_lt_of_le (by decide) hsound.header) hsound.length
      hsound.bounded)
  have htype : isFileOperation (kept m).msgtype = true := by
    rw [kept_msgtype h.fromKernel]
    exact h.carried.isFo.msgtype
  have hbuf : readBuf (kept m).bytes (kept m).header.nlmsgLen.toNat = .ret (frameOf m).payload := by
    rw [readBuf_kept h.fromKernel, readBuf, if_pos h.carried.isFo.length]
    rfl
  have hmsg : (⟨(kept m).msgtype, (frameOf m).payload⟩ : Message) = frameOf m := by
    rw [kept_msgtype h.fromKernel]
    rfl
  obtain ⟨offers, hsend⟩ := hop.stream.connSend (h.frame hop.near) hop.near.behind (h.frame_length hop.near)
  rw [h.frame_size, h.frame_header] at hsend
  have hconn := @Place.serve_connSend hop.near { hop.sender m with netlink := ⟨hop.waiting ++ hop.late, []⟩ }
    (frameOf m) _ _ hsend
  unfold proxyHandleNetlink
  refine (Place.run_call hrecv).trans ?_
  simp only [Prog.bind]
  rw [if_pos htype]
  refine (Place.run_call Place.serve_malloc).trans ?_
  simp only [Prog.bind, Bool.not_true, Bool.false_eq_true, if_false]
  rw [hbuf, ret_bind, hmsg]
  exact Place.run_call hconn

/-- The receiver's daemon gives the message to its kernel and reads the confirmation. -/
theorem run_remote (h : Sized m) :
    hop.far.run (proxyHandleRemote hop.pid) (hop.receiver m (h.frame hop.near).bytes)
      = (.ok 0, { hop.receiver m (h.frame hop.near).bytes with
          netlink := ⟨[], []⟩
          remote := ⟨[], []⟩
          delivered := [relayed hop.pid m] }) := by
  have hconn := hop.stream.connRecv (h.frame hop.near)
  rw [h.frame_size] at hconn
  have hrecv : hop.far.serve .connRecv (hop.receiver m (h.frame hop.near).bytes)
      = (.ok (some (frameOf m)), { hop.receiver m (h.frame hop.near).bytes with remote := ⟨[], []⟩ }) :=
    Place.serve_connRecv hconn
  have hsend : hop.far.serve (.nlSend (relayed hop.pid m))
        { hop.receiver m (h.frame hop.near).bytes with remote := ⟨[], []⟩ }
      = (.ok (some 0), { hop.receiver m (h.frame hop.near).bytes with
          netlink := ⟨[((relayed hop.pid m).ack 0).bytes], [.data, .data]⟩
          remote := ⟨[], []⟩
          delivered := [relayed hop.pid m] }) :=
    Place.serve_nlSend (h.carried.netlinkRecv hop.pid_ne hop.found hop.thread hop.far.version)
  have hack := fromKernel_ack (relayed hop.pid m) 0
  have hconfirm : hop.far.serve .nlRecv
        { hop.receiver m (h.frame hop.near).bytes with
          netlink := ⟨[((relayed hop.pid m).ack 0).bytes], [.data, .data]⟩
          remote := ⟨[], []⟩
          delivered := [relayed hop.pid m] }
      = (.ok (some (kept ((relayed hop.pid m).ack 0))), { hop.receiver m (h.frame hop.near).bytes with
          netlink := ⟨[], []⟩
          remote := ⟨[], []⟩
          delivered := [relayed hop.pid m] }) :=
    Place.serve_nlRecv (@netlinkRecv_returns _ [] [] [] (hack.sound.header.trans hack.sound.length)
      (Nat.lt_of_lt_of_le (by decide) hack.sound.header) hack.sound.length hack.sound.bounded)
  have htype : isFileOperation (frameOf m).msgtype = true := h.carried.isFo.msgtype
  have hconfirmed : (kept ((relayed hop.pid m).ack 0)).msgtype = NLMSG_ERROR := by
    rw [kept_msgtype hack, NlMessage.ack_msgtype]
  have herror : (kept ((relayed hop.pid m).ack 0)).error = 0 := by
    rw [kept_error hack (NlMessage.ack_msgtype _ 0), NlMessage.ack_error]
  unfold proxyHandleRemote
  refine (Place.run_call Place.serve_getsockopt).trans ?_
  simp only [Prog.bind, Bool.not_true, Bool.false_eq_true, if_false]
  refine (Place.run_call hrecv).trans ?_
  simp only [Prog.bind]
  rw [if_pos htype, h.carried.asNlMessage, ret_bind]
  refine (Place.run_call hsend).trans ?_
  simp only [Prog.bind, pure_eq_ret]
  rw [if_neg (by decide)]
  refine (Place.run_call hconfirm).trans ?_
  simp only [Prog.bind]
  rw [if_pos hconfirmed, if_neg (not_not.mpr herror)]
  rfl

/-- A message comes to the other kernel unchanged, without its padding, and with the pid of the
daemon there. -/
theorem Hop.carry_eq (hop : Hop) (h : Sized m) : hop.carry m = some (relayed hop.pid m) := by
  unfold Hop.carry
  simp only [run_netlink h, run_remote h, show ¬ (0 : Int32) = -1 by decide, if_false]
  rfl

end

/-! ## One file operation -/

/-- An operation of a process of the client, on a device of the server; `flags`, `seq` and what
else the code does not fix are as in an exchange. -/
structure Journey where
  call : FoCall
  accessId : Int32
  stale : Int64
  curseq : Int64
  flags : UInt16
  seq : UInt32
  fresh : FoReq
  server : ServerAccess
  serves : server.Serves call
  filpOpen : Except Int32 File
  there : Hop
  back : Hop

namespace Journey

/-- What the two kernels have to do with it. -/
def exchange (j : Journey) : Kernel.Exchange where
  call := j.call
  accessId := j.accessId
  stale := j.stale
  curseq := j.curseq
  flags := j.flags ||| NLM_F_ACK
  seq := j.seq
  pid := j.there.pid
  pad := []
  fresh := j.fresh
  server := j.server
  serves := j.serves
  filpOpen := j.filpOpen
  replyPad := []

/-- `fo_send` on the client, the two daemons, `fo_execute` on the server, the two daemons again,
and `fo_complete`; `none` when a message does not arrive. -/
def run (j : Journey) : Mem (Option Outcome) := do
  let buff ← deref (← foSerialize true j.exchange.request)
  match j.there.carry (Kernel.netlinkSend j.back.pid j.seq j.call.msgtype.toUInt16 j.flags buff) with
  | none => return none
  | some nlh => do
      let seen ← follow (← foDeserialize true true true j.fresh nlh.payload)
      let fofun ← follow (← foHandler nlh.msgtype)
      let (rvalue, _, result) ← fofun j.exchange.env j.server seen
      let executed ← foExecute .all j.exchange.env j.fresh j.server nlh
      let reply ← follow executed.reply
      match j.back.carry reply with
      | none => return none
      | some answer => do
          let (completed, done) ← foDeserializeToreq true true j.exchange.waiting answer.payload
          return some { seen, rvalue, result, completed, done }

end Journey

/-! ## Its messages -/

theorem isFileOperation_of_toNat {t : Int16} (n : Nat) (hn : t.toUInt16.toNat = n)
    (hfo : isFileOperation (Int32.ofNat n) = true) : isFileOperation (Int32.ofNat t.toUInt16.toNat) = true := by
  rw [hn, hfo]

theorem isFileOperation_msgtype (call : FoCall) :
    isFileOperation (Int32.ofNat call.msgtype.toUInt16.toNat) = true := by
  cases call with
  | llseek => exact @isFileOperation_of_toNat MSGT_FO_LLSEEK.toInt16 101 (by decide) (by decide)
  | read => exact @isFileOperation_of_toNat MSGT_FO_READ.toInt16 102 (by decide) (by decide)
  | write => exact @isFileOperation_of_toNat MSGT_FO_WRITE.toInt16 103 (by decide) (by decide)
  | unlockedIoctl => exact @isFileOperation_of_toNat MSGT_FO_UNLOCKED_IOCTL.toInt16 108 (by decide) (by decide)
  | compatIoctl => exact @isFileOperation_of_toNat MSGT_FO_COMPAT_IOCTL.toInt16 109 (by decide) (by decide)
  | «open» => exact @isFileOperation_of_toNat MSGT_FO_OPEN.toInt16 111 (by decide) (by decide)
  | flush => exact @isFileOperation_of_toNat MSGT_FO_FLUSH.toInt16 112 (by decide) (by decide)
  | release => exact @isFileOperation_of_toNat MSGT_FO_RELEASE.toInt16 113 (by decide) (by decide)

/-- `netlink_send` asks for an acknowledgement. -/
theorem or_NLM_F_ACK (flags : UInt16) : (flags ||| NLM_F_ACK) &&& NLM_F_ACK ≠ 0 := by
  intro h
  have hbit := congrArg (fun x : UInt16 => x.toBitVec.getLsbD 2) h
  simp [NLM_F_ACK] at hbit

section
variable {m : NlMessage} {w rest : Bytes}

/-- A message with an honest length comes without its padding. -/
theorem sized_of (hlen : m.header.nlmsgLen = UInt32.ofNat (sizeof Nlmsghdr + w.length))
    (hpay : m.payload = w ++ rest) (hfo : isFileOperation m.msgtype = true) (hack : m.header.nlmsgFlags &&& NLM_F_ACK ≠ 0)
    (hmax : w.length ≤ 2 * NETDEV_MESSAGE_LIMIT.toNat) :
    Sized m ∧ ∀ pid, relayed pid m = ⟨{ m.header with nlmsgPid := pid }, w⟩ := by
  have hlimit : NETDEV_MESSAGE_LIMIT.toNat = 213000 := rfl
  have hhead : sizeof Nlmsghdr = 16 := rfl
  have hframe : sizeof NetdevHeader = 24 := rfl
  have hint : INT_MAX = 2 ^ 31 - 1 := rfl
  have hnat : m.header.nlmsgLen.toNat = sizeof Nlmsghdr + w.length := by
    rw [hlen]
    exact UInt32.toNat_ofNat_of_lt' (by simp only [UInt32.size]; omega)
  have hbytes : m.bytes.length = sizeof Nlmsghdr + (w.length + rest.length) := by
    rw [length_bytes, hpay, List.length_append]
  refine ⟨⟨⟨⟨hfo, ?_⟩, ?_, hack⟩, ?_⟩, fun pid => ?_⟩
  · rw [hnat, hbytes]
    omega
  · rw [hnat]
    exact Nat.le_add_right _ _
  · rw [hnat]
    omega
  · rw [relayed_eq (by rw [hnat]; exact Nat.le_add_right _ _), hnat, hpay, Nat.add_sub_cancel_left,
      List.take_left]

end

namespace Journey

theorem wire_le (j : Journey) : j.exchange.wire.length ≤ 2 * NETDEV_MESSAGE_LIMIT.toNat := by
  have hargs := j.call.args_length_le
  have hpayload := j.call.payload_length_lt
  have hhead : FoReq.headerSize = 24 := rfl
  have hlimit : NETDEV_MESSAGE_LIMIT.toNat = 213000 := rfl
  rw [j.exchange.wire_length]
  change FoReq.headerSize + j.call.args.length + j.call.payload.length ≤ _
  omega

/-- The request on the client's socket comes to the server's kernel as in the exchange. -/
theorem carry_request (j : Journey) :
    j.there.carry (Kernel.netlinkSend j.back.pid j.seq j.call.msgtype.toUInt16 j.flags j.exchange.wire)
      = some (j.exchange.message j.exchange.wire) := by
  obtain ⟨hsized, hrelayed⟩ := @sized_of
    (Kernel.netlinkSend j.back.pid j.seq j.call.msgtype.toUInt16 j.flags j.exchange.wire) j.exchange.wire _ rfl rfl
    (isFileOperation_msgtype j.call) (or_NLM_F_ACK j.flags) j.wire_le
  rw [j.there.carry_eq hsized, hrelayed]
  exact congrArg (fun payload => some (⟨_, payload⟩ : NlMessage)) (List.append_nil _).symm

/-- A failed request on its way back. -/
theorem carry_failure (j : Journey) : ∃ answer,
    j.back.carry (j.exchange.message j.exchange.wire) = some answer ∧ answer.payload = j.exchange.wire := by
  obtain ⟨hsized, hrelayed⟩ := @sized_of (j.exchange.message j.exchange.wire) j.exchange.wire [] rfl rfl
    (isFileOperation_msgtype j.call) (or_NLM_F_ACK j.flags) j.wire_le
  exact ⟨_, j.back.carry_eq hsized, congrArg NlMessage.payload (hrelayed _)⟩

/-- The answer of a handler on its way back, whichever way it is sent. -/
theorem carry_success (j : Journey) {req : FoReq} {args payload : Bytes} (h : req.Holds args payload)
    (hargs : args.length = j.call.args.length) (hfits : payload.length ≤ j.call.capacity) :
    ∃ reply answer, foReply .all (j.exchange.message j.exchange.wire) req = .ok (some reply, 0) ∧
      (∃ rest, reply.payload = req.wire args payload ++ rest) ∧
      j.back.carry reply = some answer ∧ answer.payload = req.wire args payload := by
  have hle := j.call.args_length_le
  have hlt := j.call.capacity_lt
  have hwire : (req.wire args payload).length = FoReq.headerSize + args.length + payload.length := by
    simp [FoReq.wire, Nat.add_assoc]
  have hmax : (req.wire args payload).length ≤ 2 * NETDEV_MESSAGE_LIMIT.toNat := by
    have hhead : FoReq.headerSize = 24 := rfl
    have hlimit : NETDEV_MESSAGE_LIMIT.toNat = 213000 := rfl
    omega
  have hpayloadLen : cSize (nlmsgPayloadLen (j.exchange.message j.exchange.wire)) = j.exchange.wire.length := by
    have hwire_le := j.wire_le
    have hlimit : NETDEV_MESSAGE_LIMIT.toNat = 213000 := rfl
    have hint : INT_MAX = 2 ^ 31 - 1 := rfl
    rw [nlmsgPayloadLen_eq (by omega) rfl]
    exact cSize_of_le_INT_MAX (by omega)
  by_cases hsame : (req.wire args payload).length = cSize (nlmsgPayloadLen (j.exchange.message j.exchange.wire))
  · have hlen := hsame.trans hpayloadLen
    obtain ⟨hsized, hrelayed⟩ := @sized_of
      { j.exchange.message j.exchange.wire with
        payload := req.wire args payload
          ++ (j.exchange.message j.exchange.wire).payload.drop (req.wire args payload).length }
      (req.wire args payload) _ (by rw [hlen]; rfl) rfl (isFileOperation_msgtype j.call) (or_NLM_F_ACK j.flags) hmax
    exact ⟨_, _, foReply_inPlace h rfl hsame (hsame.trans_le j.exchange.payloadLen_message), ⟨_, rfl⟩,
      j.back.carry_eq hsized,
      congrArg NlMessage.payload (hrelayed _)⟩
  · obtain ⟨hsized, hrelayed⟩ := @sized_of
      (.put j.there.pid j.seq j.call.msgtype.toUInt16 NLM_F_ACK (req.wire args payload))
      (req.wire args payload) _ rfl rfl (isFileOperation_msgtype j.call)
      (by decide : NLM_F_ACK &&& NLM_F_ACK ≠ 0) hmax
    have hsmall : (req.wire args payload).length < 2 ^ 30 := hmax.trans_lt (by decide)
    exact ⟨_, _, @foReply_packed .all _ _ _ _ h rfl hsame hsmall, ⟨_, rfl⟩, j.back.carry_eq hsized,
      congrArg NlMessage.payload (hrelayed _)⟩

/-- What follows an answer does not matter to the request that waits. -/
theorem foDeserializeToreq_wire (j : Journey) {req : FoReq} {args payload : Bytes} (h : req.Holds args payload)
    (hargs : args.length = j.call.args.length) (hfits : payload.length ≤ j.call.capacity) (rest : Bytes) :
    foDeserializeToreq true true j.exchange.waiting (req.wire args payload ++ rest)
      = foDeserializeToreq true true j.exchange.waiting (req.wire args payload) := by
  have hdecode : ∃ buf : Bytes, ∀ rest,
      foDeserializeToreq true true j.exchange.waiting (req.wire args payload ++ rest) = .ok (true, { j.exchange.waiting with
          accessId := req.accessId, rvalue := req.rvalue, size := req.size, dataSize := req.dataSize
          args := some args
          data := if req.dataSize = 0 then j.exchange.waiting.data
            else some (payload ++ buf.drop payload.length) }) := by
    by_cases hzero : req.dataSize = 0
    · exact ⟨[], fun rest => @FoReq.Holds.foDeserializeToreq req args payload j.exchange.waiting j.call.args []
        rest true true h rfl hargs.symm (fun hne => absurd hzero hne)⟩
    · have hpos : 0 < payload.length := by
        have hne : req.dataSize.toNat ≠ 0 := fun h' => hzero (UInt64.toNat_inj.mp h')
        have hsize := h.dataSize
        omega
      obtain ⟨buf, hbuf, hlen⟩ := FoCall.exists_data hpos hfits
      have hroom : j.exchange.waiting.data.or (zalloc true payload.length) = some buf :=
        congrArg (Option.or · _) hbuf
      exact ⟨buf, fun rest => @FoReq.Holds.foDeserializeToreq req args payload j.exchange.waiting j.call.args
        buf rest true true h rfl hargs.symm (fun _ => ⟨hroom, hfits.trans hlen.ge⟩)⟩
  obtain ⟨buf, hdecode⟩ := hdecode
  have hnil := hdecode []
  rw [List.append_nil] at hnil
  rw [hdecode rest, hnil]

section
variable {j : Journey} {rvalue : Int32} {acc : ServerAccess} {result : FoReq}

/-- The journey and the exchange end alike when the answer holds this request. -/
theorem run_eq {executed : ExecResult} {reply answer : NlMessage} {req : FoReq} {args payload rest : Bytes}
    (hresult : j.call.handler j.exchange.env j.server (j.call.decoded j.fresh j.accessId)
      = .ok (rvalue, acc, result))
    (hexecuted : foExecute .all j.exchange.env j.fresh j.server (j.exchange.message j.exchange.wire) = .ok executed)
    (hreply : executed.reply = some reply) (hpayload : reply.payload = req.wire args payload ++ rest)
    (hanswer : j.back.carry reply = some answer) (hcarried : answer.payload = req.wire args payload)
    (h : req.Holds args payload) (hargs : args.length = j.call.args.length)
    (hfits : payload.length ≤ j.call.capacity) :
    ∃ done, j.run = .ok (some ⟨j.call.decoded j.fresh j.accessId, rvalue, result, true, done⟩) ∧
      j.exchange.run = .ok ⟨j.call.decoded j.fresh j.accessId, rvalue, result, true, done⟩ ∧
      done.rvalue = req.rvalue ∧ Answered j.call done args payload := by
  obtain ⟨done, hdone, hsame, hanswered⟩ := @foDeserializeToreq_answered j.call req args payload [] j.accessId
    j.curseq h hargs hfits
  have hend : foDeserializeToreq true true j.exchange.waiting (req.wire args payload) = .ok (true, done) := by
    rw [← hdone, List.append_nil]
    rfl
  refine ⟨done, ?_, ?_, hsame, hanswered⟩
  · have hseen : foDeserialize true true true j.fresh (j.exchange.message j.exchange.wire).payload
        = .ok (some (j.call.decoded j.fresh j.accessId)) := j.exchange.foDeserialize_message
    have hfofun : foHandler (j.exchange.message j.exchange.wire).msgtype = .ok (some j.call.handler) :=
      j.exchange.foHandler_message
    simp only [run, j.exchange.foSerialize_request, deref_some, j.carry_request, hseen, follow_some, hfofun,
      hresult, hexecuted, hreply, hanswer, hcarried, hend, Mem.bind_ok, Mem.pure_eq_ok]
  · refine j.exchange.run_eq hresult hexecuted hreply ?_
    rw [hpayload, List.append_assoc, j.foDeserializeToreq_wire h hargs hfits, hend]

end

/-- Where every message comes through, the two machines do with a file operation what the two
kernels would do alone, and they agree about it. -/
theorem run_agrees (j : Journey) :
    ∃ o, j.run = .ok (some o) ∧ j.exchange.run = .ok o ∧ o.Agrees j.exchange := by
  obtain ⟨rvalue, acc, result, args, payload, hresult, handled⟩ :=
    @handler_returns j.fresh j.accessId j.exchange.env j.server j.call (FoCall.buffered rfl _) j.serves
  by_cases hrvalue : rvalue = -1
  · subst hrvalue
    have hexecuted := @foExecute_failure .all _ _ _ _ _ _ _ _ j.exchange.foDeserialize_message
      j.exchange.foHandler_message hresult
    obtain ⟨answer, hanswer, hcarried⟩ := j.carry_failure
    obtain ⟨done, hrun, hexchange, hsame, hanswered⟩ := run_eq hresult hexecuted rfl rfl hanswer hcarried
      j.exchange.request_holds rfl j.call.payload_length_le
    exact ⟨_, hrun, hexchange, Outcome.agrees_of_answered rfl rfl hanswered rfl j.call.keepsPointer_args
      j.call.payload_length_le (fun hne => absurd rfl hne) (fun _ => hsame)⟩
  · have hholds := handled.holds rvalue
    obtain ⟨reply, answer, hreply, ⟨rest, hpayload⟩, hanswer, hcarried⟩ := j.carry_success hholds
      handled.args_length handled.payload_le
    have hexecuted := @foExecute_success .all _ _ _ _ _ _ _ _ _ _ _ j.exchange.foDeserialize_message
      j.exchange.foHandler_message hresult hrvalue hreply
    obtain ⟨done, hrun, hexchange, hsame, hanswered⟩ := run_eq hresult hexecuted rfl hpayload hanswer hcarried
      hholds handled.args_length handled.payload_le
    have hdataSize : done.dataSize = result.dataSize :=
      UInt64.toNat_inj.mp (hanswered.dataSize.trans hholds.dataSize)
    exact ⟨_, hrun, hexchange, Outcome.agrees_of_answered rfl rfl hanswered handled.args_length
      handled.keepsPointer handled.payload_le (fun _ => ⟨hsame, hholds.pointer, fun hne =>
        hholds.data fun hzero => hne (hdataSize.trans hzero)⟩) (fun h => absurd h hrvalue)⟩

end Journey

/-! ## Whole pieces -/

/-- What is asked for is handed out at once. -/
theorem recvall_whole {stream : Bytes} {n : Nat} (es : List RecvEvent) (hpos : 0 < n) (hle : n ≤ stream.length)
    (hmax : n ≤ INT_MAX) :
    Daemon.recvall n ⟨stream, .data n :: es⟩ = .ok (stream.take n) ⟨stream.drop n, es⟩ := by
  have hcopy := @memcpy_behind [] (List.replicate n 0) stream n List.length_replicate.ge hle
  rw [List.nil_append, List.drop_eq_nil_of_le List.length_replicate.le, List.nil_append, List.append_nil,
    List.length_nil] at hcopy
  have hbytes : cInt (0 + (n : Int)) = n := by
    rw [Int.zero_add]
    exact cInt_of_le_INT_MAX hmax
  simp only [Daemon.recvall, Daemon.recvallLoop, hpos, hle, le_refl, and_self, if_true, hcopy, hbytes,
    cInt_of_le_INT_MAX hmax, lt_irrefl, if_false]

/-- Frames are accepted at once, and handed out as header and payload. -/
def Stream.whole : Stream where
  accepts n := [sizeof NetdevHeader + n]
  handsOut n := if n = 0 then [sizeof NetdevHeader] else [sizeof NetdevHeader, n]
  sent f behind hmax := by
    rw [← f.bytes_length]
    exact ⟨_, connSend_whole f hmax behind⟩
  halves f _ := ⟨[], _, rfl, by simp, fun h => absurd h (by simp)⟩
  legal f := by
    have hne : f.payload.length ≠ 0 := f.nonempty.ne'
    have hlen : (toBytes f.header).length = sizeof NetdevHeader := Layout.length_toBytes _
    have hhead := @recvall_whole f.bytes (sizeof NetdevHeader) [.data f.payload.length] (by decide)
      (by rw [f.bytes_length]; exact Nat.le_add_right _ _) (by decide)
    have hpay := @recvall_whole f.payload f.payload.length [] f.nonempty le_rfl f.bounded
    rw [Frame.bytes, List.take_left' hlen, List.drop_left' hlen] at hhead
    rw [if_neg hne]
    simp only [Daemon.connRecv, Frame.bytes, handOut, List.map_cons, List.map_nil, hhead, Recv.bind_ok,
      Layout.ofBytes_toBytes, f.header_size, hpay]
    exact nofun
  positive n p hp := by
    split at hp
    · rw [List.mem_singleton.mp hp]
      decide
    · rename_i hne
      rw [List.mem_pair] at hp
      cases hp with
      | inl hp => rw [hp]; decide
      | inr hp => rw [hp]; exact Nat.pos_of_ne_zero hne
  respects f := by
    rw [if_neg f.nonempty.ne']
    exact ⟨[[sizeof NetdevHeader], [f.payload.length]], rfl, by simp [parts]⟩

namespace Sample

def place : Place := ⟨0, 0, fun _ => 0, 2, ⟨true, 0, true, 0⟩⟩

/-- A seek to 7, on a device that goes where it is told. -/
def journey : Journey where
  call := .llseek 7 0 0
  accessId := 3
  stale := 0
  curseq := 1
  flags := NLM_F_REQUEST
  seq := 1
  fresh := FoCall.flush.request 3 0
  server :=
    ⟨some ⟨some { llseek := some fun offset _ => offset, read := none, write := none, unlockedIoctl := none
                  compatIoctl := none, flush := none }, 0⟩⟩
  serves := ⟨_, rfl⟩
  filpOpen := .error (-2)
  there := ⟨.whole, place, place, [], [], 9, by decide, rfl, rfl⟩
  back := ⟨.whole, place, place, [], [], 7, by decide, rfl, rfl⟩

end Sample

theorem run_agrees_llseek : ∃ o, Sample.journey.run = .ok (some o) ∧ o.Agrees Sample.journey.exchange := by
  obtain ⟨o, hrun, -, hagrees⟩ := Sample.journey.run_agrees
  exact ⟨o, hrun, hagrees⟩

end Netdev.Stack
