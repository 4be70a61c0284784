-- SUMMARY: `proxy_loop` and its two handlers, as a system with the kernel threads that queue messages on the netlink socket.
import Netdev.Base.System
import Netdev.Daemon.Netlink
import Netdev.Kernel.Netlink

/-!
# The proxy loop

After registration a proxy forwards file operations in both directions. Kernel
threads queue messages on its netlink socket at any time; the proxy reads that
socket in two places.
-/

namespace Netdev.Daemon
open Base Prog

/-! ## The handlers -/

/-- The payload of a frame as the kernel gets it from `netlink_send_nlh`: its `nlmsg_pid` is
set, and then exactly as many bytes are sent as its `nlmsg_len` says, which is not compared
with the size of the payload. The kernel looks at a whole header, also where it lies behind
the bytes that were sent. -/
def asNlMessage (pid : UInt32) (payload : Bytes) : DaemonM NlMessage := do
  let header ← readBuf payload (sizeof Nlmsghdr)
  let nlh := NlMessage.read (header ++ payload.drop (sizeof Nlmsghdr))
  let sent ← readBuf (nlh.fromPid pid).bytes nlh.header.nlmsgLen.toNat
  let skb ← readBuf sent (max (sizeof Nlmsghdr) nlh.header.nlmsgLen.toNat)
  return .read skb

def proxyHandleRemote (pid : UInt32) : DaemonM Int32 := do
  if !(← sys .getsockopt) then
    return -1
  match ← sys .connRecv with
  | none => return -1
  | some ndhead =>
      if isFileOperation ndhead.msgtype then
        let nlh ← asNlMessage pid ndhead.payload
        -- the result is not looked at
        let _ ← netlinkSendConfirmed nlh
        return 0
      else
        return -1

def proxyHandleNetlink : DaemonM Int32 := do
  match ← sys .nlRecv with
  | none => return -1
  | some nlh =>
      if isFileOperation nlh.msgtype then
        if !(← sys .malloc) then
          return -1
        let payload ← readBuf nlh.bytes nlh.header.nlmsgLen.toNat
        let _ ← sys (.connSend ⟨nlh.msgtype, payload⟩)
        return 0
      else
        return -1

/-! ## The socket -/

/-- A file operation as the kernel's `netlink_send` and `netlink_send_skb` queue
it: the datagram holds at least `nlmsg_len` bytes. -/
structure IsFo (m : NlMessage) : Prop where
  msgtype : isFileOperation m.msgtype
  length : m.header.nlmsgLen.toNat ≤ m.bytes.length

def FoMessage := { m : NlMessage // IsFo m }

/-- The frame in which a file operation goes to the peer. -/
def frameOf (m : NlMessage) : Message := ⟨m.msgtype, m.bytes.take m.header.nlmsgLen.toNat⟩

inductive Handler where
  | remote
  | netlink
  deriving DecidableEq

/-- The netlink socket, and what has happened on it: `queued` are the messages of
the kernel threads, `confirmed` those that `proxy_handle_remote` read as
confirmations, `handled` those that `proxy_handle_netlink` read, and `passed` what
it gave to `conn_send`. -/
structure Wire where
  queue : List NlMessage
  queued : List NlMessage
  confirmed : List NlMessage
  handled : List NlMessage
  passed : List Message

namespace Wire

def empty : Wire := ⟨[], [], [], [], []⟩

/-- A kernel thread queues a file operation. -/
def queueFo (w : Wire) (m : NlMessage) : Wire :=
  { w with queue := w.queue ++ [m], queued := w.queued ++ [m] }

def recv (w : Wire) (m : NlMessage) (rest : List NlMessage) : Handler → Wire
  | .remote => { w with queue := rest, confirmed := w.confirmed ++ [m] }
  | .netlink => { w with queue := rest, handled := w.handled ++ [m] }

end Wire

/-- How the environment serves an operation of a handler. While `nlSend` runs, the
kernel handles the message; a `netlink_recv` that fails leaves it on the socket. -/
inductive Serves (version : Int32) (handler : Handler) (env : Kernel.RecvEnv) :
    Wire → Event DaemonI → Wire → Prop where
  | nlSend {w : Wire} {m : NlMessage} {r : Kernel.RecvResult} :
      Kernel.netlinkRecv env version m = some r →
      Serves version handler env w ⟨.nlSend m, r.ack⟩ { w with queue := w.queue ++ r.queued m }
  | nlRecv {w : Wire} {m : NlMessage} {rest : List NlMessage} :
      w.queue = m :: rest →
      Serves version handler env w ⟨.nlRecv, some m⟩ (w.recv m rest handler)
  | nlRecvFails {w : Wire} : Serves version handler env w ⟨.nlRecv, none⟩ w
  | connSend {w : Wire} {m : Message} (ok : Bool) :
      Serves version handler env w ⟨.connSend m, ok⟩ { w with passed := w.passed ++ [m] }
  | connRecv {w : Wire} (r : Option Message) : Serves version handler env w ⟨.connRecv, r⟩ w
  | getsockopt {w : Wire} (ok : Bool) : Serves version handler env w ⟨.getsockopt, ok⟩ w
  | malloc {w : Wire} (ok : Bool) : Serves version handler env w ⟨.malloc, ok⟩ w
  | overread {w : Wire} {n : Nat} (rest : { buf : Bytes // buf.length = n }) :
      Serves version handler env w ⟨.overread n, rest⟩ w

/-! ## The loop -/

/-- Where `proxy_loop` is; `rm` says whether `select` found the remote socket
readable too. -/
inductive Phase where
  | loop
  | netlink (p : DaemonM Int32) (rm : Bool)
  | remote (p : DaemonM Int32)
  | ended

namespace Proxy

structure State where
  wire : Wire
  phase : Phase

inductive Label where
  | queue (m : FoMessage)
  | select (nl rm : Bool)
  /-- `select` fails, or the control socket is readable. -/
  | control
  | op (e : Event DaemonI) (env : Kernel.RecvEnv)
  | done

def startRemote (pid : UInt32) : Phase := .remote (proxyHandleRemote pid)

inductive Step (version : Int32) (pid : UInt32) : State → Label → State → Prop where
  | queue {s : State} (m : FoMessage) :
      Step version pid s (.queue m) { s with wire := s.wire.queueFo m.val }
  | selectNetlink {w : Wire} (rm : Bool) :
      w.queue ≠ [] →
      Step version pid ⟨w, .loop⟩ (.select true rm) ⟨w, .netlink proxyHandleNetlink rm⟩
  | selectRemote {w : Wire} :
      w.queue = [] →
      Step version pid ⟨w, .loop⟩ (.select false true) ⟨w, startRemote pid⟩
  | control {w : Wire} : Step version pid ⟨w, .loop⟩ .control ⟨w, .ended⟩
  | netlink {w w' : Wire} {op : DaemonOp} {k : op.Res → DaemonM Int32} {rm : Bool} {r : op.Res}
      {env : Kernel.RecvEnv} :
      Serves version .netlink env w ⟨op, r⟩ w' →
      Step version pid ⟨w, .netlink (.call op k) rm⟩ (.op ⟨op, r⟩ env) ⟨w', .netlink (k r) rm⟩
  | remote {w w' : Wire} {op : DaemonOp} {k : op.Res → DaemonM Int32} {r : op.Res}
      {env : Kernel.RecvEnv} :
      Serves version .remote env w ⟨op, r⟩ w' →
      Step version pid ⟨w, .remote (.call op k)⟩ (.op ⟨op, r⟩ env) ⟨w', .remote (k r)⟩
  | netlinkDone {w : Wire} {rvalue : Int32} {rm : Bool} :
      Step version pid ⟨w, .netlink (.ret rvalue) rm⟩ .done
        ⟨w, if rvalue = -1 then .ended else if rm then startRemote pid else .loop⟩
  | remoteDone {w : Wire} {rvalue : Int32} :
      Step version pid ⟨w, .remote (.ret rvalue)⟩ .done
        ⟨w, if rvalue = -1 then .ended else .loop⟩

def system (version : Int32) (pid : UInt32) : System State Label where
  init s := s = ⟨.empty, .loop⟩
  step := Step version pid

end Proxy

end Netdev.Daemon
