-- SUMMARY: The kernel module's netlink input: what one message from a daemon makes it queue on that daemon's socket.
import Netdev.Netlink

/-!
# Netlink in the kernel module

`netlink_recv` of `kernel/netlink.c` runs inside the daemon's `sendmsg`. What it
calls appears as its results; what it leaves behind is the messages it queues on
the daemon's socket and perhaps a new `fo_recv` thread.
-/

namespace Netdev.Kernel
open Base

def NLM_F_ECHO : UInt16 := 8

/-- What the functions called by `netlink_recv` return. -/
structure RecvEnv where
  /-- `ndmgm_find(pid)` finds a device. -/
  found : Bool
  /-- `ndmgm_create_dummy`, `ndmgm_create_server` or `ndmgm_find_destroy`. -/
  registry : Int32
  /-- `netlink_send` can allocate and deliver its message. -/
  sendOk : Bool
  /-- `kthread_create`: 0, or the error in the pointer it returns. -/
  thread : Int32

/-- `reply` is queued before the acknowledgement `ack`. -/
structure RecvResult where
  reply : Option NlMessage
  ack : Option Int32
  task : Bool
  deriving DecidableEq

/-- The message that `netlink_send` queues for the daemon `nlpid`. -/
def netlinkSend (nlpid seq : UInt32) (msgtype flags : UInt16) (buff : Bytes) : NlMessage :=
  .put nlpid seq msgtype (flags ||| NLM_F_ACK) buff

/-- `netlink_send_msg`: -1 without a device or when the message cannot be sent. -/
def netlinkSendMsg (env : RecvEnv) (nlh : NlMessage) (flags : UInt16) (buff : Bytes) :
    Int32 × Option NlMessage :=
  if env.found && env.sendOk then
    (0, some (netlinkSend nlh.header.nlmsgPid nlh.header.nlmsgSeq nlh.header.nlmsgType flags buff))
  else
    (-1, none)

/-- The `switch` over control messages: the error and the message it queues. -/
def netlinkControl (env : RecvEnv) (version : Int32) (nlh : NlMessage) : Int32 × Option NlMessage :=
  let msgtype := nlh.msgtype
  if msgtype = MSGT_CONTROL_ECHO then
    netlinkSendMsg env nlh NLM_F_ECHO (nlh.payload.take (sizeof Int32))
  else if msgtype = MSGT_CONTROL_VERSION then
    netlinkSendMsg env nlh NLM_F_ECHO (toBytes version)
  else if msgtype = MSGT_CONTROL_REG_DUMMY then
    (env.registry, none)
  else if msgtype = MSGT_CONTROL_REG_SERVER then
    (env.registry, none)
  else if msgtype = MSGT_CONTROL_UNREGISTER then
    (env.registry, none)
  else
    (0, none)

/-- The end of `netlink_recv`. -/
def netlinkAck (nlh : NlMessage) (err : Int32) : Option Int32 :=
  if err ≠ 0 ∨ nlh.header.nlmsgFlags &&& NLM_F_ACK ≠ 0 then some err else none

/-- `none` when the kernel dereferences an error pointer: `wake_up_process` is
called also on the thread that could not be created. -/
def netlinkRecv (env : RecvEnv) (version : Int32) (nlh : NlMessage) : Option RecvResult :=
  if nlh.header.nlmsgPid = 0 then
    some ⟨none, none, false⟩
  else if MSGT_CONTROL_START ≤ nlh.msgtype ∧ nlh.msgtype < MSGT_CONTROL_END then
    let (err, reply) := netlinkControl env version nlh
    some ⟨reply, netlinkAck nlh err, false⟩
  else if isFileOperation nlh.msgtype then
    if !env.found then
      -- returns without an acknowledgement
      some ⟨none, none, false⟩
    else if env.thread ≠ 0 then
      none
    else
      some ⟨none, netlinkAck nlh 0, true⟩
  else
    some ⟨none, netlinkAck nlh 0, false⟩

/-- The messages on the daemon's socket afterwards. -/
def RecvResult.queued (r : RecvResult) (nlh : NlMessage) : List NlMessage :=
  r.reply.toList ++ (r.ack.map nlh.ack).toList

end Netdev.Kernel
