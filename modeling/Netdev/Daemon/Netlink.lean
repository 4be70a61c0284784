-- SUMMARY: The daemon's side of netlink: setup, sending with one confirmation, and the registration messages.
import Netdev.Daemon.Ops

/-!
# Netlink in the daemon

The functions of `daemon/netlink.c`. A string that C code passes as a pointer is
given without its terminating null.
-/

namespace Netdev.Daemon
open Base Prog

/-- `-1` when the socket cannot be set up. The two address allocations are not
checked before `memset` writes through them. -/
def netlinkSetup : DaemonM Int32 := do
  if !(← sys .socket) then
    return -1
  if !(← sys .malloc) then
    crash
  if !(← sys .malloc) then
    crash
  if !(← sys .bind) then
    return -1
  return 0

/-- `netlink_send`: a failure of `sendall` is printed and then forgotten. -/
def netlinkSend (nlh : NlMessage) : DaemonM Int32 := do
  let _ ← sys (.nlSend nlh)
  return 0

/-- `netlink_send_nlh` with a message that has its pid: send, then read one message as the
confirmation. -/
def netlinkSendConfirmed (nlh : NlMessage) : DaemonM Int32 := do
  if (← netlinkSend nlh) = -1 then
    return -1
  match ← sys .nlRecv with
  | none => return -1
  | some nlh =>
      if nlh.msgtype = NLMSG_ERROR then
        if nlh.error ≠ 0 then
          return -1
        else
          return 0
      else
        -- "next message was not confirmation!"
        return -1

def netlinkSendNlh (pid : UInt32) (nlh : NlMessage) : DaemonM Int32 := netlinkSendConfirmed (nlh.fromPid pid)

def netlinkSendMsg (pid : UInt32) (buff : Bytes) (msgtype : Int32) (flags : UInt16) :
    DaemonM Int32 := do
  if !(← sys .malloc) then
    return -1
  if (← netlinkSendNlh pid (.build pid msgtype (flags ||| NLM_F_ACK) buff)) = -1 then
    return -1
  return 0

def netlinkRegDummyDev (pid : UInt32) (dummyDevName : Bytes) : DaemonM Int32 :=
  netlinkSendMsg pid (dummyDevName ++ [0]) MSGT_CONTROL_REG_DUMMY NLM_F_REQUEST

def netlinkRegRemoteDev (pid : UInt32) (remoteDevName : Bytes) : DaemonM Int32 :=
  netlinkSendMsg pid (remoteDevName ++ [0]) MSGT_CONTROL_REG_SERVER NLM_F_REQUEST

/-! ## What the functions do -/

section
variable {allowed : History → Event DaemonI → Prop}

/-- Setting up the socket carries no message. -/
theorem netlinkSetup_spec (h : History) :
    wp (recording allowed) (· = h) (fun _ => (· = h)) netlinkSetup h := by
  refine ⟨rfl, ?_⟩
  rintro (_ | _) _ ⟨-, rfl⟩
  · exact rfl
  refine ⟨rfl, ?_⟩
  rintro (_ | _) _ ⟨-, rfl⟩
  · exact wp_segv rfl
  refine ⟨rfl, ?_⟩
  rintro (_ | _) _ ⟨-, rfl⟩
  · exact wp_segv rfl
  refine ⟨rfl, ?_⟩
  rintro (_ | _) _ ⟨-, rfl⟩
  · exact rfl
  · exact rfl

/-- While `netlink_send_nlh` works on `nlh`. -/
inductive Confirming (nlh : NlMessage) (h : History) : History → Prop where
  | start : Confirming nlh h h
  | sent (verdict : Option Int32) : Confirming nlh h (h ++ [⟨.nlSend nlh, verdict⟩])

/-- How `netlink_send_nlh` ends: it fails, or the next message was an
acknowledgement without error. -/
inductive Confirmed (allowed : History → Event DaemonI → Prop) (nlh : NlMessage) (h : History) :
    Int32 → History → Prop where
  | unsent : Confirmed allowed nlh h (-1) h
  | failed (verdict : Option Int32) (answer : Option NlMessage) :
      Confirmed allowed nlh h (-1) (h ++ [⟨.nlSend nlh, verdict⟩] ++ [⟨.nlRecv, answer⟩])
  | ok (verdict : Option Int32) (answer : NlMessage) :
      allowed (h ++ [⟨.nlSend nlh, verdict⟩]) ⟨.nlRecv, some answer⟩ →
      answer.msgtype = NLMSG_ERROR → answer.error = 0 →
      Confirmed allowed nlh h 0 (h ++ [⟨.nlSend nlh, verdict⟩] ++ [⟨.nlRecv, some answer⟩])

theorem netlinkSendConfirmed_spec (nlh : NlMessage) (h : History) :
    wp (recording allowed) (Confirming nlh h) (Confirmed allowed nlh h) (netlinkSendConfirmed nlh) h := by
  refine ⟨.start, ?_⟩
  rintro verdict _ ⟨-, rfl⟩
  refine ⟨Confirming.sent verdict, ?_⟩
  rintro (_ | answer) _ ⟨hallowed, rfl⟩
  · exact Confirmed.failed verdict none
  simp only [Prog.bind]
  by_cases htype : answer.msgtype = NLMSG_ERROR
  · rw [if_pos htype]
    by_cases herror : answer.error ≠ 0
    · rw [if_pos herror]
      exact Confirmed.failed verdict (some answer)
    · rw [if_neg herror]
      exact Confirmed.ok verdict answer hallowed htype (not_not.mp herror)
  · rw [if_neg htype]
    exact Confirmed.failed verdict (some answer)

/-- The message that `netlink_send_msg` sends. -/
def controlMessage (pid : UInt32) (buff : Bytes) (msgtype : Int32) (flags : UInt16) : NlMessage :=
  .build pid msgtype (flags ||| NLM_F_ACK) buff

theorem netlinkSendMsg_spec (pid : UInt32) (buff : Bytes) (msgtype : Int32) (flags : UInt16)
    (h : History) :
    wp (recording allowed) (Confirming (controlMessage pid buff msgtype flags) h)
      (Confirmed allowed (controlMessage pid buff msgtype flags) h)
      (netlinkSendMsg pid buff msgtype flags) h := by
  refine ⟨.start, ?_⟩
  rintro (_ | _) _ ⟨-, rfl⟩
  · exact Confirmed.unsent
  change wp _ _ _ (netlinkSendNlh pid _ >>= _) _
  refine wp_bind ((netlinkSendConfirmed_spec _ _).mono (fun _ hj => hj) ?_)
  intro rvalue h' hend
  cases hend with
  | unsent => exact Confirmed.unsent
  | failed verdict answer => exact Confirmed.failed verdict answer
  | ok verdict answer hallowed htype herror => exact Confirmed.ok verdict answer hallowed htype herror

end

end Netdev.Daemon
