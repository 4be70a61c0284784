-- SUMMARY: The two proxies up to `proxy_loop`: version exchange and device registration.
import Netdev.Daemon.Netlink

/-!
# Setting up a proxied device

`proxy_client` on one machine and `proxy_server` on the other exchange versions
and register the device, over the functions of `daemon/conn.c`. The protocol
version that a daemon was built with is a parameter.
-/

namespace Netdev.Daemon
open Base Prog

/-! ## Versions -/

/-- `conn_server`: the client's side. After `connect` every exit returns `rvalue`,
which is then 0. -/
def connServer (version : Int32) : DaemonM Int32 := do
  if !(← sys .socket) then
    return -1
  if !(← sys .malloc) then
    return -1
  if !(← sys .connect) then
    return -1
  let rvalue : Int32 := 0
  if !(← sys .malloc) then
    return -1
  -- the payload's allocation is not checked before `memcpy`
  if !(← sys .malloc) then
    crash
  if !(← sys (.connSend ⟨MSGT_CONTROL_VERSION, toBytes version⟩)) then
    return rvalue
  match ← sys .connRecv with
  | none =>
      -- the shared exit frees `ndhead->payload`
      crash
  | some ndhead =>
      if ndhead.size ≠ sizeof Int32 then
        return rvalue
      else if asInt ndhead.payload ≠ 0 then
        return rvalue
      else
        return 0

/-- `conn_client`: the server's side. A message of another type is only printed,
and a wrong version is answered with the own version, which is also returned. -/
def connClient (version : Int32) : DaemonM Int32 := do
  match ← sys .connRecv with
  | none => crash
  | some ndhead =>
      if ndhead.size ≠ sizeof Int32 then
        return -1
      else
        let reply := if asInt ndhead.payload ≠ version then version else NETDEV_PROTOCOL_SUCCESS
        if !(← sys (.connSend ⟨ndhead.msgtype, toBytes reply⟩)) then
          return -1
        return reply

/-- The client's version message. -/
def versionMessage (version : Int32) : Message := ⟨MSGT_CONTROL_VERSION, toBytes version⟩

/-- The value that `conn_client` answers to `m`. -/
def versionReply (version : Int32) (m : Message) : Int32 :=
  if asInt m.payload ≠ version then version else NETDEV_PROTOCOL_SUCCESS

section
variable {allowed : History → Event DaemonI → Prop}

/-- While `conn_server` runs; the last case is its end in a null pointer. -/
inductive Connecting (version : Int32) (h : History) : History → Prop where
  | start : Connecting version h h
  | sent : Connecting version h (h ++ [⟨.connSend (versionMessage version), true⟩])
  | lost : Connecting version h
      (h ++ [⟨.connSend (versionMessage version), true⟩] ++ [⟨.connRecv, none⟩])

/-- How `conn_server` ends. -/
inductive Connected (version : Int32) (h : History) : Int32 → History → Prop where
  | early : Connected version h (-1) h
  | unsent : Connected version h 0 (h ++ [⟨.connSend (versionMessage version), false⟩])
  | answered (m : Message) : Connected version h 0
      (h ++ [⟨.connSend (versionMessage version), true⟩] ++ [⟨.connRecv, some m⟩])

theorem connServer_spec (version : Int32) (h : History) :
    wp (recording allowed) (Connecting version h) (Connected version h) (connServer version) h := by
  refine ⟨.start, ?_⟩
  rintro (_ | _) _ ⟨-, rfl⟩
  · exact Connected.early
  refine ⟨Connecting.start, ?_⟩
  rintro (_ | _) _ ⟨-, rfl⟩
  · exact Connected.early
  -- `connect`
  refine ⟨Connecting.start, ?_⟩
  rintro (_ | _) _ ⟨-, rfl⟩
  · exact Connected.early
  refine ⟨Connecting.start, ?_⟩
  rintro (_ | _) _ ⟨-, rfl⟩
  · exact Connected.early
  refine ⟨Connecting.start, ?_⟩
  rintro (_ | _) _ ⟨-, rfl⟩
  · exact wp_segv .start
  -- the version is sent
  refine ⟨Connecting.start, ?_⟩
  rintro (_ | _) _ ⟨-, rfl⟩
  · exact Connected.unsent
  -- and answered
  refine ⟨Connecting.sent, ?_⟩
  rintro (_ | m) _ ⟨-, rfl⟩
  · exact wp_segv .lost
  simp only [Prog.bind]
  split_ifs
  · exact Connected.answered m
  · exact Connected.answered m
  · exact Connected.answered m

/-- While `conn_client` runs. -/
inductive Accepting (h : History) : History → Prop where
  | start : Accepting h h
  | received (answer : Option Message) : Accepting h (h ++ [⟨.connRecv, answer⟩])

/-- How `conn_client` ends. -/
inductive Accepted (version : Int32) (h : History) : Int32 → History → Prop where
  | refused (m : Message) : Accepted version h (-1) (h ++ [⟨.connRecv, some m⟩])
  | unsent (m : Message) (reply : Message) :
      Accepted version h (-1) (h ++ [⟨.connRecv, some m⟩] ++ [⟨.connSend reply, false⟩])
  | answered (m : Message) : m.size = sizeof Int32 →
      Accepted version h (versionReply version m) (h ++ [⟨.connRecv, some m⟩] ++
        [⟨.connSend ⟨m.msgtype, toBytes (versionReply version m)⟩, true⟩])

theorem connClient_spec (version : Int32) (h : History) :
    wp (recording allowed) (Accepting h) (Accepted version h) (connClient version) h := by
  refine ⟨.start, ?_⟩
  rintro (_ | m) _ ⟨-, rfl⟩
  · exact wp_segv (.received none)
  simp only [Prog.bind]
  by_cases hsize : m.size ≠ sizeof Int32
  · rw [if_pos hsize]
    exact Accepted.refused m
  rw [if_neg hsize]
  refine ⟨Accepting.received (some m), ?_⟩
  rintro (_ | _) _ ⟨-, rfl⟩
  · exact Accepted.unsent m _
  · exact Accepted.answered m (not_not.mp hsize)

end

/-! ## Registration -/

def connSendDevReg (pid : UInt32) (remoteDevName dummyDevName : Bytes) : DaemonM Int32 := do
  if !(← sys .malloc) then
    return -1
  if !(← sys (.connSend ⟨MSGT_CONTROL_REG_SERVER, remoteDevName ++ [0]⟩)) then
    return -1
  match ← sys .connRecv with
  | none => return -1
  | some ndhead =>
      -- the size of the reply is not checked
      let rvalue := asInt (← readBuf ndhead.payload (sizeof Int32))
      if rvalue ≠ NETDEV_PROTOCOL_SUCCESS then
        return -1
      else if (← netlinkRegDummyDev pid dummyDevName) = -1 then
        return -1
      else
        return 0

/-- The reply keeps the size of the request it answers. -/
def connRecvDevReg (pid : UInt32) : DaemonM Int32 := do
  match ← sys .connRecv with
  | none => crash
  | some ndhead =>
      if ndhead.msgtype ≠ MSGT_CONTROL_REG_SERVER then
        return -1
      else if !(← sys .malloc) then
        return -1
      else if (← netlinkRegRemoteDev pid (← readString ndhead.payload)) = -1 then
        return -1
      else if !(← sys .malloc) then
        crash
      else
        let payload ← readBuf (toBytes NETDEV_PROTOCOL_SUCCESS) ndhead.size
        if !(← sys (.connSend ⟨ndhead.msgtype, payload⟩)) then
          return -1
        return 0

/-- The client's registration request. -/
def regMessage (remoteDevName : Bytes) : Message := ⟨MSGT_CONTROL_REG_SERVER, remoteDevName ++ [0]⟩

/-- The message with which the client registers its dummy device. -/
def dummyMessage (pid : UInt32) (dummyDevName : Bytes) : NlMessage :=
  controlMessage pid (dummyDevName ++ [0]) MSGT_CONTROL_REG_DUMMY NLM_F_REQUEST

/-- The message with which the server registers the remote device. -/
def serverMessage (pid : UInt32) (remoteDevName : Bytes) : NlMessage :=
  controlMessage pid (remoteDevName ++ [0]) MSGT_CONTROL_REG_SERVER NLM_F_REQUEST

section
variable {allowed : History → Event DaemonI → Prop}

/-- Before `conn_send_dev_reg` registers the dummy device. -/
inductive Requesting (reg : Message) (h : History) : History → Prop where
  | start : Requesting reg h h
  | sent (ok : Bool) : Requesting reg h (h ++ [⟨.connSend reg, ok⟩])
  | answered (answer : Option Message) :
      Requesting reg h (h ++ [⟨.connSend reg, true⟩] ++ [⟨.connRecv, answer⟩])

/-- `conn_send_dev_reg` at any point. An answer that is at least an `int` was read
as success before the dummy device is registered. -/
inductive SendingDevReg (allowed : History → Event DaemonI → Prop) (reg : Message)
    (dummy : NlMessage) (h : History) : History → Prop where
  | requesting {h' : History} : Requesting reg h h' → SendingDevReg allowed reg dummy h h'
  | registering {h' : History} (m : Message) :
      (sizeof Int32 ≤ m.size → asInt m.payload = NETDEV_PROTOCOL_SUCCESS) →
      Confirming dummy (h ++ [⟨.connSend reg, true⟩] ++ [⟨.connRecv, some m⟩]) h' →
      SendingDevReg allowed reg dummy h h'
  | registered {h' : History} {rvalue : Int32} (m : Message) :
      (sizeof Int32 ≤ m.size → asInt m.payload = NETDEV_PROTOCOL_SUCCESS) →
      Confirmed allowed dummy (h ++ [⟨.connSend reg, true⟩] ++ [⟨.connRecv, some m⟩]) rvalue h' →
      SendingDevReg allowed reg dummy h h'

theorem connSendDevReg_spec (pid : UInt32) (remoteDevName dummyDevName : Bytes) (h : History) :
    wp (recording allowed)
      (SendingDevReg allowed (regMessage remoteDevName) (dummyMessage pid dummyDevName) h)
      (fun _ => SendingDevReg allowed (regMessage remoteDevName) (dummyMessage pid dummyDevName) h)
      (connSendDevReg pid remoteDevName dummyDevName) h := by
  have hreq {h₀ h' : History} (hr : Requesting (regMessage remoteDevName) h₀ h') :
      SendingDevReg allowed (regMessage remoteDevName) (dummyMessage pid dummyDevName) h₀ h' :=
    .requesting hr
  refine ⟨hreq .start, ?_⟩
  rintro (_ | _) _ ⟨-, rfl⟩
  · exact hreq .start
  refine ⟨hreq .start, ?_⟩
  rintro (_ | _) _ ⟨-, rfl⟩
  · exact hreq (.sent false)
  refine ⟨hreq (.sent true), ?_⟩
  rintro (_ | m) _ ⟨-, rfl⟩
  · exact hreq (.answered none)
  change wp _ _ _ (readBuf m.payload (sizeof Int32) >>= _) _
  refine wp_bind ((readBuf_spec _ _ _).mono ?_ ?_)
  · rintro _ rfl
    exact hreq (.answered (some m))
  rintro buf _ ⟨rfl, hbuf⟩
  by_cases hfail : asInt buf ≠ NETDEV_PROTOCOL_SUCCESS
  · rw [if_pos hfail]
    exact hreq (.answered (some m))
  rw [if_neg hfail]
  have hval : sizeof Int32 ≤ m.size → asInt m.payload = NETDEV_PROTOCOL_SUCCESS := by
    intro hlen
    rw [← asInt_take, ← hbuf hlen]
    exact not_not.mp hfail
  refine wp_bind ((netlinkSendMsg_spec pid _ _ _ _).mono ?_ ?_)
  · intro h' hconf
    exact .registering m hval hconf
  intro rvalue h' hconf
  split
  · exact SendingDevReg.registered m hval hconf
  · exact SendingDevReg.registered m hval hconf

/-- `conn_recv_dev_reg` at any point. It answers only after the kernel has
confirmed the device. -/
inductive ReceivingDevReg (allowed : History → Event DaemonI → Prop) (pid : UInt32) (h : History) :
    History → Prop where
  | start : ReceivingDevReg allowed pid h h
  | received (answer : Option Message) : ReceivingDevReg allowed pid h (h ++ [⟨.connRecv, answer⟩])
  | registering {h' : History} (m : Message) (name : Bytes) :
      Confirming (serverMessage pid name) (h ++ [⟨.connRecv, some m⟩]) h' →
      ReceivingDevReg allowed pid h h'
  | refused {h' : History} (m : Message) (name : Bytes) :
      Confirmed allowed (serverMessage pid name) (h ++ [⟨.connRecv, some m⟩]) (-1) h' →
      ReceivingDevReg allowed pid h h'
  | registered {h' : History} (m : Message) (name : Bytes) :
      Confirmed allowed (serverMessage pid name) (h ++ [⟨.connRecv, some m⟩]) 0 h' →
      ReceivingDevReg allowed pid h h'
  | answered {h' : History} (m : Message) (name : Bytes) (reply : Message) (ok : Bool) :
      Confirmed allowed (serverMessage pid name) (h ++ [⟨.connRecv, some m⟩]) 0 h' →
      ReceivingDevReg allowed pid h (h' ++ [⟨.connSend reply, ok⟩])

theorem connRecvDevReg_spec (pid : UInt32) (h : History) :
    wp (recording allowed) (ReceivingDevReg allowed pid h)
      (fun _ => ReceivingDevReg allowed pid h) (connRecvDevReg pid) h := by
  refine ⟨.start, ?_⟩
  rintro (_ | m) _ ⟨-, rfl⟩
  · exact wp_segv (.received none)
  simp only [Prog.bind]
  by_cases htype : m.msgtype ≠ MSGT_CONTROL_REG_SERVER
  · rw [if_pos htype]
    exact ReceivingDevReg.received (some m)
  rw [if_neg htype]
  refine ⟨ReceivingDevReg.received (some m), ?_⟩
  rintro (_ | _) _ ⟨-, rfl⟩
  · exact ReceivingDevReg.received (some m)
  change wp _ _ _ (readString m.payload >>= _) _
  refine wp_bind ((readString_spec _ _).mono ?_ ?_)
  · rintro _ rfl
    exact ReceivingDevReg.received (some m)
  rintro name _ rfl
  refine wp_bind ((netlinkSendMsg_spec pid _ _ _ _).mono ?_ ?_)
  · intro h' hconf
    exact .registering m name hconf
  intro rvalue h' hconf
  split
  · rename_i hfail
    subst hfail
    exact ReceivingDevReg.refused m name hconf
  rename_i hok
  have hconf : Confirmed allowed (serverMessage pid name) (h ++ [⟨.connRecv, some m⟩]) 0 h' := by
    cases hconf with
    | unsent => exact absurd rfl hok
    | failed => exact absurd rfl hok
    | ok verdict answer ha ht he => exact .ok verdict answer ha ht he
  refine ⟨ReceivingDevReg.registered m name hconf, ?_⟩
  rintro (_ | _) _ ⟨-, rfl⟩
  · exact wp_segv (.registered m name hconf)
  change wp _ _ _ (readBuf (toBytes NETDEV_PROTOCOL_SUCCESS) m.size >>= _) _
  refine wp_bind ((readBuf_spec _ _ _).mono ?_ ?_)
  · rintro _ rfl
    exact ReceivingDevReg.registered m name hconf
  rintro payload _ ⟨rfl, -⟩
  refine ⟨ReceivingDevReg.registered m name hconf, ?_⟩
  rintro (_ | _) _ ⟨-, rfl⟩
  · exact ReceivingDevReg.answered m name _ false hconf
  · exact ReceivingDevReg.answered m name _ true hconf

end

/-! ## The proxies -/

/-- `proxy_client` up to `proxy_loop`; `true` when the loop is reached. -/
def proxyClient (version : Int32) (pid : UInt32) (remoteDevName dummyDevName : Bytes) :
    DaemonM Bool := do
  if !(← sys .socketpair) then
    return false
  if (← netlinkSetup) = -1 then
    return false
  if (← connServer version) = -1 then
    return false
  if (← connSendDevReg pid remoteDevName dummyDevName) = -1 then
    return false
  return true

/-- `proxy_server` up to `proxy_loop`. -/
def proxyServer (version : Int32) (pid : UInt32) : DaemonM Bool := do
  -- `proxy_alloc_dev`; without an address `getpeername` fails
  if !(← sys .malloc) then
    return false
  let _ ← sys .malloc
  if !(← sys .getpeername) then
    return false
  if !(← sys .socketpair) then
    return false
  if (← netlinkSetup) = -1 then
    return false
  if (← connClient version) = -1 then
    return false
  if (← connRecvDevReg pid) = -1 then
    return false
  return true

end Netdev.Daemon
