-- SUMMARY: One client proxy and one server proxy, interleaved: the client registers its dummy device only after the server's kernel has confirmed the remote one.
import Netdev.Base.System
import Netdev.Daemon.Handshake

/-!
# Registration agreement

Both proxies run up to their `proxy_loop`, each against its own kernel, over a
stream that delivers whole frames in order. Every step of either side may fail.
What ties the sides together is only that a side receives a prefix of what the
other one sent, and that an acknowledgement is read in the order in which the
kernel queued it.
-/

namespace Netdev.Daemon
open Base Prog

/-! ## What the environment may answer -/

/-- The acknowledgements the kernel queued for the daemon. -/
def acksQueued (h : History) : List NlMessage :=
  (nlSent h).filterMap fun p => p.2.map p.1.ack

def acksRead (h : History) : List NlMessage := (nlReceived h).filter (·.msgtype = NLMSG_ERROR)

/-- An acknowledgement that is read is the next one that was queued. Messages of
other types may come at any time. -/
def netlinkAllowed (h : History) : Event DaemonI → Prop
  | ⟨.nlRecv, some m⟩ => m.msgtype = NLMSG_ERROR → acksRead h ++ [m] <+: acksQueued h
  | _ => True

/-- A message that is received is the next one that the peer sent. -/
def streamAllowed (peer h : History) : Event DaemonI → Prop
  | ⟨.connRecv, some m⟩ => received h ++ [m] <+: sent peer
  | _ => True

/-! ## The two proxies -/

/-- A version that a side may be built with. -/
def ProtocolVersion := { v : Int32 // 1 ≤ v.toInt ∧ v.toInt ≤ 65535 }

/-- A C string without its terminating null. -/
def DeviceName := { name : Bytes // 0 ∉ name }

structure Session where
  clientVersion : ProtocolVersion
  serverVersion : ProtocolVersion
  clientPid : UInt32
  serverPid : UInt32
  remoteDevName : DeviceName
  dummyDevName : DeviceName

inductive Side where
  | client
  | server
  deriving DecidableEq

namespace Session

/-- Where each side is, and the messages it has exchanged so far. -/
structure State where
  clientAt : DaemonM Bool
  serverAt : DaemonM Bool
  client : History
  server : History

def clientProxy (x : Session) : DaemonM Bool :=
  proxyClient x.clientVersion.val x.clientPid x.remoteDevName.val x.dummyDevName.val

def serverProxy (x : Session) : DaemonM Bool := proxyServer x.serverVersion.val x.serverPid

inductive Step : State → Side × Event DaemonI → State → Prop where
  | client {s : State} {op : DaemonOp} {k : op.Res → DaemonM Bool} (r : op.Res) :
      s.clientAt = .call op k → netlinkAllowed s.client ⟨op, r⟩ →
      streamAllowed s.server s.client ⟨op, r⟩ →
      Step s (.client, ⟨op, r⟩) { s with clientAt := k r, client := record s.client ⟨op, r⟩ }
  | server {s : State} {op : DaemonOp} {k : op.Res → DaemonM Bool} (r : op.Res) :
      s.serverAt = .call op k → netlinkAllowed s.server ⟨op, r⟩ →
      streamAllowed s.client s.server ⟨op, r⟩ →
      Step s (.server, ⟨op, r⟩) { s with serverAt := k r, server := record s.server ⟨op, r⟩ }

def system (x : Session) : System State (Side × Event DaemonI) where
  init s := s = ⟨x.clientProxy, x.serverProxy, [], []⟩
  step := Step

end Session

/-- The client has sent `MSGT_CONTROL_REG_DUMMY` to its kernel. -/
def DummySent (h : History) : Prop := ∃ p ∈ nlSent h, p.1.msgtype = MSGT_CONTROL_REG_DUMMY

/-- The server's kernel has accepted `MSGT_CONTROL_REG_SERVER` and acknowledged it
with error 0. -/
def ServerAccepted (h : History) : Prop :=
  ∃ p ∈ nlSent h, p.1.msgtype = MSGT_CONTROL_REG_SERVER ∧ p.2 = some 0

/-! ## The client -/

/-- A client that has sent something to its kernel has received two messages; or it
could not send its version, and has received one which it took as success. -/
inductive ClientTalk (name : Bytes) (h : History) : Prop where
  | early : nlSent h = [] → ClientTalk name h
  | second (m₁ m₂ : Message) : received h = [m₁, m₂] → ClientTalk name h
  | first (m : Message) : received h = [m] → sent h = [regMessage name] →
      (sizeof Int32 ≤ m.size → asInt m.payload = NETDEV_PROTOCOL_SUCCESS) → ClientTalk name h

theorem Connecting.talk {version : Int32} {name : Bytes} {h : History}
    (hc : Connecting version [] h) : ClientTalk name h := by
  cases hc with
  | start => exact .early rfl
  | sent => exact .early rfl
  | lost => exact .early rfl

theorem Connected.talk {version rvalue : Int32} {name : Bytes} {h : History}
    (hc : Connected version [] rvalue h) : ClientTalk name h := by
  cases hc with
  | early => exact .early rfl
  | unsent => exact .early rfl
  | answered m => exact .early rfl

/-- What is received and sent does not change while the kernel is asked. -/
theorem messages_of_confirming {nlh : NlMessage} {h h' : History} (hc : Confirming nlh h h') :
    received h' = received h ∧ sent h' = sent h := by
  cases hc with
  | start => exact ⟨rfl, rfl⟩
  | sent verdict => simp [received, sent, receivedOf, sentOf]

theorem messages_of_confirmed {allowed : History → Event DaemonI → Prop} {nlh : NlMessage}
    {rvalue : Int32} {h h' : History} (hc : Confirmed allowed nlh h rvalue h') :
    received h' = received h ∧ sent h' = sent h := by
  cases hc with
  | unsent => exact ⟨rfl, rfl⟩
  | failed verdict answer => simp [received, sent, receivedOf, sentOf]
  | ok verdict answer => simp [received, sent, receivedOf, sentOf]

theorem SendingDevReg.talk {allowed : History → Event DaemonI → Prop} {version rvalue : Int32}
    {name : Bytes} {dummy : NlMessage} {h h' : History} (hc : Connected version [] rvalue h)
    (hgo : rvalue ≠ -1) (hs : SendingDevReg allowed (regMessage name) dummy h h') :
    ClientTalk name h' := by
  cases hc with
  | early => exact absurd rfl hgo
  | unsent =>
      cases hs with
      | requesting hreq =>
          cases hreq with
          | start => exact .early rfl
          | sent ok => exact .early rfl
          | answered answer => exact .early rfl
      | registering m hval hconf =>
          obtain ⟨hr, hs⟩ := messages_of_confirming hconf
          exact .first m hr hs hval
      | registered m hval hconf =>
          obtain ⟨hr, hs⟩ := messages_of_confirmed hconf
          exact .first m hr hs hval
  | answered m₁ =>
      cases hs with
      | requesting hreq =>
          cases hreq with
          | start => exact .early rfl
          | sent ok => exact .early rfl
          | answered answer => exact .early rfl
      | registering m hval hconf => exact .second m₁ m (messages_of_confirming hconf).1
      | registered m hval hconf => exact .second m₁ m (messages_of_confirmed hconf).1

theorem proxyClient_spec {allowed : History → Event DaemonI → Prop} (version : Int32)
    (pid : UInt32) (name dummyName : Bytes) :
    wp (recording allowed) (ClientTalk name) (fun _ => ClientTalk name)
      (proxyClient version pid name dummyName) [] := by
  refine ⟨.early rfl, ?_⟩
  rintro (_ | _) _ ⟨-, rfl⟩
  · exact ClientTalk.early rfl
  change wp _ _ _ (netlinkSetup >>= _) _
  refine wp_bind ((netlinkSetup_spec _).mono ?_ ?_)
  · rintro _ rfl
    exact ClientTalk.early rfl
  rintro rvalue _ rfl
  split
  · exact ClientTalk.early rfl
  change wp _ _ _ (connServer version >>= _) _
  refine wp_bind ((connServer_spec version _).mono (fun _ hc => hc.talk) ?_)
  intro rvalue h hc
  split
  · exact hc.talk
  rename_i hgo
  change wp _ _ _ (connSendDevReg pid name dummyName >>= _) _
  refine wp_bind ((connSendDevReg_spec pid name dummyName h).mono (fun _ hs => hs.talk hc hgo) ?_)
  intro rvalue h' hs
  split
  · exact hs.talk hc hgo
  · exact hs.talk hc hgo

/-! ## The server -/

/-- The message that `conn_client` sends in reply to `m`. -/
def replyMessage (version : Int32) (m : Message) : Message :=
  ⟨m.msgtype, toBytes (versionReply version m)⟩

/-- A server has sent nothing, or its answer to the first message it received, or
that and one more message after its kernel has confirmed the device. -/
inductive ServerTalk (version : Int32) (h : History) : Prop where
  | silent : sent h = [] → ServerTalk version h
  | answered (m : Message) : m.size = sizeof Int32 → [m] <+: received h →
      sent h = [replyMessage version m] → ServerTalk version h
  | registered (m m' : Message) : m.size = sizeof Int32 → [m] <+: received h →
      sent h = [replyMessage version m, m'] → ServerAccepted h → ServerTalk version h

theorem serverMessage_msgtype (pid : UInt32) (name : Bytes) :
    (serverMessage pid name).msgtype = MSGT_CONTROL_REG_SERVER :=
  NlMessage.build_msgtype (by decide) (by decide) pid _ _

/-- An acknowledgement without error is the kernel's answer to this message. -/
theorem accepted_of_confirmed {nlh : NlMessage} {h h' : History} (hs : nlSent h = [])
    (hr : nlReceived h = []) (hc : Confirmed netlinkAllowed nlh h 0 h') :
    (nlh, some 0) ∈ nlSent h' := by
  generalize hzero : (0 : Int32) = rvalue at hc
  cases hc with
  | unsent => exact absurd hzero (by decide)
  | failed => exact absurd hzero (by decide)
  | ok verdict answer hallowed htype herror =>
      have hack := hallowed htype
      have hread : acksRead (h ++ [⟨.nlSend nlh, verdict⟩]) = [] := by
        rw [acksRead, nlReceived_snoc, hr]
        rfl
      have hqueued : acksQueued (h ++ [⟨.nlSend nlh, verdict⟩]) = (verdict.map nlh.ack).toList := by
        rw [acksQueued, nlSent_snoc, hs]
        cases verdict <;> rfl
      rw [hread, hqueued] at hack
      have hsent : (nlh, verdict) ∈ nlSent (h ++ [⟨.nlSend nlh, verdict⟩] ++
          [⟨.nlRecv, some answer⟩]) := by
        rw [nlSent_snoc, nlSent_snoc, hs]
        exact List.mem_singleton_self _
      cases verdict with
      | none => exact absurd hack.length_le (Nat.not_succ_le_zero 0)
      | some err =>
          have heq : answer = nlh.ack err := by
            simpa using hack
          have herr : err = 0 := by
            rw [← herror, heq, NlMessage.ack_error]
          subst herr
          exact hsent

theorem serverTalk_of_receiving {version : Int32} {pid : UInt32} {m : Message} {h : History}
    (hsize : m.size = sizeof Int32)
    (hs : ReceivingDevReg netlinkAllowed pid
      ([⟨.connRecv, some m⟩] ++ [⟨.connSend (replyMessage version m), true⟩]) h) :
    ServerTalk version h := by
  have hanswered {h : History} (hr : [m] <+: received h) (hs : sent h = [replyMessage version m]) :
      ServerTalk version h := .answered m hsize hr hs
  cases hs with
  | start => exact hanswered List.prefix_rfl rfl
  | received answer => exact hanswered (List.prefix_append [m] _) rfl
  | registering m' name hconf =>
      obtain ⟨hr, hs⟩ := messages_of_confirming hconf
      exact hanswered (hr ▸ List.prefix_append [m] [m']) hs
  | refused m' name hconf =>
      obtain ⟨hr, hs⟩ := messages_of_confirmed hconf
      exact hanswered (hr ▸ List.prefix_append [m] [m']) hs
  | registered m' name hconf =>
      obtain ⟨hr, hs⟩ := messages_of_confirmed hconf
      exact hanswered (hr ▸ List.prefix_append [m] [m']) hs
  | @answered h' m' name reply ok hconf =>
      obtain ⟨hr, hs⟩ := messages_of_confirmed hconf
      have hacc := accepted_of_confirmed rfl rfl hconf
      have hrec : [m] <+: received (h' ++ [⟨.connSend reply, ok⟩]) := by
        rw [received_snoc, hr]
        exact List.prefix_append [m] [m']
      cases ok with
      | false =>
          refine hanswered hrec ?_
          rw [sent_snoc, hs]
          rfl
      | true =>
          refine .registered m reply hsize hrec ?_
            ⟨(serverMessage pid name, some 0), ?_, serverMessage_msgtype pid name, rfl⟩
          · rw [sent_snoc, hs]
            rfl
          · rw [nlSent_snoc]
            exact List.mem_append_left _ hacc

theorem proxyServer_spec (version : Int32) (pid : UInt32) :
    wp (recording netlinkAllowed) (ServerTalk version) (fun _ => ServerTalk version)
      (proxyServer version pid) [] := by
  have hquiet : ServerTalk version [] := .silent rfl
  refine ⟨hquiet, ?_⟩
  rintro (_ | _) _ ⟨-, rfl⟩
  · exact hquiet
  refine ⟨hquiet, ?_⟩
  rintro addr _ ⟨-, rfl⟩
  refine ⟨hquiet, ?_⟩
  rintro (_ | _) _ ⟨-, rfl⟩
  · exact hquiet
  refine ⟨hquiet, ?_⟩
  rintro (_ | _) _ ⟨-, rfl⟩
  · exact hquiet
  change wp _ _ _ (netlinkSetup >>= _) _
  refine wp_bind ((netlinkSetup_spec _).mono ?_ ?_)
  · rintro _ rfl
    exact hquiet
  rintro rvalue _ rfl
  split
  · exact hquiet
  change wp _ _ _ (connClient version >>= _) _
  refine wp_bind ((connClient_spec version _).mono ?_ ?_)
  · intro h hc
    cases hc with
    | start => exact hquiet
    | received answer => exact .silent rfl
  intro rvalue h hc
  cases hc with
  | refused m => exact ServerTalk.silent rfl
  | unsent m reply => exact ServerTalk.silent rfl
  | answered m hsize =>
      split
      · exact ServerTalk.answered m hsize List.prefix_rfl rfl
      change wp _ _ _ (connRecvDevReg pid >>= _) _
      refine wp_bind ((connRecvDevReg_spec pid _).mono (fun _ hs => serverTalk_of_receiving hsize hs) ?_)
      intro rvalue h' hs
      split
      · exact serverTalk_of_receiving hsize hs
      · exact serverTalk_of_receiving hsize hs

/-! ## Names that look like versions -/

/-- The third byte of a version is 0. -/
theorem ProtocolVersion.zero_mem (v : ProtocolVersion) : 0 ∈ (toBytes v.val).take 3 := by
  have hlt : v.val.toUInt32.toNat < 65536 := by
    obtain ⟨hlow, hhigh⟩ := v.property
    change v.val.toBitVec.toNat < 65536
    rw [← Int32.toInt_toBitVec, BitVec.toInt_eq_toNat_cond] at hlow hhigh
    split at hhigh <;> omega
  have hbytes : toBytes v.val = leBytes 4 v.val.toUInt32.toNat := rfl
  have hthird : v.val.toUInt32.toNat / 256 / 256 = 0 := by omega
  simp [hbytes, leBytes, hthird]

/-- A registration request of four bytes is not taken for a version. -/
theorem asInt_regMessage_ne (name : DeviceName) (v : ProtocolVersion)
    (hsize : (regMessage name.val).size = sizeof Int32) :
    asInt (regMessage name.val).payload ≠ v.val := by
  intro heq
  have hlen : (name.val ++ [0]).length = sizeof Int32 := hsize
  have hname : name.val.length = 3 := by
    have hfour : sizeof Int32 = 4 := rfl
    rw [List.length_append, hfour] at hlen
    exact Nat.succ.inj hlen
  have hbytes : toBytes v.val = name.val ++ [0] := by
    rw [← heq, regMessage, asInt, ← hlen, List.take_length]
    exact Layout.toBytes_ofBytes _ hlen
  have hzero := v.zero_mem
  rw [hbytes, List.take_left' hname] at hzero
  exact name.property hzero

/-- The server's answer to a registration request is not the client's success. -/
theorem asInt_reply_regMessage (name : DeviceName) (v : ProtocolVersion)
    (hsize : (regMessage name.val).size = sizeof Int32) :
    asInt (replyMessage v.val (regMessage name.val)).payload ≠ NETDEV_PROTOCOL_SUCCESS := by
  rw [replyMessage, asInt_toBytes, versionReply, if_pos (asInt_regMessage_ne name v hsize)]
  intro hzero
  have hpos := v.property.1
  rw [hzero] at hpos
  exact absurd hpos (by decide)

/-! ## Runs -/

namespace Session

/-- Each side is at a point of its own program, and has received a prefix of what
the other side sent. -/
structure Inv (x : Session) (s : State) : Prop where
  client : Reaches (recording netlinkAllowed) x.clientProxy [] s.clientAt s.client
  server : Reaches (recording netlinkAllowed) x.serverProxy [] s.serverAt s.server
  toClient : received s.client <+: sent s.server
  toServer : received s.server <+: sent s.client

theorem received_follows {peer h : History} {e : Event DaemonI} (hpre : received h <+: sent peer)
    (hallowed : streamAllowed peer h e) : received (record h e) <+: sent peer := by
  rw [received_record]
  rcases e with ⟨op, r⟩
  cases op with
  | connRecv =>
      cases r with
      | none => exact (List.append_nil _).symm ▸ hpre
      | some m => exact hallowed
  | _ => exact (List.append_nil _).symm ▸ hpre

theorem sent_grows (h : History) (e : Event DaemonI) : sent h <+: sent (record h e) := by
  rw [sent_record]
  exact List.prefix_append _ _

theorem system_invariant (x : Session) : x.system.Invariant (Inv x) where
  init := by
    rintro s rfl
    exact ⟨.start, .start, List.prefix_rfl, List.prefix_rfl⟩
  step := by
    intro s l s' hinv hstep
    cases hstep with
    | client r hat hnl hstream =>
        have hreach := hinv.client
        rw [hat] at hreach
        exact ⟨.step hreach ⟨hnl, rfl⟩, hinv.server, received_follows hinv.toClient hstream,
          hinv.toServer.trans (sent_grows _ _)⟩
    | server r hat hnl hstream =>
        have hreach := hinv.server
        rw [hat] at hreach
        exact ⟨hinv.client, .step hreach ⟨hnl, rfl⟩, hinv.toClient.trans (sent_grows _ _),
          received_follows hinv.toServer hstream⟩

theorem Inv.clientTalk {x : Session} {s : State} (h : Inv x s) :
    ClientTalk x.remoteDevName.val s.client :=
  h.client.always (proxyClient_spec _ _ _ _)

theorem Inv.serverTalk {x : Session} {s : State} (h : Inv x s) :
    ServerTalk x.serverVersion.val s.server :=
  h.server.always (proxyServer_spec _ _)

end Session

/-- In every run of the two proxies, when the client has sent
`MSGT_CONTROL_REG_DUMMY` to its kernel, the server's kernel has already accepted
`MSGT_CONTROL_REG_SERVER`. -/
theorem registrationAgreement (x : Session) {ls : List (Side × Event DaemonI)} {s : Session.State}
    (hrun : x.system.Run ls s) (hsent : DummySent s.client) : ServerAccepted s.server := by
  have hinv := hrun.invariant x.system_invariant
  cases hinv.clientTalk with
  | early hnone =>
      obtain ⟨p, hp, -⟩ := hsent
      rw [hnone] at hp
      cases hp
  | second m₁ m₂ hrec =>
      -- The server's second message follows the confirmation of its kernel.
      have hpre := hinv.toClient
      rw [hrec] at hpre
      cases hinv.serverTalk with
      | silent hs =>
          rw [hs] at hpre
          exact absurd hpre.length_le (Nat.not_succ_le_zero 1)
      | answered m _ _ hs =>
          rw [hs] at hpre
          exact absurd hpre.length_le (Nat.not_succ_le_self 1)
      | registered m m' _ _ _ hacc => exact hacc
  | first m hrec hreg hval =>
      -- The server's first message would be its answer to the name.
      have hpre := hinv.toClient
      rw [hrec] at hpre
      have hback := hinv.toServer
      rw [hreg] at hback
      have hfirst {m₀ : Message} {rest : List Message} (hsize : m₀.size = sizeof Int32)
          (hm₀ : [m₀] <+: received s.server)
          (hs : sent s.server = replyMessage x.serverVersion.val m₀ :: rest) : False := by
        have hname : m₀ = regMessage x.remoteDevName.val := by
          simpa using hm₀.trans hback
        have hm : m = replyMessage x.serverVersion.val m₀ := by
          rw [hs] at hpre
          simpa using hpre
        subst hm hname
        exact asInt_reply_regMessage _ _ hsize (hval (Layout.length_toBytes _).ge)
      cases hinv.serverTalk with
      | silent hs =>
          rw [hs] at hpre
          exact absurd hpre.length_le (Nat.not_succ_le_zero 0)
      | answered m₀ hsize hm₀ hs => exact absurd hs (hfirst hsize hm₀)
      | registered m₀ m' hsize hm₀ hs _ => exact (hfirst hsize hm₀ hs).elim

/-! ## A run in which every step succeeds -/

/-- The next operation that carries a message, when all system calls before it
succeed. -/
def nextMessage {α : Type} : DaemonM α → DaemonM α
  | .call .malloc k => nextMessage (k true)
  | .call .socket k => nextMessage (k true)
  | .call .bind k => nextMessage (k true)
  | .call .connect k => nextMessage (k true)
  | .call .socketpair k => nextMessage (k true)
  | .call .getpeername k => nextMessage (k true)
  | p => p

namespace Session
variable {x : Session} {s : State} {op : DaemonOp} {k : op.Res → DaemonM Bool}

def Reachable (x : Session) (s : State) : Prop := ∃ ls, x.system.Run ls s

theorem Reachable.client (h : x.Reachable s) (hat : s.clientAt = .call op k) (r : op.Res)
    (hnl : netlinkAllowed s.client ⟨op, r⟩) (hstream : streamAllowed s.server s.client ⟨op, r⟩) :
    x.Reachable { s with clientAt := k r, client := record s.client ⟨op, r⟩ } := by
  obtain ⟨ls, hrun⟩ := h
  exact ⟨_, .step hrun (.client r hat hnl hstream)⟩

theorem Reachable.server (h : x.Reachable s) (hat : s.serverAt = .call op k) (r : op.Res)
    (hnl : netlinkAllowed s.server ⟨op, r⟩) (hstream : streamAllowed s.client s.server ⟨op, r⟩) :
    x.Reachable { s with serverAt := k r, server := record s.server ⟨op, r⟩ } := by
  obtain ⟨ls, hrun⟩ := h
  exact ⟨_, .step hrun (.server r hat hnl hstream)⟩

theorem Reachable.clientNext (h : x.Reachable s) :
    x.Reachable { s with clientAt := nextMessage s.clientAt } := by
  rcases s with ⟨p, q, hc, hs⟩
  induction p with
  | ret a => exact h
  | call op k ih =>
      cases op <;> first
        | exact ih true (Reachable.client h rfl true trivial trivial)
        | exact h

theorem Reachable.serverNext (h : x.Reachable s) :
    x.Reachable { s with serverAt := nextMessage s.serverAt } := by
  rcases s with ⟨q, p, hc, hs⟩
  induction p with
  | ret a => exact h
  | call op k ih =>
      cases op <;> first
        | exact ih true (Reachable.server h rfl true trivial trivial)
        | exact h

end Session

/-- Both sides have version 1; the remote device is called `nul`. -/
def sameVersion : Session where
  clientVersion := ⟨1, by decide⟩
  serverVersion := ⟨1, by decide⟩
  clientPid := 10
  serverPid := 20
  remoteDevName := ⟨[110, 117, 108], by decide⟩
  dummyDevName := ⟨[110, 117, 108], by decide⟩

theorem registrationAgreement_sameVersion : ∃ s, sameVersion.Reachable s ∧ DummySent s.client ∧
    ServerAccepted s.server := by
  let name : Bytes := [110, 117, 108]
  let success : Message := ⟨MSGT_CONTROL_REG_SERVER, toBytes NETDEV_PROTOCOL_SUCCESS⟩
  have h : sameVersion.Reachable _ := ⟨[], .init rfl⟩
  -- The versions are exchanged.
  have h := h.clientNext.client rfl true trivial trivial
  have h := h.serverNext.server rfl (some (versionMessage 1)) trivial List.prefix_rfl
  have h := h.serverNext.server rfl true trivial trivial
  have h := h.clientNext.client rfl (some (versionMessage 0)) trivial List.prefix_rfl
  -- The server registers the device.
  have h := h.clientNext.client rfl true trivial trivial
  have h := h.serverNext.server rfl (some (regMessage name)) trivial List.prefix_rfl
  have h := h.serverNext.server rfl (some 0) trivial trivial
  have h := h.serverNext.server rfl (some _) (fun _ => List.prefix_rfl) trivial
  have h := h.serverNext.server rfl true trivial trivial
  -- The client registers the dummy device.
  have h := h.clientNext.client rfl (some success) trivial List.prefix_rfl
  have h := h.clientNext.client rfl (some 0) trivial trivial
  obtain ⟨ls, hrun⟩ := h
  have hdummy : (dummyMessage 10 name).msgtype = MSGT_CONTROL_REG_DUMMY :=
    NlMessage.build_msgtype (by decide) (by decide) 10 _ _
  have hacc := registrationAgreement sameVersion hrun
  exact ⟨_, ⟨ls, hrun⟩, ⟨_, List.mem_singleton_self _, hdummy⟩,
    hacc ⟨_, List.mem_singleton_self _, hdummy⟩⟩

end Netdev.Daemon
