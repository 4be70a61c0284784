-- SUMMARY: Two proxies and the streams between them: every file operation of one kernel reaches the other once, unchanged and in order.
import Netdev.Daemon.NetlinkSocket

/-!
# The tunnel

The proxy of the client and the proxy of the server run `proxy_loop` on two machines,
each with the threads of its own kernel. A message that one of them gives to
`conn_send` waits on the stream until the other calls `conn_recv`.
-/

namespace Netdev.Daemon.Tunnel
open Base Prog Proxy

/-! ## The two machines -/

inductive Party where
  | client
  | server
  deriving DecidableEq

def Party.peer : Party → Party
  | .client => .server
  | .server => .client

@[simp] theorem Party.peer_peer (p : Party) : p.peer.peer = p := by cases p <;> rfl
@[simp] theorem Party.peer_ne (p : Party) : p.peer ≠ p := by cases p <;> exact nofun
@[simp] theorem Party.ne_peer (p : Party) : p ≠ p.peer := p.peer_ne.symm

theorem Party.eq_peer {p q : Party} (h : q ≠ p) : q = p.peer := by
  cases p <;> cases q <;> first | rfl | exact absurd rfl h

/-- What the two daemons were built with, and the pids they got. -/
structure Link where
  version : Int32
  pid : Party → UInt32
  pid_ne : ∀ p, pid p ≠ 0

/-- A proxy with its end of the streams: `inbound` is on its way to it, `received` are the
messages that `conn_recv` returned, `delivered` those that it gave to its kernel. -/
structure Side where
  proxy : Proxy.State
  inbound : List Message
  received : List Message
  delivered : List NlMessage

abbrev State := Party → Side

/-- The messages that an event takes off the stream and brings to the kernel. -/
def receivedBy : Event DaemonI → List Message
  | ⟨.connRecv, some m⟩ => [m]
  | _ => []

def deliveredBy : Event DaemonI → List NlMessage
  | ⟨.nlSend m, _⟩ => [m]
  | _ => []

/-- The message that an event gives to `conn_send`. -/
def passedBy : Event DaemonI → List Message
  | ⟨.connSend m, _⟩ => [m]
  | _ => []

/-- The step of the proxy that performs the event, on its own side. -/
def Side.after (side : Side) (e : Event DaemonI) (inbound : List Message) : Side :=
  { side with
    inbound
    received := side.received ++ receivedBy e
    delivered := side.delivered ++ deliveredBy e }

def Side.step (side : Side) (proxy : Proxy.State) : Side := { side with proxy }

/-- The state after the proxy `p` has performed the event. -/
def State.after (s : State) (p : Party) (e : Event DaemonI) (inbound : List Message)
    (proxy : Proxy.State) : State :=
  fun q =>
    if q = p then
      ((s p).after e inbound).step proxy
    else
      { s q with inbound := (s q).inbound ++ passedBy e }

/-- What `conn_recv` leaves of the messages on the stream. One that returns the next message has
taken it off; one that fails, or that puts a message together from pieces of others, may have
taken any part of them. -/
inductive Takes : List Message → Event DaemonI → List Message → Prop where
  | other {inbound : List Message} {e : Event DaemonI} (he : e.1 ≠ DaemonOp.connRecv) : Takes inbound e inbound
  | next {m : Message} {inbound : List Message} : Takes (m :: inbound) ⟨.connRecv, some m⟩ inbound
  | torn {inbound inbound' : List Message} {r : Option Message} (hr : r = none ∨ r ≠ inbound.head?) :
      Takes inbound ⟨.connRecv, r⟩ inbound'

/-- One of the proxies takes a step. -/
inductive Step (link : Link) : State → Party × Proxy.Label → State → Prop where
  | op {s : State} {p : Party} {e : Event DaemonI} {env : Kernel.RecvEnv} {inbound : List Message}
      {proxy : Proxy.State} :
      Proxy.Step link.version (link.pid p) (s p).proxy (.op e env) proxy →
      Takes (s p).inbound e inbound →
      Step link s (p, .op e env) (s.after p e inbound proxy)
  | quiet {s : State} {p : Party} {l : Proxy.Label} {proxy : Proxy.State} :
      Proxy.Step link.version (link.pid p) (s p).proxy l proxy →
      (∀ e env, l ≠ .op e env) →
      Step link s (p, l) (Function.update s p ((s p).step proxy))

def system (link : Link) : System State (Party × Proxy.Label) where
  init s := ∀ p, s p = ⟨⟨.empty, .loop⟩, [], [], []⟩
  step := Step link

/-! ## Smooth runs -/

/-- A file operation as `netlink_send` and `netlink_send_skb` put it on the socket. -/
structure Carried (m : NlMessage) : Prop where
  isFo : IsFo m
  header : sizeof Nlmsghdr ≤ m.header.nlmsgLen.toNat
  ack : m.header.nlmsgFlags &&& NLM_F_ACK ≠ 0

/-- The condition on an event: the socket is empty when the daemon sends, and the kernel finds
the device and can start a thread for it; `conn_recv` returns the next message; and
`netlink_recv`, `conn_send` and `malloc` succeed. -/
def SmoothEvent (inbound : List Message) (w : Wire) (env : Kernel.RecvEnv) : Event DaemonI → Prop
  | ⟨.nlSend _, _⟩ => w.queue = [] ∧ env.found = true ∧ env.thread = 0
  | ⟨.nlRecv, r⟩ => r ≠ none
  | ⟨.connRecv, r⟩ => r ≠ none ∧ r = inbound.head?
  | ⟨.connSend _, ok⟩ => ok = true
  | ⟨.malloc, ok⟩ => ok = true
  | _ => True

def Smooth (s : State) : Party × Proxy.Label → Prop
  | (_, .queue m) => Carried m.val
  | (p, .op e env) => SmoothEvent (s p).inbound (s p).proxy.wire env e
  | _ => True

theorem Takes.eq_append {inbound inbound' : List Message} {e : Event DaemonI} {w : Wire} {env : Kernel.RecvEnv}
    (h : Takes inbound e inbound') (hsmooth : SmoothEvent inbound w env e) : inbound = receivedBy e ++ inbound' := by
  cases h with
  | other he =>
      obtain ⟨op, r⟩ := e
      cases op with
      | connRecv => exact absurd rfl he
      | _ => rfl
  | next => rfl
  | torn hr => exact absurd hsmooth (fun ⟨hsome, hnext⟩ => hr.elim hsome (fun hne => hne hnext))

/-! ## What is passed on -/

/-- The message that `proxy_handle_remote` makes of a frame. -/
def toKernel (pid : UInt32) (m : Message) : NlMessage := (NlMessage.read m.payload).fromPid pid

/-- A file operation of the one kernel as it comes to the other. -/
def relayed (pid : UInt32) (m : NlMessage) : NlMessage := toKernel pid (frameOf m)

section
variable {m : NlMessage} {pid : UInt32}

/-- Its sender's pid is another, and its padding is gone. -/
theorem relayed_eq (h : sizeof Nlmsghdr ≤ m.header.nlmsgLen.toNat) : relayed pid m =
    ⟨{ m.header with nlmsgPid := pid }, m.payload.take (m.header.nlmsgLen.toNat - sizeof Nlmsghdr)⟩ := by
  have hkept : NlMessage.read (frameOf m).payload = NetlinkSocket.kept m := by
    rw [NetlinkSocket.kept, NetlinkSocket.trim, NetlinkSocket.nlmsgLen_bytes]
    rfl
  rw [relayed, toKernel, hkept, NetlinkSocket.kept_eq h]
  rfl

theorem Carried.payload_length (h : Carried m) : (frameOf m).payload.length = m.header.nlmsgLen.toNat := by
  rw [frameOf, List.length_take, Nat.min_eq_left h.isFo.length]

/-- `proxy_handle_remote` reads no more than the frame holds. -/
theorem Carried.asNlMessage (h : Carried m) : asNlMessage pid (frameOf m).payload = .ret (relayed pid m) := by
  have hlen := h.payload_length
  have hhead : readBuf (frameOf m).payload (sizeof Nlmsghdr)
      = .ret ((frameOf m).payload.take (sizeof Nlmsghdr)) := if_pos (h.header.trans hlen.ge)
  have hheader : (NlMessage.read (frameOf m).payload).header = m.header := by
    have htake : (frameOf m).payload.take (sizeof Nlmsghdr) = toBytes m.header := by
      rw [frameOf, List.take_take, Nat.min_eq_left h.header, NetlinkSocket.take_bytes]
    rw [NlMessage.read, htake, Layout.ofBytes_toBytes]
  have hbytes : (relayed pid m).bytes.length = m.header.nlmsgLen.toNat := by
    have hle := h.header
    rw [NlMessage.bytes, List.length_append, Layout.length_toBytes]
    change sizeof Nlmsghdr + ((frameOf m).payload.drop (sizeof Nlmsghdr)).length = _
    rw [List.length_drop, hlen]
    omega
  have hsent : readBuf (relayed pid m).bytes m.header.nlmsgLen.toNat = .ret (relayed pid m).bytes := by
    rw [readBuf, if_pos hbytes.ge, List.take_of_length_le hbytes.le]
    rfl
  unfold Daemon.asNlMessage
  simp only [hhead, ret_bind, List.take_append_drop, hheader, Nat.max_eq_right h.header]
  change (readBuf (relayed pid m).bytes m.header.nlmsgLen.toNat >>= _) = _
  simp only [hsent, ret_bind, NlMessage.read_bytes]
  rfl

/-- The kernel takes it and acknowledges it, and does nothing else with the socket. -/
theorem Carried.netlinkRecv (h : Carried m) (hpid : pid ≠ 0) {env : Kernel.RecvEnv} (hfound : env.found = true)
    (hthread : env.thread = 0) (version : Int32) :
    Kernel.netlinkRecv env version (relayed pid m) = some ⟨none, some 0, true⟩ := by
  have hheader : (relayed pid m).header = { m.header with nlmsgPid := pid } := by rw [relayed_eq h.header]
  have htype : (relayed pid m).msgtype = m.msgtype := by
    unfold NlMessage.msgtype
    rw [hheader]
  have hack : Kernel.netlinkAck (relayed pid m) 0 = some 0 := by
    unfold Kernel.netlinkAck
    rw [if_pos (.inr (by rw [hheader]; exact h.ack))]
  have hfo := h.isFo.msgtype
  have hctl : ¬ (MSGT_CONTROL_START ≤ m.msgtype ∧ m.msgtype < MSGT_CONTROL_END) := by
    intro hctl
    simp only [isFileOperation, Bool.and_eq_true, decide_eq_true_eq] at hfo
    have hlt : MSGT_CONTROL_END < MSGT_FO_START := by decide
    have h₁ := Int32.lt_iff_toInt_lt.mp hctl.2
    have h₂ := Int32.lt_iff_toInt_lt.mp hfo.1
    have h₃ := Int32.lt_iff_toInt_lt.mp hlt
    omega
  unfold Kernel.netlinkRecv
  rw [htype, hheader, if_neg hpid, if_neg hctl, if_pos hfo, hfound, hthread, hack]
  rfl

end

/-! ## What a handler does with the messages of the stream -/

/-- What `conn_recv` returned and what the kernel got. -/
abbrev Flow := List Message × List NlMessage

/-- A frame that holds a file operation. -/
def Whole (m : Message) : Prop := ∃ nlh, Carried nlh ∧ m = frameOf nlh

def flowEnv : Env DaemonI Flow := fun g e g' =>
  (∀ m ∈ receivedBy e, Whole m) ∧ g' = (g.1 ++ receivedBy e, g.2 ++ deliveredBy e)

/-- All but at most one of the messages received have been delivered, in order. -/
def InHand (pid : UInt32) (g : Flow) : Prop :=
  ∃ handling : List NlMessage, handling.length ≤ 1 ∧ g.2 ++ handling = g.1.map (toKernel pid)

def Settled (pid : UInt32) (g : Flow) : Prop := g.2 = g.1.map (toKernel pid)

/-- What is known of the flow while the proxy is in this phase. -/
def Relaying (pid : UInt32) (phase : Phase) (g : Flow) : Prop :=
  match phase with
  | .loop => Settled pid g
  | .netlink p _ => wp flowEnv (Settled pid) (fun _ => Settled pid) p g
  | .remote p => wp flowEnv (InHand pid) (fun _ => Settled pid) p g
  | .ended => Settled pid g

section
variable {pid : UInt32} {g : Flow} {phase : Phase}

theorem Settled.inHand (h : Settled pid g) : InHand pid g :=
  ⟨[], Nat.zero_le 1, (List.append_nil _).trans h⟩

/-- Most events leave the flow alone. -/
theorem flowEnv_quiet {e : Event DaemonI} {g' : Flow} (hreceived : receivedBy e = [])
    (hdelivered : deliveredBy e = []) (h : flowEnv g e g') : g' = g := by
  obtain ⟨-, rfl⟩ := h
  rw [hreceived, hdelivered, List.append_nil, List.append_nil]

theorem readBuf_relays {J : Flow → Prop} {Q : Int32 → Flow → Prop} {buf : Bytes} {n : Nat}
    {f : Bytes → DaemonM Int32} (hJ : J g) (hf : ∀ r, wp flowEnv J Q (f r) g) :
    wp flowEnv J Q (readBuf buf n >>= f) g := by
  unfold readBuf
  split
  · exact hf _
  · refine ⟨hJ, ?_⟩
    intro rest g' hflow
    obtain rfl := flowEnv_quiet rfl rfl hflow
    exact hf _

theorem proxyHandleNetlink_relays (h : Settled pid g) :
    wp flowEnv (Settled pid) (fun _ => Settled pid) proxyHandleNetlink g := by
  refine ⟨h, ?_⟩
  intro answer g' hflow
  obtain rfl := flowEnv_quiet rfl rfl hflow
  cases answer with
  | none => exact h
  | some m =>
      simp only [Prog.bind]
      split
      · refine ⟨h, ?_⟩
        intro ok g'' hflow
        obtain rfl := flowEnv_quiet rfl rfl hflow
        cases ok with
        | false => exact h
        | true =>
            refine readBuf_relays h fun payload => ⟨h, ?_⟩
            intro ok g' hflow
            obtain rfl := flowEnv_quiet rfl rfl hflow
            exact h
      · exact h

theorem netlinkSendNlh_relays {J : Flow → Prop} {nlh : NlMessage} (hJ : J g)
    (hsent : J (g.1, g.2 ++ [nlh.fromPid pid])) :
    wp flowEnv J (fun _ g' => g' = (g.1, g.2 ++ [nlh.fromPid pid])) (netlinkSendNlh pid nlh) g := by
  refine ⟨hJ, ?_⟩
  rintro verdict _ ⟨-, rfl⟩
  simp only [receivedBy, deliveredBy, List.append_nil]
  refine ⟨hsent, ?_⟩
  intro answer g' hflow
  obtain rfl := flowEnv_quiet rfl rfl hflow
  simp only [Prog.bind]
  cases answer with
  | none => exact rfl
  | some answer =>
      dsimp only
      split_ifs
      · exact rfl
      · exact rfl
      · exact rfl

theorem proxyHandleRemote_relays (h : Settled pid g) :
    wp flowEnv (InHand pid) (fun _ => Settled pid) (proxyHandleRemote pid) g := by
  refine ⟨h.inHand, ?_⟩
  intro ok g' hflow
  obtain rfl := flowEnv_quiet rfl rfl hflow
  cases ok with
  | false => exact h
  | true =>
      refine ⟨h.inHand, ?_⟩
      intro answer g'' hflow
      cases answer with
      | none =>
          obtain rfl := flowEnv_quiet rfl rfl hflow
          exact h
      | some m =>
          obtain ⟨hwhole, rfl⟩ := hflow
          obtain ⟨nlh, hcarried, rfl⟩ := hwhole m List.mem_cons_self
          have htype : isFileOperation (frameOf nlh).msgtype = true := hcarried.isFo.msgtype
          simp only [Prog.bind, receivedBy, deliveredBy, List.append_nil]
          rw [if_pos htype, hcarried.asNlMessage, ret_bind]
          -- the message is in hand until it is sent
          have hhand : InHand pid (g'.1 ++ [frameOf nlh], g'.2) :=
            ⟨[relayed pid nlh], le_rfl, by rw [List.map_append, ← h]; rfl⟩
          have hsent : Settled pid (g'.1 ++ [frameOf nlh], g'.2 ++ [relayed pid nlh]) := by
            rw [Settled, List.map_append, ← h]
            rfl
          refine wp_bind ((netlinkSendNlh_relays hhand hsent.inHand).mono (fun _ hj => hj) ?_)
          rintro rvalue _ rfl
          exact hsent

/-- In every phase, at most one message is in hand, and only while `proxy_handle_remote` runs. -/
theorem Relaying.settled (h : Relaying pid phase g) (hphase : ∀ p, phase ≠ .remote p) : Settled pid g := by
  cases phase with
  | loop => exact h
  | netlink p rm =>
      cases p with
      | ret a => exact h
      | call op k => exact h.1
  | remote p => exact absurd rfl (hphase p)
  | ended => exact h

theorem Relaying.inHand (h : Relaying pid phase g) : InHand pid g := by
  cases phase with
  | loop => exact Settled.inHand h
  | netlink p rm => exact Settled.inHand (h.settled nofun)
  | remote p =>
      cases p with
      | ret a => exact Settled.inHand h
      | call op k => exact h.1
  | ended => exact Settled.inHand h

end

/-! ## One step of a proxy -/

section
variable {version : Int32} {pid : UInt32} {g : Flow} {σ σ' : Proxy.State} {e : Event DaemonI}
  {env : Kernel.RecvEnv}

theorem serves_passed {handler : Handler} {w w' : Wire} (h : Serves version handler env w e w') :
    w'.passed = w.passed ++ passedBy e ∧ w'.queued = w.queued := by
  cases h with
  | nlRecv => cases handler <;> exact ⟨(List.append_nil _).symm, rfl⟩
  | connSend ok => exact ⟨rfl, rfl⟩
  | _ => exact ⟨(List.append_nil _).symm, rfl⟩

/-- An operation is one of the handler that runs. -/
theorem step_op (h : Proxy.Step version pid σ (.op e env) σ') :
    σ'.wire.passed = σ.wire.passed ++ passedBy e ∧ σ'.wire.queued = σ.wire.queued ∧
      (Relaying pid σ.phase g → (∀ m ∈ receivedBy e, Whole m) →
        Relaying pid σ'.phase (g.1 ++ receivedBy e, g.2 ++ deliveredBy e)) := by
  cases h with
  | netlink hserves =>
      obtain ⟨hpassed, hqueued⟩ := serves_passed hserves
      exact ⟨hpassed, hqueued, fun hrelaying hwhole => hrelaying.2 _ _ ⟨hwhole, rfl⟩⟩
  | remote hserves =>
      obtain ⟨hpassed, hqueued⟩ := serves_passed hserves
      exact ⟨hpassed, hqueued, fun hrelaying hwhole => hrelaying.2 _ _ ⟨hwhole, rfl⟩⟩

/-- The message that the label queues. -/
def queuedBy : Proxy.Label → List NlMessage
  | .queue m => [m.val]
  | _ => []

theorem relaying_end {rvalue : Int32} {phase : Phase} (h : Settled pid g)
    (hphase : Settled pid g → Relaying pid phase g) :
    Relaying pid (if rvalue = -1 then .ended else phase) g := by
  split
  · exact h
  · exact hphase h

theorem step_quiet {l : Proxy.Label} (h : Proxy.Step version pid σ l σ') (hl : ∀ e env, l ≠ .op e env) :
    σ'.wire.passed = σ.wire.passed ∧ σ'.wire.queued = σ.wire.queued ++ queuedBy l ∧
      (Relaying pid σ.phase g → Relaying pid σ'.phase g) := by
  cases h with
  | queue m => exact ⟨rfl, rfl, id⟩
  | selectNetlink rm _ => exact ⟨rfl, (List.append_nil _).symm, proxyHandleNetlink_relays⟩
  | selectRemote _ => exact ⟨rfl, (List.append_nil _).symm, proxyHandleRemote_relays⟩
  | control => exact ⟨rfl, (List.append_nil _).symm, id⟩
  | netlink => exact absurd rfl (hl _ _)
  | remote => exact absurd rfl (hl _ _)
  | netlinkDone =>
      refine ⟨rfl, (List.append_nil _).symm, fun h => relaying_end h fun h => ?_⟩
      split
      · exact proxyHandleRemote_relays h
      · exact h
  | remoteDone => exact ⟨rfl, (List.append_nil _).symm, fun h => relaying_end h id⟩

/-- A smooth event is orderly: what the daemon sends is a file operation that came over the
stream, and the kernel answers it with nothing but an acknowledgement. -/
theorem orderly_of_smooth (h : Proxy.Step version pid σ (.op e env) σ') (hpid : pid ≠ 0)
    (hrelaying : Relaying pid σ.phase g) (hwhole : ∀ m ∈ g.1 ++ receivedBy e, Whole m)
    {inbound : List Message} (hsmooth : SmoothEvent inbound σ.wire env e) :
    Proxy.Orderly version σ (.op e env) := by
  have hafter := (step_op h).2.2 hrelaying fun m hm => hwhole m (List.mem_append_right _ hm)
  obtain ⟨handling, -, hhand⟩ := hafter.inHand
  cases h with
  | @netlink w w' op k rm r env hserves =>
      cases hserves with
      | @nlSend m r hr =>
          -- the handler has nothing in hand that it could send
          have hsettled : g.2 = g.1.map (toKernel pid) := hrelaying.1
          have hlen := congrArg List.length hhand
          simp only [receivedBy, deliveredBy, List.append_nil, ← hsettled, List.length_append,
            List.length_singleton] at hlen
          omega
      | malloc ok => exact fun _ => hsmooth
      | nlRecv _ => exact nofun
      | nlRecvFails => exact nofun
      | _ => exact trivial
  | @remote w w' op k r env hserves =>
      cases hserves with
      | @nlSend m r hr =>
          obtain ⟨hempty, hfound, hthread⟩ := hsmooth
          have hm : m ∈ g.1.map (toKernel pid) := by
            simp only [receivedBy, deliveredBy, List.append_nil] at hhand
            rw [← hhand]
            exact List.mem_append_left _ (List.mem_append_right _ List.mem_cons_self)
          obtain ⟨frame, hframe, rfl⟩ := List.mem_map.mp hm
          obtain ⟨nlh, hcarried, rfl⟩ := hwhole frame (List.mem_append_left _ hframe)
          exact ⟨hempty, 0, true, hcarried.netlinkRecv hpid hfound hthread version⟩
      | malloc ok => exact nofun
      | nlRecv _ => exact fun _ => hsmooth
      | nlRecvFails => exact fun _ => hsmooth
      | _ => exact trivial

end

/-! ## Runs -/

structure Inv (link : Link) (s : State) : Prop where
  proxy : ∀ p, Proxy.Inv link.version (s p).proxy
  relaying : ∀ p, Relaying (link.pid p) (s p).proxy.phase ((s p).received, (s p).delivered)
  stream : ∀ p, (s p).proxy.wire.passed = (s p.peer).received ++ (s p.peer).inbound
  carried : ∀ p, ∀ m ∈ (s p).proxy.wire.queued, Carried m

section
variable {link : Link} {s s' : State} {p : Party}

/-- What a proxy has passed on are frames of file operations. -/
theorem Inv.whole (h : Inv link s) (p : Party) : ∀ m ∈ (s p).received ++ (s p).inbound, Whole m := by
  intro m hm
  have hstream := h.stream p.peer
  rw [Party.peer_peer] at hstream
  have hdelivery := (h.proxy p.peer).delivery
  obtain ⟨inHand, -, hpassed, -⟩ := hdelivery.passed
  have hmem : m ∈ (s p.peer).proxy.wire.handled.map frameOf := by
    rw [← hpassed, hstream]
    exact List.mem_append_left _ hm
  obtain ⟨nlh, hnlh, rfl⟩ := List.mem_map.mp hmem
  refine ⟨nlh, h.carried p.peer nlh ?_, rfl⟩
  rw [← hdelivery.queued]
  exact List.mem_append_left _ hnlh

/-- One side has taken a step, and the other has perhaps got something on its stream. -/
theorem Inv.update {side : Side} {inbound : List Message} (h : Inv link s) (hself : s' p = side)
    (hpeer : s' p.peer = { s p.peer with inbound }) (hproxy : Proxy.Inv link.version side.proxy)
    (hrelaying : Relaying (link.pid p) side.proxy.phase (side.received, side.delivered))
    (hpassed : side.proxy.wire.passed = (s p.peer).received ++ inbound)
    (hstream : side.received ++ side.inbound = (s p).received ++ (s p).inbound)
    (hcarried : ∀ m ∈ side.proxy.wire.queued, Carried m) : Inv link s' := by
  have hback := h.stream p.peer
  rw [Party.peer_peer, ← hstream] at hback
  have hboth : ∀ {P : Party → Prop}, P p → P p.peer → ∀ q, P q := by
    intro P hp hq q
    by_cases heq : q = p
    · exact heq ▸ hp
    · exact Party.eq_peer heq ▸ hq
  refine ⟨hboth ?_ ?_, hboth ?_ ?_, hboth ?_ ?_, hboth ?_ ?_⟩
  · rw [hself]
    exact hproxy
  · rw [hpeer]
    exact h.proxy p.peer
  · rw [hself]
    exact hrelaying
  · rw [hpeer]
    exact h.relaying p.peer
  · rw [hself, hpeer]
    exact hpassed
  · rw [hpeer, Party.peer_peer, hself]
    exact hback
  · rw [hself]
    exact hcarried
  · rw [hpeer]
    exact h.carried p.peer

theorem Inv.op {e : Event DaemonI} {env : Kernel.RecvEnv} {inbound : List Message} {proxy : Proxy.State}
    (h : Inv link s) (hstep : Proxy.Step link.version (link.pid p) (s p).proxy (.op e env) proxy)
    (htakes : Takes (s p).inbound e inbound) (hsmooth : SmoothEvent (s p).inbound (s p).proxy.wire env e) :
    Inv link (s.after p e inbound proxy) := by
  have hinbound := htakes.eq_append hsmooth
  have hwhole : ∀ m ∈ (s p).received ++ receivedBy e, Whole m := by
    intro m hm
    refine h.whole p m ?_
    rw [hinbound, ← List.append_assoc]
    exact List.mem_append_left _ hm
  have horderly := orderly_of_smooth hstep (link.pid_ne p) (h.relaying p) hwhole hsmooth
  obtain ⟨hpassed, hqueued, hrelaying⟩ := @step_op _ _ ((s p).received, (s p).delivered) _ _ _ _ hstep
  refine h.update (if_pos rfl) (if_neg p.peer_ne) ?_ ?_ ?_ ?_ ?_
  · exact (system_invariant link.version (link.pid p)).step _ _ _ (h.proxy p) ⟨hstep, horderly⟩
  · exact hrelaying (h.relaying p) fun m hm => hwhole m (List.mem_append_right _ hm)
  · rw [← List.append_assoc, ← h.stream p]
    exact hpassed
  · rw [hinbound, ← List.append_assoc]
    rfl
  · exact fun m hm => h.carried p m (hqueued ▸ hm)

theorem Inv.quiet {l : Proxy.Label} {proxy : Proxy.State} (h : Inv link s)
    (hstep : Proxy.Step link.version (link.pid p) (s p).proxy l proxy) (hl : ∀ e env, l ≠ .op e env)
    (hsmooth : Smooth s (p, l)) : Inv link (Function.update s p ((s p).step proxy)) := by
  obtain ⟨hpassed, hqueued, hrelaying⟩ := @step_quiet _ _ ((s p).received, (s p).delivered) _ _ _ hstep hl
  have horderly : Proxy.Orderly link.version (s p).proxy l := by
    cases l with
    | op e env => exact absurd rfl (hl e env)
    | _ => exact trivial
  refine h.update (Function.update_self ..) (Function.update_of_ne p.peer_ne ..) ?_ ?_ ?_ rfl ?_
  · exact (system_invariant link.version (link.pid p)).step _ _ _ (h.proxy p) ⟨hstep, horderly⟩
  · exact hrelaying (h.relaying p)
  · exact hpassed.trans (h.stream p)
  · intro m hm
    change m ∈ proxy.wire.queued at hm
    rw [hqueued] at hm
    rcases List.mem_append.mp hm with hm | hm
    · exact h.carried p m hm
    · cases l with
      | queue m' =>
          obtain rfl := List.mem_singleton.mp hm
          exact hsmooth
      | _ => exact (List.not_mem_nil hm).elim

theorem system_inv (link : Link) : ((system link).restrict Smooth).Invariant (Inv link) where
  init := by
    intro s hs
    refine ⟨fun p => ?_, fun p => ?_, fun p => ?_, fun p => ?_⟩
    · rw [hs p]
      exact ⟨⟨[], rfl, rfl, nofun⟩, rfl, nofun, nofun, nofun⟩
    · rw [hs p]
      rfl
    · rw [hs p, hs p.peer]
      rfl
    · rw [hs p]
      exact nofun
  step := by
    rintro s l s' h ⟨hstep, hsmooth⟩
    cases hstep with
    | op hstep htakes => exact h.op hstep htakes hsmooth
    | quiet hstep hl => exact h.quiet hstep hl hsmooth

/-- What one machine's kernel threads have queued is, in order: what the kernel of the other
has got, at most one message in the hands of its daemon, what is on the stream, at most one
message in the hands of the own daemon, and what is on the own daemon's socket. -/
structure Conveys (pid : UInt32) (near far : Side) : Prop where
  order : ∃ handling passing : List NlMessage, handling.length ≤ 1 ∧ passing.length ≤ 1 ∧
    far.delivered ++ handling ++ far.inbound.map (toKernel pid) ++ passing ++
      (near.proxy.wire.queue.filter (isFileOperation ·.msgtype)).map (relayed pid)
        = near.proxy.wire.queued.map (relayed pid) ∧
    ((∀ p, far.proxy.phase ≠ .remote p) → handling = []) ∧
    ((∀ p rm, near.proxy.phase ≠ .netlink p rm) → passing = [])

theorem Inv.conveys (h : Inv link s) (p : Party) : Conveys (link.pid p.peer) (s p) (s p.peer) := by
  obtain ⟨handling, hle, hhand⟩ := (h.relaying p.peer).inHand
  have hdelivery := (h.proxy p).delivery
  obtain ⟨inHand, hlen, hpassed, hidle⟩ := hdelivery.passed
  have hrelayed : ∀ ms : List NlMessage, (ms.map frameOf).map (toKernel (link.pid p.peer))
      = ms.map (relayed (link.pid p.peer)) := fun ms => List.map_map
  refine ⟨handling, inHand.map (relayed (link.pid p.peer)), hle, by simpa using hlen, ?_,
    fun hphase => ?_, fun hphase => ?_⟩
  · rw [hhand, ← List.map_append, ← h.stream p, ← hrelayed inHand, ← List.map_append, hpassed, hrelayed,
      ← List.map_append, hdelivery.queued]
  · have hsettled := (h.relaying p.peer).settled hphase
    rw [← hsettled] at hhand
    exact List.append_right_eq_self.mp hhand
  · rw [hidle hphase, List.map_nil]

/-- In every smooth run of the two proxies, file operations are conveyed in both directions
without loss, duplication or reordering. -/
theorem conveys_of_smooth {ls : List (Party × Proxy.Label)} (hrun : ((system link).restrict Smooth).Run ls s)
    (p : Party) : Conveys (link.pid p.peer) (s p) (s p.peer) :=
  (hrun.invariant (system_inv link)).conveys p

end

/-! ## One message -/

namespace Sample

/-- The client's daemon has the pid 7, the server's 9. -/
def link : Link where
  version := 2
  pid
    | .client => 7
    | .server => 9
  pid_ne p := by cases p <;> decide

theorem carried_llseek : Carried llseekMessage := ⟨llseekFo.property, by decide, by decide⟩

theorem netlinkRecv_relayed :
    Kernel.netlinkRecv smooth 2 (relayed 9 llseekMessage) = some ⟨none, some 0, true⟩ :=
  carried_llseek.netlinkRecv (by decide) rfl rfl 2

end Sample

/-- A file operation of the client comes to the kernel of the server. -/
theorem conveys_of_smooth_llseek : ∃ s : State, (s .server).delivered = [relayed 9 llseekMessage] ∧
    Conveys 9 (s .client) (s .server) := by
  have run : ((system Sample.link).restrict Smooth).Run [] _ :=
    .init (s := fun _ => ⟨⟨.empty, .loop⟩, [], [], []⟩) fun _ => rfl
  have run := run.step ⟨.quiet (p := .client) (.queue llseekFo) nofun, Sample.carried_llseek⟩
  have run := run.step ⟨.quiet (p := .client) (.selectNetlink false (List.cons_ne_nil _ _)) nofun, trivial⟩
  have run := run.step
    ⟨.op (p := .client) (.netlink (@Serves.nlRecv 2 .netlink smooth _ _ _ rfl)) (.other nofun),
      Option.some_ne_none _⟩
  have run := run.step
    ⟨.op (p := .client) (.netlink (@Serves.malloc 2 .netlink smooth _ true)) (.other nofun), rfl⟩
  have run := run.step
    ⟨.op (p := .client) (.netlink (@Serves.connSend 2 .netlink smooth _ _ true)) (.other nofun), rfl⟩
  have run := run.step ⟨.quiet (p := .client) .netlinkDone nofun, trivial⟩
  have run := run.step ⟨.quiet (p := .server) (.selectRemote rfl) nofun, trivial⟩
  have run := run.step
    ⟨.op (p := .server) (.remote (@Serves.getsockopt 2 .remote smooth _ true)) (.other nofun), trivial⟩
  have run := run.step
    ⟨.op (p := .server) (.remote (@Serves.connRecv 2 .remote smooth _ (some (frameOf llseekMessage)))) .next,
      Option.some_ne_none _, rfl⟩
  have run := run.step
    ⟨.op (p := .server) (.remote (@Serves.nlSend 2 .remote smooth _ _ _ Sample.netlinkRecv_relayed)) (.other nofun),
      rfl, rfl, rfl⟩
  exact ⟨_, rfl, conveys_of_smooth run .client⟩

end Netdev.Daemon.Tunnel
