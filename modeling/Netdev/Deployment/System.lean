-- SUMMARY: Two kernels and two daemons as one system, and what a step of one of the kernels keeps.
import Netdev.Kernel.Routed
import Netdev.Deployment.Messages

/-!
# The two machines at work

The processes of the client, the threads of both kernels and the two daemons take their
steps in any order. A request goes by the socket of the client's daemon, the stream and the
server's daemon to a new thread of the server, and its reply comes back in the same way.
-/

namespace Netdev.Deployment
open Base Kernel Daemon Tunnel

/-! ## The system -/

/-- `posted` are the calls whose messages were queued on the socket of a daemon, in order. No code
looks at it. -/
structure State where
  kernels : Routing.State
  daemons : Tunnel.State
  posted : Party → List Nat

/-- The access id of the file of the call. -/
abbrev accessId? (k : Routing.State) (n : Nat) : Option Int32 :=
  ((k.ops n).acc.bind k.client.accs).map Acc.accessId

/-- The next step of the call gives its request to `netlink_send`. -/
def sending (s : Routing.State) (n : Nat) (env : FoEnv) : Bool :=
  match Routing.perform env s.client (s.ops n).prog with
  | some (some (.send true), _, _) => true
  | _ => false

/-- What the next step of the server's thread gives to `netlink_send_skb`. -/
def replying (s : Routing.State) (n : Nat) (env : FoEnv) : Option NlMessage :=
  match (s.ops n).serve with
  | none => none
  | some r =>
      match Routing.perform env s.server r.prog with
      | some (some (.execute acc nlh _), _, _) =>
          match s.server.accs acc with
          | none => none
          | some data =>
              match foExecute env.exec env.handler env.fresh data.server nlh with
              | .ok result => result.reply
              | .error _ => none
      | _ => none

/-- The thread that the kernel starts while the daemon sends. -/
def started (version : Int32) : Proxy.Label → Option NlMessage
  | .op ⟨.nlSend m, _⟩ env =>
      match Kernel.netlinkRecv env version m with
      | some r => if r.task then some m else none
      | none => none
  | _ => none

/-- The thread of a machine that a message of the call has started. -/
def thread (op : Routing.Operation) : Party → Option Routing.Receiver
  | .server => op.serve
  | .client => op.answer

def withThread (op : Routing.Operation) (r : Routing.Receiver) : Party → Routing.Operation
  | .server => { op with serve := some r }
  | .client => { op with answer := some r }

/-- The dummy device of the client is `d`, the device of the server is `e`. -/
def device (d e : DevId) : Party → DevId
  | .client => d
  | .server => e

/-- The messages that a daemon gives to its kernel come in the order in which those of the other
kernel were queued: a thread is kept with the call whose message was queued at its place. -/
def State.arrive (d e : DevId) (s : State) (p : Party) : Option NlMessage → Routing.State
  | none => s.kernels
  | some nlh =>
      match (s.posted p.peer)[(s.daemons p).delivered.length]? with
      | none => s.kernels
      | some n =>
          s.kernels.setOp n (withThread (s.kernels.ops n) ⟨nlh, foRecvDev (device d e p) nlh, .lookup⟩ p)

/-- A kernel thread queues a message of the call on the socket of its daemon. -/
def State.post (s : State) (kernels : Routing.State) (p : Party) (n : Nat) (m : FoMessage) : State where
  kernels
  daemons := Function.update s.daemons p
    ((s.daemons p).step { (s.daemons p).proxy with wire := (s.daemons p).proxy.wire.queueFo m.val })
  posted := Function.update s.posted p (s.posted p ++ [n])

inductive Label where
  | kernel (l : Routing.Label)
  /-- The call `n` queues its request. -/
  | request (n : Nat) (env : FoEnv) (m : FoMessage)
  /-- The server's thread for the call `n` queues the reply. -/
  | reply (n : Nat) (env : FoEnv) (m : FoMessage)
  | daemon (p : Party) (l : Proxy.Label)

/-- A step of a kernel that queues nothing. What a thread of the server replies may get lost. -/
def Quiet (s : Routing.State) : Routing.Label → Prop
  | .request .. => False
  | .reply .. => False
  | .send n env => sending s n env = false
  | _ => True

inductive Step (d e : DevId) (link : Link) : State → Label → State → Prop where
  | kernel {s : State} {l : Routing.Label} {kernels : Routing.State} :
      Quiet s.kernels l → Routing.step? d e s.kernels l = some kernels →
      Step d e link s (.kernel l) { s with kernels }
  | request {s : State} {n : Nat} {env : FoEnv} {m : FoMessage} {kernels : Routing.State} {accessId : Int32}
      {flags : UInt16} {seq : UInt32} {stale : Int64} :
      sending s.kernels n env = true → Routing.step? d e s.kernels (.send n env) = some kernels →
      accessId? s.kernels n = some accessId →
      m.val = request (link.pid .client) (s.kernels.ops n).call accessId flags seq stale →
      Step d e link s (.request n env m) (s.post kernels .client n m)
  | reply {s : State} {n : Nat} {env : FoEnv} {m : FoMessage} {kernels : Routing.State} :
      replying s.kernels n env = some m.val → Routing.step? d e s.kernels (.serve n env) = some kernels →
      Step d e link s (.reply n env m) (s.post kernels .server n m)
  | daemon {s : State} {p : Party} {l : Proxy.Label} {daemons : Tunnel.State} :
      (∀ m, l ≠ .queue m) → Tunnel.Step link s.daemons (p, l) daemons →
      Step d e link s (.daemon p l) { s with kernels := s.arrive d e p (started link.version l), daemons }

def system (d e : DevId) (link : Link) : System State Label where
  init s := (Routing.system d e).init s.kernels ∧ (Tunnel.system link).init s.daemons ∧ ∀ p, s.posted p = []
  step := Step d e link

/-- The condition on a step: those of routing and of the tunnel, and no reply of 4 GiB. -/
def Meets (d : DevId) (s : State) : Label → Prop
  | .kernel l => Routing.Unshared d s.kernels l
  | .request .. => True
  | .reply _ _ m => m.val.bytes.length < 2 ^ 32
  | .daemon p l => Smooth s.daemons (p, l)

/-! ## What the messages are -/

/-- The message is the request of the call. -/
structure Asks (op : Routing.Operation) (m : NlMessage) : Prop where
  sent : op.sent = some (asInt m.payload)
  msgtype : m.msgtype = op.call.msgtype.toInt32

/-- It is the reply of the thread that has executed the call. -/
def Answers (op : Routing.Operation) (m : NlMessage) : Prop :=
  ∃ r, op.serve = some r ∧ r.phase.executed = true ∧ SameRoute r.nlh m

/-- A message that one machine has queued for the call. -/
def Fits (op : Routing.Operation) : Party → NlMessage → Prop
  | .client => Asks op
  | .server => Answers op

/-- What was sent is still the same, and so is what has come. -/
structure Steady (op op' : Routing.Operation) : Prop where
  asks : ∀ m, Asks op m → Asks op' m
  answers : ∀ m, Answers op m → Answers op' m
  serve : op'.serve.map Routing.Receiver.nlh = op.serve.map Routing.Receiver.nlh
  answer : op'.answer.map Routing.Receiver.nlh = op.answer.map Routing.Receiver.nlh

section
variable {op op' : Routing.Operation}

theorem Steady.refl (op : Routing.Operation) : Steady op op := ⟨fun _ h => h, fun _ h => h, rfl, rfl⟩

theorem Steady.fits (h : Steady op op') (p : Party) (m : NlMessage) (hm : Fits op p m) : Fits op' p m := by
  cases p with
  | client => exact h.asks m hm
  | server => exact h.answers m hm

theorem Steady.thread (h : Steady op op') (p : Party) :
    (thread op' p).map Routing.Receiver.nlh = (thread op p).map Routing.Receiver.nlh := by
  cases p with
  | client => exact h.answer
  | server => exact h.serve

end

section
variable {d e : DevId} {k k' : Routing.State} {n : Nat} {env : FoEnv} {m nlh : NlMessage} {p : Party}

theorem sameRoute_trans {m' : NlMessage} (h : SameRoute nlh m) (h' : SameRoute m m') : SameRoute nlh m' :=
  ⟨h'.1.trans h.1, h'.2.trans h.2⟩

theorem sameRoute_relayed {pid : UInt32} (h : Addressed m) : SameRoute m (relayed pid m) :=
  ⟨msgtype_relayed h, asInt_relayed h⟩

/-- One call has changed. -/
theorem steady_update {op : Routing.Operation} (hops : k'.ops = Function.update k.ops n op)
    (h : Steady (k.ops n) op) (i : Nat) : Steady (k.ops i) (k'.ops i) := by
  by_cases hi : i = n
  · rw [hi, hops, Function.update_self]
    exact h
  · rw [hops, Function.update_of_ne hi]
    exact .refl _

/-- A call that begins has sent nothing. -/
theorem steady_start (h : Routing.Kept d e k) {op : Routing.Operation} (hserve : op.serve = none)
    (hanswer : op.answer = none) (i : Nat) : Steady (k.ops i) ((k.start op).ops i) := by
  have hinert := h.calls.inert k.next (Nat.le_refl _)
  refine steady_update rfl ⟨?_, ?_, ?_, ?_⟩ i
  · intro m hasks
    have hsent := hasks.sent
    rw [hinert] at hsent
    cases hsent
  · rintro m ⟨r, hr, -⟩
    rw [hinert] at hr
    cases hr
  · rw [hinert, hserve]
    rfl
  · rw [hinert, hanswer]
    rfl

/-- A step of `fo_send`: only a call that has not sent its request sends it. -/
theorem sent_step (h : Routing.Kept d e k) {event : FileEvent} {prog : FoM Int32} {client : Registry}
    (hp : Routing.Performs env k.client (k.ops n).prog (some event) prog client) :
    event = .send true ∧ (k.ops n).sent = none ∧ (∀ a, (k.ops n).phase ≠ .waiting a) ∨
      event ≠ .send true ∧ ∀ accessId, Routing.sentAfter accessId (k.ops n).sent event = (k.ops n).sent := by
  have hsound := h.calls.sound n
  obtain ⟨-, hstep⟩ := hsound.course.performs hp
  generalize (k.ops n).phase.after d (k.ops n).pid (k.ops n).releases event = ph' at hstep
  generalize hphase : (k.ops n).phase = ph at hstep
  cases hstep with
  | sent => exact .inl ⟨rfl, hsound.unsent (.inr ⟨_, hphase⟩), by simp⟩
  | _ => exact .inr ⟨by simp, fun _ => rfl⟩

/-! A step of one of the threads. -/

theorem step_send (hstep : Routing.step? d e k (.send n env) = some k') : ∃ event prog,
    Routing.perform env k.client (k.ops n).prog = some (event, prog, k'.client) ∧
      k'.ops = Function.update k.ops n ((k.ops n).goOn d (accessId? k n) event prog) := by
  simp only [Routing.step?] at hstep
  split at hstep
  case h_1 event prog client hp =>
    obtain rfl := Option.some.inj hstep
    exact ⟨event, prog, hp, rfl⟩
  case h_2 => cases hstep

theorem step_serve (hstep : Routing.step? d e k (.serve n env) = some k') : ∃ r event prog,
    (k.ops n).serve = some r ∧ Routing.perform env k.server r.prog = some (event, prog, k'.server) ∧
      k'.ops = Function.update k.ops n { k.ops n with serve := some (r.goOn false e event prog) } := by
  simp only [Routing.step?] at hstep
  split at hstep
  case h_1 r hserve =>
    split at hstep
    case h_1 event prog server hp =>
      obtain rfl := Option.some.inj hstep
      refine ⟨r, event, prog, hserve, hp, ?_⟩
      rw [← (@Routing.record_eq k n env.handler event).1]
      rfl
    case h_2 => cases hstep
  case h_2 => cases hstep

theorem step_answer (hstep : Routing.step? d e k (.answer n env) = some k') : ∃ r event prog,
    (k.ops n).answer = some r ∧
      k'.ops = Function.update k.ops n { k.ops n with answer := some (r.goOn true d event prog) } := by
  simp only [Routing.step?] at hstep
  split at hstep
  case h_1 r hanswer =>
    split at hstep
    case h_1 event prog client hp =>
      obtain rfl := Option.some.inj hstep
      refine ⟨r, event, prog, hanswer, ?_⟩
      rw [← (@Routing.note_eq k n event).1]
      rfl
    case h_2 => cases hstep
  case h_2 => cases hstep

/-- A thread keeps its message. -/
theorem nlh_goOn {dummy : Bool} (d : DevId) (r : Routing.Receiver) (event : Option FileEvent) (prog : FoM Int32) :
    (r.goOn dummy d event prog).nlh = r.nlh := by
  cases event with
  | none => rfl
  | some event => rfl

/-- What was executed stays so. -/
theorem executed_goOn (h : Routing.Kept d e k) {r : Routing.Receiver} {event : Option FileEvent}
    {prog : FoM Int32} {server : Registry} (hserve : (k.ops n).serve = some r)
    (hp : Routing.perform env k.server r.prog = some (event, prog, server))
    (hexecuted : r.phase.executed = true) : (r.goOn false e event prog).phase.executed = true := by
  cases event with
  | none => exact hexecuted
  | some event =>
      obtain ⟨files, hserver⟩ := h.server
      obtain ⟨-, hstep⟩ := (h.calls.sound n).serve_goOn hserve (Routing.performs_of_perform hp) hserver.lists
      exact hstep.executed hexecuted

/-- What a kernel does by itself. -/
theorem steady_step (h : Routing.Kept d e k) {l : Routing.Label} (hstep : Routing.step? d e k l = some k')
    (hrequest : ∀ n nlh, l ≠ .request n nlh) (hreply : ∀ n nlh, l ≠ .reply n nlh) (i : Nat) :
    Steady (k.ops i) (k'.ops i) := by
  cases l with
  | «open» pid pad =>
      obtain rfl := Option.some.inj hstep
      exact steady_start h rfl rfl i
  | call m call =>
      simp only [Routing.step?] at hstep
      split at hstep
      case h_1 a hacc =>
        split at hstep
        case isTrue hmay =>
          obtain rfl := Option.some.inj hstep
          exact steady_start h rfl rfl i
        case isFalse => cases hstep
      case h_2 => cases hstep
  | request n nlh => exact absurd rfl (hrequest n nlh)
  | reply n nlh => exact absurd rfl (hreply n nlh)
  | send n env =>
      obtain ⟨event, prog, hp, hops⟩ := step_send hstep
      refine steady_update hops ?_ i
      cases event with
      | none => exact ⟨fun m hm => ⟨hm.sent, hm.msgtype⟩, fun _ hm => hm, rfl, rfl⟩
      | some event =>
          refine ⟨fun m hm => ⟨?_, hm.msgtype⟩, fun _ hm => hm, rfl, rfl⟩
          rcases sent_step h (Routing.performs_of_perform hp) with ⟨-, hnone, -⟩ | ⟨-, hsame⟩
          · exact absurd (hm.sent.symm.trans hnone) (by simp)
          · exact (hsame _).trans hm.sent
  | serve n env =>
      obtain ⟨r, event, prog, hserve, hp, hops⟩ := step_serve hstep
      refine steady_update hops ⟨fun m hm => ⟨hm.sent, hm.msgtype⟩, ?_, ?_, rfl⟩ i
      · rintro m ⟨r', hr', hexecuted, hroute⟩
        obtain rfl := Option.some.inj (hserve.symm.trans hr')
        exact ⟨_, rfl, executed_goOn h hserve hp hexecuted, (nlh_goOn e r event prog).symm ▸ hroute⟩
      · rw [hserve]
        exact congrArg some (nlh_goOn e r event prog)
  | answer n env =>
      obtain ⟨r, event, prog, hanswer, hops⟩ := step_answer hstep
      refine steady_update hops ⟨fun m hm => ⟨hm.sent, hm.msgtype⟩, fun _ hm => hm, rfl, ?_⟩ i
      rw [hanswer]
      exact congrArg some (nlh_goOn d r event prog)

/-- The request of a call is its first. -/
theorem request_step (h : Routing.Kept d e k) (hsending : sending k n env = true)
    (hstep : Routing.step? d e k (.send n env) = some k') :
    (k.ops n).sent = none ∧ Routing.Unshared d k (.send n env) ∧ (k'.ops n).call = (k.ops n).call ∧
      (k'.ops n).sent = accessId? k n := by
  obtain ⟨event, prog, hp, hops⟩ := step_send hstep
  unfold sending at hsending
  rw [hp] at hsending
  split at hsending
  case h_1 heq =>
    obtain rfl : event = some (.send true) := congrArg Prod.fst (Option.some.inj heq)
    rw [hops, Function.update_self]
    rcases sent_step h (Routing.performs_of_perform hp) with ⟨-, hnone, hphase⟩ | ⟨hne, -⟩
    · exact ⟨hnone, fun a ha => absurd ha (hphase a), rfl, rfl⟩
    · exact absurd rfl hne
  case h_2 => cases hsending

/-- The reply is that of a thread that has not executed the call before. -/
theorem reply_step (h : Routing.Kept d e k) (hreplying : replying k n env = some m)
    (hstep : Routing.step? d e k (.serve n env) = some k') : ∃ r, (k.ops n).serve = some r ∧
      r.phase.executed = false ∧ Reshaped r.nlh m ∧ Answers (k'.ops n) m := by
  obtain ⟨r, event, prog, hserve, hp, hops⟩ := step_serve hstep
  obtain ⟨files, hserver⟩ := h.server
  unfold replying at hreplying
  rw [hserve] at hreplying
  dsimp only at hreplying
  rw [hp] at hreplying
  split at hreplying
  case h_1 acc nlh rvalue _ _ heq =>
    obtain rfl : event = some (.execute acc nlh rvalue) := congrArg Prod.fst (Option.some.inj heq)
    split at hreplying
    case h_1 => cases hreplying
    case h_2 data hdata =>
      split at hreplying
      case h_1 result hexecute =>
        obtain ⟨-, hinstep⟩ := (h.calls.sound n).serve_goOn hserve (Routing.performs_of_perform hp) hserver.lists
        rw [hops, Function.update_self]
        generalize hphase : r.phase = ph at hinstep
        generalize hnext : (r.goOn false e (some (.execute acc nlh rvalue)) prog).phase = ph' at hinstep
        cases hinstep with
        | execute _ =>
            refine ⟨r, hserve, by rw [hphase]; rfl, foExecute_reshaped hexecute hreplying, _, rfl, ?_, ?_⟩
            · rw [hnext]
              rfl
            · exact (foExecute_spec hexecute).2 m hreplying
      case h_2 => cases hreplying
  case h_2 => cases hreplying

/-- A quiet step sends no request. -/
theorem sent_of_quiet (h : Routing.Kept d e k) {l : Routing.Label} (hstep : Routing.step? d e k l = some k')
    (hquiet : Quiet k l) (i : Nat) : (k'.ops i).sent = (k.ops i).sent := by
  have hstart : ∀ {op : Routing.Operation}, op.sent = none → ((k.start op).ops i).sent = (k.ops i).sent := by
    intro op hop
    by_cases hi : i = k.next
    · subst hi
      rw [h.calls.inert _ (Nat.le_refl _)]
      exact (congrArg Routing.Operation.sent (Function.update_self ..)).trans hop
    · rw [Routing.start_of_ne hi]
  have hupdate : ∀ {n : Nat} {op : Routing.Operation}, k'.ops = Function.update k.ops n op →
      op.sent = (k.ops n).sent → (k'.ops i).sent = (k.ops i).sent := by
    intro n op hops hop
    by_cases hi : i = n
    · rw [hi, hops, Function.update_self, hop]
    · rw [hops, Function.update_of_ne hi]
  cases l with
  | «open» pid pad =>
      obtain rfl := Option.some.inj hstep
      exact hstart rfl
  | call m call =>
      simp only [Routing.step?] at hstep
      split at hstep
      case h_1 a hacc =>
        split at hstep
        case isTrue hmay =>
          obtain rfl := Option.some.inj hstep
          exact hstart rfl
        case isFalse => cases hstep
      case h_2 => cases hstep
  | request n nlh => exact hquiet.elim
  | reply n nlh => exact hquiet.elim
  | send n env =>
      obtain ⟨event, prog, hp, hops⟩ := step_send hstep
      refine hupdate hops ?_
      cases event with
      | none => rfl
      | some event =>
          rcases sent_step h (Routing.performs_of_perform hp) with ⟨rfl, -, -⟩ | ⟨-, hsame⟩
          · have hsending : sending k n env = true := by rw [sending, hp]
            exact absurd (hquiet.symm.trans hsending) (by simp)
          · exact hsame _
  | serve n env =>
      obtain ⟨r, event, prog, -, -, hops⟩ := step_serve hstep
      exact hupdate hops rfl
  | answer n env =>
      obtain ⟨r, event, prog, -, hops⟩ := step_answer hstep
      exact hupdate hops rfl

/-- A message that comes for the first time is one that the other kernel has queued. -/
theorem arrive_step (hfits : Fits (k.ops n) p.peer m) (hroute : SameRoute m nlh)
    (hnone : thread (k.ops n) p = none) : ∃ l, Routing.step? d e k l
        = some (k.setOp n (withThread (k.ops n) ⟨nlh, foRecvDev (device d e p) nlh, .lookup⟩ p)) ∧
      Routing.Unshared d k l := by
  cases p with
  | server =>
      refine ⟨.request n nlh, if_pos ⟨?_, ?_, ?_⟩, trivial⟩
      · exact Option.isNone_iff_eq_none.mpr hnone
      · rw [hroute.2]
        exact hfits.sent
      · rw [hroute.1]
        exact hfits.msgtype
  | client =>
      obtain ⟨r, hserve, hexecuted, hsame⟩ := hfits
      refine ⟨.reply n nlh, ?_, trivial⟩
      simp only [Routing.step?]
      split
      case h_1 r' hserve' =>
        obtain rfl := Option.some.inj (hserve.symm.trans hserve')
        exact if_pos ⟨Option.isNone_iff_eq_none.mpr hnone, hexecuted, sameRoute_trans hsame hroute⟩
      case h_2 hnone' => exact absurd (hserve.symm.trans hnone') (by simp)

/-- A thread that is new. -/
theorem steady_withThread {op : Routing.Operation} {r : Routing.Receiver} (hnone : thread op p = none)
    (q : Party) (m : NlMessage) (h : Fits op q m) : Fits (withThread op r p) q m := by
  cases p with
  | server =>
      cases q with
      | client => exact ⟨h.sent, h.msgtype⟩
      | server =>
          obtain ⟨r', hserve, -⟩ := h
          exact absurd (hserve.symm.trans hnone) (by simp)
  | client =>
      cases q with
      | client => exact ⟨h.sent, h.msgtype⟩
      | server => exact h

theorem sent_withThread (op : Routing.Operation) (r : Routing.Receiver) (p : Party) :
    (withThread op r p).sent = op.sent := by
  cases p <;> rfl

theorem thread_withThread (op : Routing.Operation) (r : Routing.Receiver) (p q : Party) :
    thread (withThread op r p) q = if q = p then some r else thread op q := by
  cases p <;> cases q <;> rfl

end

end Netdev.Deployment
