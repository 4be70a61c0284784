-- SUMMARY: The daemons drain the tunnel: their work is bounded by what is queued, and it ends only when all of it is delivered.
import Netdev.Daemon.Tunnel

/-!
# Draining

Safety alone would allow two daemons that do nothing, or that turn in their loops. Here
every step of a daemon is charged to a message, and where no daemon has a step left
nothing is on the way any more.
-/

namespace Netdev.Daemon.Tunnel
open Base Prog Proxy

/-! ## Healthy runs -/

/-- The calls of a daemon that succeed. -/
def ServedEvent : Event DaemonI → Prop
  | ⟨.getsockopt, ok⟩ => ok = true
  | ⟨.nlRecv, r⟩ => r ≠ none
  | ⟨.connRecv, r⟩ => r ≠ none
  | ⟨.connSend _, ok⟩ => ok = true
  | ⟨.malloc, ok⟩ => ok = true
  | _ => True

/-- `select` reports the stream only when there is something on it, and the control socket
never. -/
def Offered (inbound : List Message) : Proxy.Label → Prop
  | .select _ rm => rm = true → inbound ≠ []
  | .control => False
  | .op e _ => ServedEvent e
  | _ => True

def Served (s : State) (l : Party × Proxy.Label) : Prop := Offered (s l.1).inbound l.2

def Healthy (s : State) (l : Party × Proxy.Label) : Prop := Smooth s l ∧ Served s l

/-- A step of a daemon; the steps of kernel threads are none. -/
def price : Proxy.Label → Nat
  | .queue _ => 0
  | _ => 1

def work (p : Party) (l : Party × Proxy.Label) : Nat := if l.1 = p then price l.2 else 0

/-! ## The handlers -/

/-- A handler takes one message, from the socket or from the stream. -/
def takes : Handler → Event DaemonI → Nat
  | .netlink, ⟨.nlRecv, some _⟩ => 1
  | .remote, ⟨.connRecv, _⟩ => 1
  | _, _ => 0

/-- What it gets. -/
def Expected : Handler → Event DaemonI → Prop
  | .netlink, ⟨.nlRecv, r⟩ => ∃ m, r = some m ∧ IsFo m
  | .remote, ⟨.connRecv, r⟩ => ∀ m, r = some m → Whole m
  | _, _ => True

/-- The operations so far, and the messages that were taken. -/
def costEnv (handler : Handler) : Env DaemonI (Nat × Nat) := fun g e g' =>
  ServedEvent e ∧ Expected handler e ∧ g' = (g.1 + 1, g.2 + takes handler e)

/-- How many operations a handler performs. -/
def cost : Handler → Nat
  | .netlink => 3
  | .remote => 4

/-- A handler goes through with its message. -/
def Costs (handler : Handler) (p : DaemonM Int32) (g : Nat × Nat) : Prop :=
  wp (costEnv handler) (fun g => g.1 < cost handler ∧ g.2 ≤ 1)
    (fun rvalue g => rvalue ≠ -1 ∧ g.1 ≤ cost handler ∧ g.2 = 1) p g

theorem proxyHandleNetlink_costs : Costs .netlink proxyHandleNetlink (0, 0) := by
  refine ⟨(by decide : 0 < 3 ∧ 0 ≤ 1), ?_⟩
  rintro answer _ ⟨-, ⟨m, rfl, hm⟩, rfl⟩
  have hread : readBuf m.bytes m.header.nlmsgLen.toNat = .ret (m.bytes.take m.header.nlmsgLen.toNat) :=
    if_pos hm.length
  simp only [Prog.bind]
  rw [if_pos hm.msgtype]
  refine ⟨(by decide : 1 < 3 ∧ 1 ≤ 1), ?_⟩
  rintro ok _ ⟨rfl, -, rfl⟩
  simp only [Prog.bind, Bool.not_true, Bool.false_eq_true, if_false]
  rw [hread, ret_bind]
  refine ⟨(by decide : 2 < 3 ∧ 1 ≤ 1), ?_⟩
  rintro ok _ ⟨-, -, rfl⟩
  exact (by decide : (0 : Int32) ≠ -1 ∧ 3 ≤ 3 ∧ 1 = 1)

theorem proxyHandleRemote_costs (pid : UInt32) : Costs .remote (proxyHandleRemote pid) (0, 0) := by
  refine ⟨(by decide : 0 < 4 ∧ 0 ≤ 1), ?_⟩
  rintro ok _ ⟨rfl, -, rfl⟩
  refine ⟨(by decide : 1 < 4 ∧ 0 ≤ 1), ?_⟩
  rintro answer _ ⟨hserved, hwhole, rfl⟩
  cases answer with
  | none => exact absurd rfl hserved
  | some m =>
      obtain ⟨nlh, hcarried, rfl⟩ := hwhole m rfl
      have htype : isFileOperation (frameOf nlh).msgtype = true := hcarried.isFo.msgtype
      have hdone : (0 : Int32) ≠ -1 ∧ 4 ≤ 4 ∧ 1 = 1 := by decide
      simp only [Prog.bind]
      rw [if_pos htype, hcarried.asNlMessage, ret_bind]
      refine ⟨(by decide : 2 < 4 ∧ 1 ≤ 1), ?_⟩
      rintro verdict _ ⟨-, -, rfl⟩
      refine ⟨(by decide : 3 < 4 ∧ 1 ≤ 1), ?_⟩
      rintro answer _ ⟨-, -, rfl⟩
      -- the handler does not look at what the confirmation says
      cases answer with
      | none => exact hdone
      | some answer =>
          simp only [Prog.bind]
          split_ifs
          · exact hdone
          · exact hdone
          · exact hdone

/-- What a handler does once it has its message, or before: `proxy_handle_netlink` begins with
its `netlink_recv`. -/
def Performs : Handler → DaemonOp → Prop
  | .netlink, .malloc => True
  | .netlink, .connSend _ => True
  | .netlink, .overread _ => True
  | .remote, .getsockopt => True
  | .remote, .connRecv => True
  | .remote, .overread _ => True
  | .remote, .nlSend _ => True
  | .remote, .nlRecv => True
  | _, _ => False

theorem readBuf_only {handler : Handler} (hover : ∀ n, Performs handler (.overread n)) (buf : Bytes) (n : Nat) :
    (readBuf buf n).Only (Performs handler) := by
  unfold readBuf
  split
  · trivial
  · exact ⟨hover _, fun _ => trivial⟩

theorem proxyHandleNetlink_only : ∃ k, proxyHandleNetlink = .call .nlRecv k ∧
    ∀ r, (k r).Only (Performs .netlink) := by
  refine ⟨_, rfl, fun answer => ?_⟩
  cases answer with
  | none => trivial
  | some m =>
      simp only [Prog.bind]
      split
      · refine ⟨trivial, fun ok => ?_⟩
        cases ok with
        | false => trivial
        | true =>
            refine (@readBuf_only .netlink (fun _ => trivial) _ _).bind fun _ => ?_
            exact ⟨trivial, fun _ => trivial⟩
      · trivial

theorem proxyHandleRemote_only (pid : UInt32) : (proxyHandleRemote pid).Only (Performs .remote) := by
  refine ⟨trivial, fun ok => ?_⟩
  cases ok with
  | false => trivial
  | true =>
      refine ⟨trivial, fun answer => ?_⟩
      cases answer with
      | none => trivial
      | some m =>
          simp only [Prog.bind]
          split
          · refine Only.bind ?_ fun nlh => ?_
            · refine (@readBuf_only .remote (fun _ => trivial) _ _).bind fun head => ?_
              refine (@readBuf_only .remote (fun _ => trivial) _ _).bind fun sent => ?_
              exact (@readBuf_only .remote (fun _ => trivial) _ _).bind fun skb => trivial
            · refine Only.bind ⟨trivial, fun _ => ⟨trivial, fun answer => ?_⟩⟩ fun _ => trivial
              cases answer with
              | none => trivial
              | some answer =>
                  simp only [Prog.bind]
                  split_ifs
                  · trivial
                  · trivial
                  · trivial
          · trivial

/-! ## What a daemon has spent -/

/-- Five steps for a message of the own kernel, and six for one of the other. -/
def Side.budget (side : Side) : Nat := 5 * side.proxy.wire.handled.length + 6 * side.received.length

/-- The steps of a daemon are paid by the messages that it has taken, but for those of the
handler that runs. -/
def Spent (side : Side) (n : Nat) : Prop :=
  match side.proxy.phase with
  | .loop => n ≤ side.budget
  | .netlink p rm => (rm = true → side.inbound ≠ []) ∧
      (p = proxyHandleNetlink ∧ side.proxy.wire.queue ≠ [] ∨ p.Only (Performs .netlink)) ∧
      ∃ g, Costs .netlink p g ∧ n + 5 * g.2 ≤ side.budget + 1 + g.1
  | .remote p => p.Only (Performs .remote) ∧
      ∃ g, Costs .remote p g ∧ n + 6 * g.2 ≤ side.budget + 1 + g.1 ∧ (g.2 = 0 → side.inbound ≠ [])
  | .ended => False

section
variable {side : Side} {n : Nat} {version : Int32} {pid : UInt32} {proxy : Proxy.State} {e : Event DaemonI}
  {env : Kernel.RecvEnv} {w w' : Wire}

theorem serves_handled {handler : Handler} (h : Serves version handler env w e w') :
    w'.handled.length = w.handled.length + match handler with
      | .netlink => takes .netlink e
      | .remote => 0 := by
  cases h with
  | nlRecv => cases handler <;> simp [Wire.recv, takes]
  | _ => cases handler <;> rfl

theorem takes_remote (h : ServedEvent e) : takes .remote e = (receivedBy e).length := by
  obtain ⟨op, r⟩ := e
  cases op with
  | connRecv =>
      cases r with
      | none => exact absurd rfl h
      | some m => rfl
  | _ => rfl

/-- At the end of a handler its steps are paid. -/
theorem Costs.ret {handler : Handler} {rvalue : Int32} {g : Nat × Nat} (h : Costs handler (.ret rvalue) g) :
    rvalue ≠ -1 ∧ g.1 ≤ cost handler ∧ g.2 = 1 := h

theorem Costs.le {handler : Handler} {p : DaemonM Int32} {g : Nat × Nat} (h : Costs handler p g) :
    g.1 ≤ cost handler := by
  cases p with
  | ret rvalue => exact h.ret.2.1
  | call op k => exact h.1.1.le

/-- After an operation of `proxy_handle_netlink` its message has been taken off the socket, and
nothing off the stream. -/
theorem netlink_after {op : DaemonOp} {k : op.Res → DaemonM Int32} {queue : List NlMessage} (r : op.Res)
    (h : .call op k = proxyHandleNetlink ∧ queue ≠ [] ∨
      (Prog.call op k : DaemonM Int32).Only (Performs .netlink)) :
    receivedBy ⟨op, r⟩ = [] ∧ (k r).Only (Performs .netlink) := by
  rcases h with ⟨heq, -⟩ | ⟨hop, hrest⟩
  · obtain ⟨k', hk', honly⟩ := proxyHandleNetlink_only
    rw [hk'] at heq
    cases heq
    exact ⟨rfl, honly r⟩
  · refine ⟨?_, hrest r⟩
    cases op with
    | connRecv => exact hop.elim
    | _ => rfl

theorem Spent.op (h : Spent side n) (hstep : Proxy.Step version pid side.proxy (.op e env) proxy)
    (hserved : ServedEvent e) {inbound : List Message} (hinbound : side.inbound = receivedBy e ++ inbound)
    (hexpected : match side.proxy.phase with
      | .netlink _ _ => Expected .netlink e
      | .remote _ => Expected .remote e
      | _ => True) : Spent ((side.after e inbound).step proxy) (n + 1) := by
  obtain ⟨σ, own, received, delivered⟩ := side
  cases hstep with
  | @netlink w w' op k rm r env hserves =>
      obtain ⟨hrm, hat, g, hcosts, hle⟩ := h
      obtain ⟨hnone, honly⟩ := netlink_after r hat
      rw [hnone, List.nil_append] at hinbound
      subst hinbound
      have hhandled := serves_handled hserves
      refine ⟨hrm, .inr honly, _, hcosts.2 r _ ⟨hserved, hexpected, rfl⟩, ?_⟩
      simp only [Side.budget, Side.after, Side.step, hnone, List.append_nil] at hle hhandled ⊢
      omega
  | @remote w w' op k r env hserves =>
      obtain ⟨honly, g, hcosts, hle, hwaits⟩ := h
      have hhandled := serves_handled hserves
      have htakes := takes_remote hserved
      refine ⟨honly.2 r, _, hcosts.2 r _ ⟨hserved, hexpected, rfl⟩, ?_, fun hzero => ?_⟩
      · simp only [Side.budget, Side.after, Side.step, List.length_append] at hle hhandled ⊢
        omega
      · have hnone : receivedBy ⟨op, r⟩ = [] := by
          apply List.length_eq_zero_iff.mp
          omega
        rw [hnone, List.nil_append] at hinbound
        subst hinbound
        exact hwaits (by omega)

/-- A step that is no operation of a handler; a kernel thread has it for nothing. -/
theorem Spent.quiet {l : Proxy.Label} (h : Spent side n) (hstep : Proxy.Step version pid side.proxy l proxy)
    (hl : ∀ e env, l ≠ .op e env) (hserved : Offered side.inbound l) :
    Spent (side.step proxy) (n + price l) := by
  obtain ⟨σ, inbound, received, delivered⟩ := side
  cases hstep with
  | queue m =>
      obtain ⟨w, phase⟩ := σ
      cases phase with
      | loop => exact h
      | netlink p rm =>
          obtain ⟨hrm, hat, hcosts⟩ := h
          refine ⟨hrm, hat.imp_left fun ⟨heq, _⟩ => ⟨heq, ?_⟩, hcosts⟩
          simp [Side.step, Wire.queueFo]
      | remote p => exact h
      | ended => exact h
  | @selectNetlink w rm hqueue =>
      refine ⟨hserved, .inl ⟨rfl, hqueue⟩, _, proxyHandleNetlink_costs, ?_⟩
      exact Nat.succ_le_succ h
  | @selectRemote w hqueue =>
      refine ⟨proxyHandleRemote_only pid, _, proxyHandleRemote_costs pid, ?_, fun _ => hserved rfl⟩
      exact Nat.succ_le_succ h
  | control => exact hserved.elim
  | netlink => exact absurd rfl (hl _ _)
  | remote => exact absurd rfl (hl _ _)
  | @netlinkDone w rvalue rm =>
      obtain ⟨hrm, -, g, hcosts, hle⟩ := h
      obtain ⟨hok, hops, htaken⟩ := hcosts.ret
      have hle' : n + 1 ≤ Side.budget ⟨⟨w, .loop⟩, inbound, received, delivered⟩ := by
        simp only [Side.budget, cost] at hle hops ⊢
        omega
      cases rm with
      | true =>
          simp only [if_neg hok, if_true]
          refine ⟨proxyHandleRemote_only pid, _, proxyHandleRemote_costs pid, ?_, fun _ => hrm rfl⟩
          exact hle'.trans (Nat.le_succ _)
      | false =>
          simp only [if_neg hok, Bool.false_eq_true, if_false]
          exact hle'
  | @remoteDone w rvalue =>
      obtain ⟨-, g, hcosts, hle, -⟩ := h
      obtain ⟨hok, hops, htaken⟩ := hcosts.ret
      simp only [if_neg hok]
      simp only [Spent, Side.step, Side.budget, cost, price] at hle hops ⊢
      omega

theorem Spent.inbound (h : Spent side n) (ms : List Message) :
    Spent { side with inbound := side.inbound ++ ms } n := by
  obtain ⟨⟨w, phase⟩, inbound, received, delivered⟩ := side
  cases phase with
  | loop => exact h
  | netlink p rm =>
      obtain ⟨hrm, hat, hcosts⟩ := h
      exact ⟨fun htrue => List.append_ne_nil_of_left_ne_nil (hrm htrue) _, hat, hcosts⟩
  | remote p =>
      obtain ⟨honly, g, hcosts, hle, hwaits⟩ := h
      exact ⟨honly, g, hcosts, hle, fun hzero => List.append_ne_nil_of_left_ne_nil (hwaits hzero) _⟩
  | ended => exact h

theorem Spent.le (h : Spent side n) : n ≤ side.budget + 5 := by
  obtain ⟨⟨w, phase⟩, inbound, received, delivered⟩ := side
  cases phase with
  | loop => exact Nat.le_trans h (Nat.le_add_right _ _)
  | netlink p rm =>
      obtain ⟨-, -, g, hcosts, hle⟩ := h
      have hops := hcosts.le
      simp only [Side.budget, cost] at hle hops ⊢
      omega
  | remote p =>
      obtain ⟨-, g, hcosts, hle, -⟩ := h
      have hops := hcosts.le
      simp only [Side.budget, cost] at hle hops ⊢
      omega
  | ended => exact h.elim

/-! ## What a daemon can do -/

/-- A daemon that waits in `select`, with nothing to read. -/
structure Side.Idle (side : Side) : Prop where
  phase : side.proxy.phase = .loop
  queue : side.proxy.wire.queue = []
  inbound : side.inbound = []

/-- A step that the daemon can take by itself. -/
inductive CanStep (version : Int32) (pid : UInt32) (side : Side) : Prop where
  | op {e : Event DaemonI} {env : Kernel.RecvEnv} {inbound : List Message} {proxy : Proxy.State} :
      Proxy.Step version pid side.proxy (.op e env) proxy → ServedEvent e →
      Takes side.inbound e inbound → CanStep version pid side
  | select {nl rm : Bool} {proxy : Proxy.State} :
      Proxy.Step version pid side.proxy (.select nl rm) proxy → (rm = true → side.inbound ≠ []) →
      CanStep version pid side
  | done {proxy : Proxy.State} : Proxy.Step version pid side.proxy .done proxy → CanStep version pid side

theorem netlinkRecv_total (version : Int32) (m : NlMessage) :
    ∃ env r, Kernel.netlinkRecv env version m = some r := by
  refine ⟨⟨false, 0, false, 0⟩, ?_⟩
  unfold Kernel.netlinkRecv
  split_ifs with _ _ _ _ hthread
  · exact ⟨_, rfl⟩
  · exact ⟨_, rfl⟩
  · exact ⟨_, rfl⟩
  · exact absurd rfl hthread
  · exact ⟨_, rfl⟩
  · exact ⟨_, rfl⟩

/-- `proxy_handle_remote` reads the socket only when its confirmation is there. Otherwise it could
take a file operation for it. -/
theorem queue_ne_nil {k : Option NlMessage → DaemonM Int32}
    (h : Holds version .remote (.call .nlRecv k) w) : w.queue ≠ [] := by
  intro hempty
  let m : FoMessage := llseekFo
  have hqueue : (w.queueFo m.val).queue = m.val :: [] := by rw [Wire.queueFo, hempty, List.nil_append]
  have hnext := h.2 (some m.val) _ ⟨_, smooth, .single ⟨m, rfl⟩, fun _ => Option.some_ne_none _,
    .nlRecv hqueue⟩
  obtain ⟨acks, hheld⟩ := Holds.handlerInv hnext
  have hnot := hheld.confirmed m.val (List.mem_append_right _ List.mem_cons_self)
  rw [m.property.msgtype] at hnot
  cases hnot

/-- It takes one message off the stream. -/
theorem not_taken {k : Option Message → DaemonM Int32} {g : Nat × Nat}
    (h : Costs .remote (.call .connRecv k) g) : g.2 = 0 := by
  have hwhole : Whole (frameOf llseekMessage) := ⟨_, Sample.carried_llseek, rfl⟩
  have hnext := h.2 (some (frameOf llseekMessage)) _
    ⟨Option.some_ne_none _, fun m hm => Option.some.inj hm ▸ hwhole, rfl⟩
  have hle : g.2 + 1 ≤ 1 := by
    cases hk : k (some (frameOf llseekMessage)) with
    | ret rvalue =>
        rw [hk] at hnext
        exact hnext.2.2.le
    | call op k' =>
        rw [hk] at hnext
        exact hnext.1.2
  omega

theorem Spent.canStep (h : Spent side n) (hinv : Proxy.Inv version side.proxy) :
    side.Idle ∨ CanStep version pid side := by
  obtain ⟨⟨w, phase⟩, inbound, received, delivered⟩ := side
  cases phase with
  | ended => exact h.elim
  | loop =>
      by_cases hqueue : w.queue = []
      · by_cases hinbound : inbound = []
        · exact .inl ⟨rfl, hqueue, hinbound⟩
        · exact .inr (.select (.selectRemote hqueue) fun _ => hinbound)
      · exact .inr (.select (.selectNetlink false hqueue) nofun)
  | netlink p rm =>
      obtain ⟨-, hat, -⟩ := h
      refine .inr ?_
      cases p with
      | ret rvalue => exact .done .netlinkDone
      | call op k =>
          rcases hat with ⟨heq, hqueue⟩ | ⟨hop, -⟩
          · cases heq
            obtain ⟨m, rest, hcons⟩ := List.exists_cons_of_ne_nil hqueue
            exact .op (.netlink (@Serves.nlRecv version .netlink smooth _ m rest hcons)) (Option.some_ne_none m)
              (.other nofun)
          · cases op with
            | malloc => exact .op (.netlink (@Serves.malloc version .netlink smooth _ true)) rfl (.other nofun)
            | connSend m =>
                exact .op (.netlink (@Serves.connSend version .netlink smooth _ m true)) rfl (.other nofun)
            | overread n =>
                exact .op (.netlink (@Serves.overread version .netlink smooth _ n (zeros n))) trivial (.other nofun)
            | _ => exact hop.elim
  | remote p =>
      obtain ⟨honly, g, hcosts, -, hwaits⟩ := h
      refine .inr ?_
      cases p with
      | ret rvalue => exact .done .remoteDone
      | call op k =>
          cases op with
          | getsockopt => exact .op (.remote (@Serves.getsockopt version .remote smooth _ true)) rfl (.other nofun)
          | connRecv =>
              obtain ⟨m, rest, hcons⟩ := List.exists_cons_of_ne_nil (hwaits (not_taken hcosts))
              exact .op (.remote (@Serves.connRecv version .remote smooth _ (some m)))
                (Option.some_ne_none m) (hcons ▸ Takes.next)
          | overread n =>
              exact .op (.remote (@Serves.overread version .remote smooth _ n (zeros n))) trivial (.other nofun)
          | nlSend m =>
              obtain ⟨env, r, hr⟩ := netlinkRecv_total version m
              exact .op (.remote (@Serves.nlSend version .remote env _ m r hr)) trivial (.other nofun)
          | nlRecv =>
              obtain ⟨m, rest, hcons⟩ := List.exists_cons_of_ne_nil (queue_ne_nil hinv)
              exact .op (.remote (@Serves.nlRecv version .remote smooth _ m rest hcons)) (Option.some_ne_none m)
                (.other nofun)
          | _ => exact honly.1.elim

end

/-! ## Runs -/

section
variable {link : Link} {s s' : State} {p : Party} {n : Nat}

theorem Inv.expected (h : Inv link s) {e : Event DaemonI} {env : Kernel.RecvEnv} {inbound : List Message}
    {proxy : Proxy.State} (hstep : Proxy.Step link.version (link.pid p) (s p).proxy (.op e env) proxy)
    (hinbound : (s p).inbound = receivedBy e ++ inbound) (hserved : ServedEvent e) :
    match (s p).proxy.phase with
    | .netlink _ _ => Expected .netlink e
    | .remote _ => Expected .remote e
    | _ => True := by
  have hproxy := h.proxy p
  have hwhole := h.whole p
  rw [hinbound] at hwhole
  generalize (s p).proxy = σ at hstep hproxy
  cases hstep with
  | @netlink w w' op k rm r env hserves =>
      cases hserves with
      | nlRecvFails => exact absurd rfl hserved
      | @nlRecv m rest hqueue =>
          obtain ⟨inHand, -, hheld⟩ := Holds.handlerInv hproxy
          obtain ⟨rest', hq, -, hfo⟩ := hheld.queue
          rw [hqueue, List.nil_append] at hq
          exact ⟨m, rfl, hfo m (hq ▸ List.mem_cons_self)⟩
      | _ => exact trivial
  | @remote w w' op k r env hserves =>
      cases hserves with
      | connRecv r =>
          rintro m rfl
          exact hwhole m (List.mem_append_right _ List.mem_cons_self)
      | _ => exact trivial

theorem spent_step {q : Party} {l : Proxy.Label} (hinv : Inv link s) (h : Spent (s p) n)
    (hstep : Step link s (q, l) s') (hhealthy : Healthy s (q, l)) : Spent (s' p) (n + work p (q, l)) := by
  obtain ⟨hsmooth, hserved⟩ := hhealthy
  cases hstep with
  | @op _ e env inbound proxy hstep htakes =>
      by_cases hq : p = q
      · subst hq
        have hinbound := htakes.eq_append hsmooth
        have hspent := h.op hstep hserved hinbound (hinv.expected hstep hinbound hserved)
        simpa [State.after, work, price] using hspent
      · have hspent := h.inbound (passedBy e)
        simpa [State.after, work, hq, Ne.symm hq] using hspent
  | @quiet _ _ proxy hstep hl =>
      by_cases hq : p = q
      · subst hq
        have hspent := h.quiet hstep hl hserved
        simpa [work] using hspent
      · simpa [work, hq, Ne.symm hq] using h

theorem spent_run {ls : List (Party × Proxy.Label)} (hrun : ((system link).restrict Healthy).Run ls s)
    (p : Party) : Inv link s ∧ Spent (s p) ((ls.map (work p)).sum) := by
  refine System.Run.weighed (I := fun n s => Inv link s ∧ Spent (s p) n) hrun ?_ ?_
  · intro s hs
    refine ⟨(system_inv link).init s hs, ?_⟩
    rw [hs p]
    exact Nat.zero_le _
  · rintro n s ⟨q, l⟩ s' ⟨hinv, hspent⟩ ⟨hstep, hhealthy⟩
    exact ⟨(system_inv link).step s _ s' hinv ⟨hstep, hhealthy.1⟩, spent_step hinv hspent hstep hhealthy⟩

/-- No more is taken than was queued. -/
theorem Inv.budget_le (h : Inv link s) (p : Party) : (s p).budget
    ≤ 5 * (s p).proxy.wire.queued.length + 6 * (s p.peer).proxy.wire.queued.length := by
  have hhandled : ∀ q, (s q).proxy.wire.handled.length ≤ (s q).proxy.wire.queued.length := by
    intro q
    rw [← (h.proxy q).delivery.queued, List.length_append]
    exact Nat.le_add_right _ _
  have hreceived : (s p).received.length ≤ (s p.peer).proxy.wire.handled.length := by
    obtain ⟨inHand, -, hpassed, -⟩ := (h.proxy p.peer).delivery.passed
    have hstream := h.stream p.peer
    rw [Party.peer_peer] at hstream
    have hlen := congrArg List.length hpassed
    rw [hstream] at hlen
    simp only [List.length_append, List.length_map] at hlen
    omega
  have hown := hhandled p
  have hpeer := hhandled p.peer
  unfold Side.budget
  omega

/-- Where both daemons are idle, nothing is on the way. -/
theorem Inv.delivered (h : Inv link s) (hidle : ∀ p, (s p).Idle) (p : Party) :
    (s p.peer).delivered = (s p).proxy.wire.queued.map (relayed (link.pid p.peer)) := by
  obtain ⟨handling, passing, -, -, horder, hhandling, hpassing⟩ := (h.conveys p).order
  have hloop : ∀ q, (s q).proxy.phase = .loop := fun q => (hidle q).phase
  rw [hhandling (by rw [hloop]; exact nofun), hpassing (by rw [hloop]; exact nofun), (hidle p).queue,
    (hidle p.peer).inbound] at horder
  simpa using horder

/-- An idle daemon has nothing to do. -/
theorem Side.Idle.price_eq_zero {l : Proxy.Label} (h : (s p).Idle) (hstep : Step link s (p, l) s')
    (hserved : Served s (p, l)) : price l = 0 := by
  have hphase := h.phase
  have hqueue := h.queue
  have hloop : ∀ {σ}, Proxy.Step link.version (link.pid p) (s p).proxy l σ → price l = 0 := by
    intro σ hstep
    unfold Served at hserved
    generalize (s p).proxy = τ at hphase hqueue hstep
    cases hstep with
    | queue m => rfl
    | selectNetlink rm hne => exact absurd hqueue hne
    | selectRemote _ => exact absurd h.inbound (hserved rfl)
    | control => exact hserved.elim
    | _ => cases hphase
  cases hstep with
  | op hstep _ => exact hloop hstep
  | quiet hstep _ => exact hloop hstep

theorem CanStep.step (h : CanStep link.version (link.pid p) (s p)) :
    ∃ l s', Step link s (p, l) s' ∧ Served s (p, l) ∧ price l = 1 := by
  cases h with
  | op hstep hserved htakes => exact ⟨_, _, .op hstep htakes, hserved, rfl⟩
  | select hstep hserved => exact ⟨_, _, .quiet hstep nofun, hserved, rfl⟩
  | done hstep => exact ⟨_, _, .quiet hstep nofun, trivial, rfl⟩

/-- In every healthy run a daemon takes at most five steps for each message that its own kernel has
queued and six for each of the other kernel, but for those of the handler that runs; and when
no daemon can take a step any more, all that was queued has been delivered, in order. -/
theorem drained_of_healthy {ls : List (Party × Proxy.Label)}
    (hrun : ((system link).restrict Healthy).Run ls s) :
    (∀ p, (ls.map (work p)).sum
      ≤ 5 * (s p).proxy.wire.queued.length + 6 * (s p.peer).proxy.wire.queued.length + 5) ∧
    ((∀ p l s', Step link s (p, l) s' → Served s (p, l) → price l = 0) → ∀ p,
      (s p.peer).delivered = (s p).proxy.wire.queued.map (relayed (link.pid p.peer))) := by
  refine ⟨fun p => ?_, fun hstuck => ?_⟩
  · obtain ⟨hinv, hspent⟩ := spent_run hrun p
    exact hspent.le.trans (Nat.add_le_add_right (hinv.budget_le p) 5)
  · obtain ⟨hinv, -⟩ := spent_run hrun .client
    refine hinv.delivered fun q => ?_
    have hcan : (s q).Idle ∨ CanStep link.version (link.pid q) (s q) :=
      (spent_run hrun q).2.canStep (hinv.proxy q)
    refine hcan.resolve_right fun hcan => ?_
    obtain ⟨l, s', hstep, hserved, hprice⟩ := hcan.step
    exact absurd (hstuck q l s' hstep hserved) (by rw [hprice]; decide)

end

/-- The client's daemon passes on one message in five steps, and the server's delivers it in six. -/
theorem drained_of_healthy_llseek : ∃ (ls : List (Party × Proxy.Label)) (s : State),
    (ls.map (work .client)).sum = 5 ∧ (ls.map (work .server)).sum ≤ 5 * 0 + 6 * 1 + 5 ∧
      (s .server).delivered = [relayed 9 llseekMessage] := by
  have run : ((system Sample.link).restrict Healthy).Run [] _ :=
    .init (s := fun _ => ⟨⟨.empty, .loop⟩, [], [], []⟩) fun _ => rfl
  have run := run.step ⟨.quiet (p := .client) (.queue llseekFo) nofun, Sample.carried_llseek, trivial⟩
  have run := run.step
    ⟨.quiet (p := .client) (.selectNetlink false (List.cons_ne_nil _ _)) nofun, trivial, nofun⟩
  have run := run.step
    ⟨.op (p := .client) (.netlink (@Serves.nlRecv 2 .netlink smooth _ _ _ rfl)) (.other nofun),
      Option.some_ne_none _, Option.some_ne_none _⟩
  have run := run.step
    ⟨.op (p := .client) (.netlink (@Serves.malloc 2 .netlink smooth _ true)) (.other nofun), rfl, rfl⟩
  have run := run.step
    ⟨.op (p := .client) (.netlink (@Serves.connSend 2 .netlink smooth _ _ true)) (.other nofun), rfl, rfl⟩
  have run := run.step ⟨.quiet (p := .client) .netlinkDone nofun, trivial, trivial⟩
  have run := run.step
    ⟨.quiet (p := .server) (.selectRemote rfl) nofun, trivial, fun _ => List.cons_ne_nil _ _⟩
  have run := run.step
    ⟨.op (p := .server) (.remote (@Serves.getsockopt 2 .remote smooth _ true)) (.other nofun), trivial, rfl⟩
  have run := run.step
    ⟨.op (p := .server) (.remote (@Serves.connRecv 2 .remote smooth _ (some (frameOf llseekMessage)))) .next,
      ⟨Option.some_ne_none _, rfl⟩, Option.some_ne_none _⟩
  have run := run.step
    ⟨.op (p := .server) (.remote (@Serves.nlSend 2 .remote smooth _ _ _ Sample.netlinkRecv_relayed)) (.other nofun),
      ⟨rfl, rfl, rfl⟩, trivial⟩
  have run := run.step
    ⟨.op (p := .server) (.remote (@Serves.nlRecv 2 .remote smooth _ _ _ rfl)) (.other nofun),
      Option.some_ne_none _, Option.some_ne_none _⟩
  have run := run.step ⟨.quiet (p := .server) .remoteDone nofun, trivial, trivial⟩
  obtain ⟨hbounded, hdelivered⟩ := drained_of_healthy run
  refine ⟨_, _, rfl, hbounded .server, hdelivered (fun p l s' hstep hserved => ?_) .client⟩
  refine Side.Idle.price_eq_zero ?_ hstep hserved
  cases p with
  | client => exact ⟨rfl, rfl, rfl⟩
  | server => exact ⟨rfl, rfl, rfl⟩

end Netdev.Daemon.Tunnel
