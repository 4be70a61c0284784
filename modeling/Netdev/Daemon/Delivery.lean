-- SUMMARY: No file operation is lost in the proxy, provided that its netlink socket is empty whenever it sends.
import Netdev.Daemon.Proxy

/-!
# Delivery of file operations

`netlink_send_nlh` takes the next message on the socket as its confirmation. That
is the acknowledgement only if no kernel thread queued a message before the
daemon's own was handled. In the runs where the socket is empty whenever the
daemon sends, every file operation goes to the peer once and in order.
-/

namespace Netdev.Daemon
open Base Prog

namespace Proxy

/-! ## What is asked of a state -/

/-- Every file operation that was queued has been read by `proxy_handle_netlink` or
still waits, once each and in order; all that were read have been passed to
`conn_send`, but perhaps the one being handled; no confirmation was a file
operation, and no acknowledgement was handled as an unknown message. -/
structure Delivery (s : State) : Prop where
  queued : s.wire.handled ++ s.wire.queue.filter (isFileOperation ·.msgtype) = s.wire.queued
  passed : ∃ inHand : List NlMessage, inHand.length ≤ 1 ∧
    s.wire.passed ++ inHand.map frameOf = s.wire.handled.map frameOf ∧
    ((∀ p rm, s.phase ≠ .netlink p rm) → inHand = [])
  confirmed : ∀ m ∈ s.wire.confirmed, isFileOperation m.msgtype = false
  handled : ∀ m ∈ s.wire.handled, m.msgtype ≠ NLMSG_ERROR

/-- The condition on an operation of a handler: the socket is empty when the daemon
sends, the kernel answers with an acknowledgement and nothing else, the confirmation can be
read, and `proxy_handle_netlink` gets its memory. -/
def Guard (version : Int32) (handler : Handler) (w : Wire) (env : Kernel.RecvEnv) :
    Event DaemonI → Prop
  | ⟨.nlSend m, _⟩ => w.queue = [] ∧
      ∃ err task, Kernel.netlinkRecv env version m = some ⟨none, some err, task⟩
  | ⟨.nlRecv, r⟩ => handler = .remote → r ≠ none
  | ⟨.malloc, ok⟩ => handler = .netlink → ok = true
  | _ => True

/-- The steps on which no message can be taken for another. -/
def Orderly (version : Int32) (s : State) : Label → Prop
  | .op e env =>
      match s.phase with
      | .netlink _ _ => Guard version .netlink s.wire env e
      | .remote _ => Guard version .remote s.wire env e
      | _ => True
  | _ => True

/-! ## The invariant -/

/-- The socket holds `acks` and behind them file operations; `inHand` are read but
not yet passed on. -/
structure Held (acks inHand : List NlMessage) (w : Wire) : Prop where
  queue : ∃ rest, w.queue = acks ++ rest ∧ w.handled ++ rest = w.queued ∧ ∀ m ∈ rest, IsFo m
  passed : w.passed ++ inHand.map frameOf = w.handled.map frameOf
  acks : ∀ m ∈ acks, m.msgtype = NLMSG_ERROR
  confirmed : ∀ m ∈ w.confirmed, isFileOperation m.msgtype = false
  handled : ∀ m ∈ w.handled, IsFo m

/-- Nothing is in hand while `proxy_handle_remote` runs, and no acknowledgement is
left while `proxy_handle_netlink` does. -/
def HandlerInv (handler : Handler) (w : Wire) : Prop :=
  match handler with
  | .remote => ∃ acks, Held acks [] w
  | .netlink => ∃ inHand : List NlMessage, inHand.length ≤ 1 ∧ Held [] inHand w

def QueueStep (w w' : Wire) : Prop := ∃ m : FoMessage, w' = w.queueFo m.val

theorem Held.queueFo {acks inHand : List NlMessage} {w : Wire} (h : Held acks inHand w)
    (m : FoMessage) : Held acks inHand (w.queueFo m.val) := by
  obtain ⟨rest, hqueue, hqueued, hrest⟩ := h.queue
  refine ⟨⟨rest ++ [m.val], ?_, ?_, ?_⟩, h.passed, h.acks, h.confirmed, h.handled⟩
  · rw [Wire.queueFo, hqueue, List.append_assoc]
  · rw [Wire.queueFo, ← hqueued, List.append_assoc]
  · intro m' hm'
    rcases List.mem_append.mp hm' with hm' | hm'
    · exact hrest m' hm'
    · rw [List.mem_singleton.mp hm']
      exact m.property

theorem HandlerInv.step {handler : Handler} {w w' : Wire} (h : HandlerInv handler w)
    (hq : QueueStep w w') : HandlerInv handler w' := by
  obtain ⟨m, rfl⟩ := hq
  cases handler with
  | remote =>
      obtain ⟨acks, h⟩ := h
      exact ⟨acks, h.queueFo m⟩
  | netlink =>
      obtain ⟨inHand, hlen, h⟩ := h
      exact ⟨inHand, hlen, h.queueFo m⟩

theorem Held.queues {acks inHand : List NlMessage} {w w' : Wire} (h : Held acks inHand w)
    (hq : Relation.ReflTransGen QueueStep w w') : Held acks inHand w' := by
  induction hq with
  | refl => exact h
  | tail _ hstep ih =>
      obtain ⟨m, rfl⟩ := hstep
      exact ih.queueFo m

/-! ## The handlers -/

/-- The environment of a handler: before each operation the kernel threads may
queue messages. -/
def handlerEnv (version : Int32) (handler : Handler) : Env DaemonI Wire :=
  fun w e w'' => ∃ w' env, Relation.ReflTransGen QueueStep w w' ∧
    Guard version handler w' env e ∧ Serves version handler env w' e w''

/-- The precondition of a handler at any of its points. -/
def Holds (version : Int32) (handler : Handler) (p : DaemonM Int32) (w : Wire) : Prop :=
  wp (handlerEnv version handler) (HandlerInv handler) (fun _ => Held [] []) p w

theorem Holds.step {version : Int32} {handler : Handler} {p : DaemonM Int32} {w w' : Wire}
    (h : Holds version handler p w) (hq : QueueStep w w') : Holds version handler p w' := by
  refine wp.stable h hq ?_ ?_ ?_
  · rintro w w' e w'' hq ⟨w₁, env, hqs, hguard, hserves⟩
    exact ⟨w₁, env, .head hq hqs, hguard, hserves⟩
  · intro w w' hq hj
    exact hj.step hq
  · rintro _ w _ ⟨m, rfl⟩ hheld
    exact hheld.queueFo m

/-- A file operation is taken off the socket. -/
theorem Held.take {w : Wire} {m : NlMessage} {rest : List NlMessage} (h : Held [] [] w)
    (hqueue : w.queue = m :: rest) : IsFo m ∧ Held [] [m] (w.recv m rest .netlink) := by
  obtain ⟨rest', hq, hqueued, hrest⟩ := h.queue
  rw [hqueue, List.nil_append] at hq
  subst hq
  have hm : IsFo m := hrest m List.mem_cons_self
  have hpassed := h.passed
  rw [List.map_nil, List.append_nil] at hpassed
  refine ⟨hm, ⟨rest, rfl, ?_, ?_⟩, ?_, h.acks, h.confirmed, ?_⟩
  · rw [Wire.recv, List.append_assoc]
    exact hqueued
  · exact fun m' hm' => hrest m' (List.mem_cons_of_mem m hm')
  · rw [Wire.recv, hpassed, List.map_append]
  · intro m' hm'
    rcases List.mem_append.mp hm' with hm' | hm'
    · exact h.handled m' hm'
    · rw [List.mem_singleton.mp hm']
      exact hm

/-- The message in hand is passed on. -/
theorem Held.pass {w : Wire} {m : NlMessage} (h : Held [] [m] w) :
    Held [] [] { w with passed := w.passed ++ [frameOf m] } := by
  refine ⟨h.queue, ?_, h.acks, h.confirmed, h.handled⟩
  rw [List.map_nil, List.append_nil]
  exact h.passed

theorem proxyHandleNetlink_spec {version : Int32} {w : Wire} (h : Held [] [] w) :
    Holds version .netlink proxyHandleNetlink w := by
  refine ⟨⟨[], Nat.zero_le 1, h⟩, ?_⟩
  rintro answer w₂ ⟨w₁, env, hqs, -, hserves⟩
  cases hserves with
  | nlRecvFails => exact h.queues hqs
  | @nlRecv m rest hqueue =>
      obtain ⟨hm, h₂⟩ := (h.queues hqs).take hqueue
      simp only [Prog.bind]
      rw [if_pos hm.msgtype]
      refine ⟨⟨[m], Nat.le_refl 1, h₂⟩, ?_⟩
      rintro ok w₄ ⟨w₃, env, hqs, hguard, hserves⟩
      have h₃ := h₂.queues hqs
      cases hserves
      rw [hguard rfl]
      have hread : readBuf m.bytes m.header.nlmsgLen.toNat
          = .ret (m.bytes.take m.header.nlmsgLen.toNat) := if_pos hm.length
      change wp _ _ _ (readBuf m.bytes m.header.nlmsgLen.toNat >>= _) _
      rw [hread]
      refine ⟨⟨[m], Nat.le_refl 1, h₃⟩, ?_⟩
      rintro ok w₅ ⟨w₄, env, hqs, -, hserves⟩
      have h₄ := h₃.queues hqs
      cases hserves
      exact h₄.pass

/-- The kernel's acknowledgement is put on the empty socket. -/
theorem Held.send {w : Wire} {m : NlMessage} {err : Int32} {task : Bool} (h : Held [] [] w)
    (hempty : w.queue = []) :
    Held [m.ack err] [] { w with
      queue := w.queue ++ (Kernel.RecvResult.mk none (some err) task).queued m } := by
  obtain ⟨rest, hq, hqueued, hrest⟩ := h.queue
  refine ⟨⟨rest, ?_, hqueued, hrest⟩, h.passed, ?_, h.confirmed, h.handled⟩
  · rw [hempty, List.nil_append] at hq
    rw [hempty, ← hq]
    rfl
  · intro a ha
    rw [List.mem_singleton.mp ha]
    exact NlMessage.ack_msgtype m err

/-- The acknowledgement is read as the confirmation. -/
theorem Held.confirm {w : Wire} {a m : NlMessage} {rest : List NlMessage} (h : Held [a] [] w)
    (hqueue : w.queue = m :: rest) : Held [] [] (w.recv m rest .remote) := by
  obtain ⟨rest', hq, hqueued, hrest⟩ := h.queue
  rw [hqueue] at hq
  obtain ⟨rfl, rfl⟩ := List.cons.inj hq
  refine ⟨⟨rest, rfl, hqueued, hrest⟩, h.passed, nofun, ?_, h.handled⟩
  intro m' hm'
  rcases List.mem_append.mp hm' with hm' | hm'
  · exact h.confirmed m' hm'
  · rw [List.mem_singleton.mp hm', h.acks m (List.mem_singleton_self m)]
    exact isFileOperation_NLMSG_ERROR

theorem readBuf_remote {version : Int32} {w : Wire} {buf : Bytes} {n : Nat}
    {f : Bytes → DaemonM Int32} (h : Held [] [] w)
    (hf : ∀ r w', Held [] [] w' → Holds version .remote (f r) w') :
    Holds version .remote (readBuf buf n >>= f) w := by
  unfold readBuf
  split
  · exact hf _ w h
  · refine ⟨⟨[], h⟩, ?_⟩
    rintro rest w₂ ⟨w₁, env, hqs, -, hserves⟩
    have h₁ := h.queues hqs
    cases hserves
    exact hf _ _ h₁

theorem netlinkSendConfirmed_remote {version : Int32} {m : NlMessage} {w : Wire}
    {f : Int32 → DaemonM Int32} (h : Held [] [] w)
    (hf : ∀ r w', Held [] [] w' → Holds version .remote (f r) w') :
    Holds version .remote (netlinkSendConfirmed m >>= f) w := by
  refine wp_bind ⟨⟨[], h⟩, ?_⟩
  rintro verdict w₂ ⟨w₁, env, hqs, ⟨hempty, err, task, hguard⟩, hserves⟩
  have h₁ := h.queues hqs
  cases hserves with
  | nlSend hr =>
      rw [hguard] at hr
      cases hr
      have h₂ := @Held.send _ m err task h₁ hempty
      refine ⟨⟨[m.ack err], h₂⟩, ?_⟩
      rintro answer w₄ ⟨w₃, env, hqs, hread, hserves⟩
      have h₃ := h₂.queues hqs
      cases hserves with
      | nlRecvFails => exact absurd rfl (hread rfl)
      | nlRecv hqueue =>
          have h₄ := h₃.confirm hqueue
          simp only [Prog.bind]
          split_ifs
          · exact hf _ _ h₄
          · exact hf _ _ h₄
          · exact hf _ _ h₄

theorem proxyHandleRemote_spec {version : Int32} {pid : UInt32} {w : Wire} (h : Held [] [] w) :
    Holds version .remote (proxyHandleRemote pid) w := by
  refine ⟨⟨[], h⟩, ?_⟩
  rintro ok w₂ ⟨w₁, env, hqs, -, hserves⟩
  have h₁ := h.queues hqs
  cases hserves
  cases ok with
  | false => exact h₁
  | true =>
      refine ⟨⟨[], h₁⟩, ?_⟩
      rintro answer w₃ ⟨w₂, env, hqs, -, hserves⟩
      have h₂ := h₁.queues hqs
      cases hserves
      cases answer with
      | none => exact h₂
      | some ndhead =>
          simp only [Prog.bind]
          split
          · unfold asNlMessage
            rw [bind_assoc']
            refine readBuf_remote h₂ fun head w' h' => ?_
            rw [bind_assoc']
            refine readBuf_remote h' fun sent w' h' => ?_
            rw [bind_assoc']
            refine readBuf_remote h' fun skb w' h' => ?_
            exact netlinkSendConfirmed_remote h' fun _ w' h' => h'
          · exact h₂

/-! ## Runs -/

/-- The invariant of the system: what the current handler needs. -/
def Inv (version : Int32) (s : State) : Prop :=
  match s.phase with
  | .loop => Held [] [] s.wire
  | .netlink p _ => Holds version .netlink p s.wire
  | .remote p => Holds version .remote p s.wire
  | .ended => Held [] [] s.wire

theorem Holds.handlerInv {version : Int32} {handler : Handler} {p : DaemonM Int32} {w : Wire}
    (h : Holds version handler p w) : HandlerInv handler w := by
  cases p with
  | call op k => exact h.1
  | ret a =>
      cases handler with
      | remote => exact ⟨[], h⟩
      | netlink => exact ⟨[], Nat.zero_le 1, h⟩

theorem Holds.op {version : Int32} {handler : Handler} {op : DaemonOp}
    {k : op.Res → DaemonM Int32} {r : op.Res} {env : Kernel.RecvEnv} {w w' : Wire}
    (h : Holds version handler (.call op k) w) (hguard : Guard version handler w env ⟨op, r⟩)
    (hserves : Serves version handler env w ⟨op, r⟩ w') : Holds version handler (k r) w' :=
  h.2 r w' ⟨w, env, .refl, hguard, hserves⟩

theorem inv_queue {version : Int32} {s : State} (h : Inv version s) (m : FoMessage) :
    Inv version { s with wire := s.wire.queueFo m.val } := by
  rcases s with ⟨w, phase⟩
  have hq : QueueStep w (w.queueFo m.val) := ⟨m, rfl⟩
  cases phase with
  | loop => exact Held.queueFo h m
  | netlink p rm => exact Holds.step h hq
  | remote p => exact Holds.step h hq
  | ended => exact Held.queueFo h m

theorem system_invariant (version : Int32) (pid : UInt32) :
    ((system version pid).restrict (Orderly version)).Invariant (Inv version) where
  init := by
    rintro s rfl
    exact ⟨⟨[], rfl, rfl, nofun⟩, rfl, nofun, nofun, nofun⟩
  step := by
    rintro s l s' hinv ⟨hstep, horderly⟩
    cases hstep with
    | queue m => exact inv_queue hinv m
    | selectNetlink rm _ => exact proxyHandleNetlink_spec hinv
    | selectRemote _ => exact proxyHandleRemote_spec hinv
    | control => exact hinv
    | netlink hserves => exact Holds.op hinv horderly hserves
    | remote hserves => exact Holds.op hinv horderly hserves
    | @netlinkDone w rvalue rm =>
        have hheld : Held [] [] w := hinv
        by_cases hend : rvalue = -1
        · rw [if_pos hend]
          exact hheld
        · rw [if_neg hend]
          cases rm with
          | true => exact proxyHandleRemote_spec hheld
          | false => exact hheld
    | @remoteDone w rvalue =>
        have hheld : Held [] [] w := hinv
        by_cases hend : rvalue = -1
        · rw [if_pos hend]
          exact hheld
        · rw [if_neg hend]
          exact hheld

theorem Held.delivery {acks inHand : List NlMessage} {s : State} (h : Held acks inHand s.wire)
    (hlen : inHand.length ≤ 1) (hidle : (∀ p rm, s.phase ≠ .netlink p rm) → inHand = []) :
    Delivery s := by
  obtain ⟨rest, hq, hqueued, hrest⟩ := h.queue
  refine ⟨?_, ⟨inHand, hlen, h.passed, hidle⟩, h.confirmed, ?_⟩
  · have hacks : acks.filter (isFileOperation ·.msgtype) = [] := by
      rw [List.filter_eq_nil_iff]
      intro a ha
      rw [h.acks a ha, isFileOperation_NLMSG_ERROR]
      exact Bool.false_ne_true
    have hfo : rest.filter (isFileOperation ·.msgtype) = rest := by
      rw [List.filter_eq_self]
      exact fun m hm => (hrest m hm).msgtype
    rw [hq, List.filter_append, hacks, hfo, List.nil_append, hqueued]
  · intro m hm hack
    have hfo := (h.handled m hm).msgtype
    rw [hack, isFileOperation_NLMSG_ERROR] at hfo
    cases hfo

theorem Inv.delivery {version : Int32} {s : State} (h : Inv version s) : Delivery s := by
  rcases s with ⟨w, phase⟩
  cases phase with
  | loop => exact Held.delivery h (Nat.zero_le 1) fun _ => rfl
  | ended => exact Held.delivery h (Nat.zero_le 1) fun _ => rfl
  | remote p =>
      obtain ⟨acks, hheld⟩ := Holds.handlerInv h
      exact hheld.delivery (Nat.zero_le 1) fun _ => rfl
  | netlink p rm =>
      obtain ⟨inHand, hlen, hheld⟩ := Holds.handlerInv h
      exact hheld.delivery hlen fun hidle => absurd rfl (hidle p rm)

/-- In every run whose steps are orderly, every state keeps the promise. -/
theorem delivery_of_orderly (version : Int32) (pid : UInt32) {ls : List Label} {s : State}
    (hrun : ((system version pid).restrict (Orderly version)).Run ls s) : Delivery s :=
  (hrun.invariant (system_invariant version pid)).delivery

/-! ## Two short runs -/

/-- An `llseek` message without arguments for the daemon 7. -/
def llseekMessage : NlMessage where
  header := ⟨16, 101, NLM_F_ACK, 1, 7⟩
  payload := []

def llseekFo : FoMessage := ⟨llseekMessage, rfl, Nat.le_refl 16⟩

/-- The kernel finds the device and can start the thread. -/
def smooth : Kernel.RecvEnv := ⟨true, 0, true, 0⟩

theorem netlinkRecv_llseekMessage :
    Kernel.netlinkRecv smooth 2 llseekMessage = some ⟨none, some 0, true⟩ := by
  decide

/-- A kernel thread queues a message while `proxy_handle_remote` is about to send: it
is taken for the confirmation, and the acknowledgement then ends the loop. -/
theorem delivery_fails : ∃ ls s, (system 2 7).Run ls s ∧ s.phase = .ended ∧
    s.wire.queued = [llseekMessage] ∧ s.wire.passed = [] ∧ ¬ Delivery s := by
  have run : (system 2 7).Run [] _ := .init rfl
  have run := run.step (.selectRemote rfl)
  have run := run.step (.remote (@Serves.getsockopt 2 .remote smooth _ true))
  have run := run.step (.remote (@Serves.connRecv 2 .remote smooth _ (some (frameOf llseekMessage))))
  have run := run.step (.queue llseekFo)
  have run := run.step (.remote (@Serves.nlSend 2 .remote smooth _ _ _ netlinkRecv_llseekMessage))
  have run := run.step (.remote (@Serves.nlRecv 2 .remote smooth _ _ _ rfl))
  have run := run.step .remoteDone
  have run := run.step (.selectNetlink false (List.cons_ne_nil _ _))
  have run := run.step (.netlink (@Serves.nlRecv 2 .netlink smooth _ _ _ rfl))
  have run := run.step .netlinkDone
  refine ⟨_, _, run, rfl, rfl, rfl, ?_⟩
  intro h
  have hfo := h.confirmed llseekMessage (List.mem_singleton_self _)
  exact absurd hfo (by decide)

/-- The same messages the other way round: the socket is empty when the daemon sends. -/
theorem delivery_of_orderly_llseek : ∃ s, s.wire.queued = [llseekMessage] ∧
    s.wire.confirmed = [llseekMessage.ack 0] ∧ Delivery s := by
  have run : ((system 2 7).restrict (Orderly 2)).Run [] _ := .init rfl
  have run := run.step ⟨.selectRemote rfl, trivial⟩
  have run := run.step ⟨.remote (@Serves.getsockopt 2 .remote smooth _ true), trivial⟩
  have run := run.step
    ⟨.remote (@Serves.connRecv 2 .remote smooth _ (some (frameOf llseekMessage))), trivial⟩
  have run := run.step
    ⟨.remote (@Serves.nlSend 2 .remote smooth _ _ _ netlinkRecv_llseekMessage),
      rfl, 0, true, netlinkRecv_llseekMessage⟩
  have run := run.step ⟨.queue llseekFo, trivial⟩
  have run := run.step ⟨.remote (@Serves.nlRecv 2 .remote smooth _ _ _ rfl), fun _ => Option.some_ne_none _⟩
  exact ⟨_, rfl, rfl, delivery_of_orderly 2 7 run⟩

end Proxy

end Netdev.Daemon
