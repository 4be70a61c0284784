-- SUMMARY: Without their blocks the functions of the daemon are those of the other modules: what they return there they may return here.
import Netdev.Base.Refines
import Netdev.Daemon.Handshake
import Netdev.Daemon.Memory
import Netdev.Daemon.Proxy

/-!
# Forgetting the blocks

The functions of `Memory` and those over `DaemonOp` are the same functions of the source. Here
every run of the former that returns is matched by one of the latter: a block that is allocated
is an answer of `malloc`, what `recvall` stores in two rounds is a message, and uses and frees
disappear.
-/

namespace Netdev.Daemon.Memory
open Base Prog

/-! ## Answers -/

/-- What is read from the netlink socket for good holds a header, and an acknowledgement holds
its error. -/
def FromKernel : Event (HeapI calls) → Prop
  | ⟨.call (.recvall .nl false _ _), r⟩ => ∀ bytes, r = some bytes → sizeof Nlmsghdr ≤ bytes.length ∧
      ((NlMessage.read bytes).msgtype = NLMSG_ERROR → sizeof Nlmsghdr + sizeof Int32 ≤ bytes.length)
  | _ => True

/-- The steps of a process on a heap, with such a kernel. -/
def Steps : Prog.Env (HeapI calls) Heap := fun h e h' => Heap.Serves calls h e h' ∧ FromKernel e

/-- Some state admits the answer. -/
def Possible (e : Event (HeapI calls)) : Prop := ∃ h h', Steps h e h'

/-- Each run of `p` that returns is one of `q`, up to what they return. -/
abbrev Forgets {α β : Type} (R : α → β → Prop) (p : MemoryM α) (q : DaemonM β) : Prop :=
  Refines Possible (fun _ => True) R p q

section
variable {α β : Type} {R : α → β → Prop} {p : Pointer} {op : Syscall} {r : op.Res}

theorem Possible.use (h : Possible ⟨.use p, ()⟩) : p ≠ .null := by
  obtain ⟨h, h', hserves, -⟩ := h
  cases hserves
  simp

theorem Possible.answers (h : Possible ⟨.call op, r⟩) : calls.Answers ⟨op, r⟩ ∧ FromKernel ⟨.call op, r⟩ := by
  obtain ⟨h, h', hserves, hkernel⟩ := h
  cases hserves with
  | call hr => exact ⟨hr, hkernel⟩

/-- What is allocated is there or not. -/
theorem forgets_malloc {n : Nat} {k : Pointer → MemoryM α} {k' : Bool → DaemonM β}
    (h : ∀ p, Forgets R (k p) (k' (p ≠ .null))) : Forgets R (.call (.malloc n) k) (.call .malloc k') :=
  refines_left fun p _ => refines_right (decide (p ≠ .null)) trivial (h p)

/-- The same null pointer is looked at on both sides. -/
theorem forgets_null {q q' : DaemonM β} {m m' : MemoryM α} (h : p = .null → Forgets R m q)
    (h' : p ≠ .null → Forgets R m' q') :
    Forgets R (if p = .null then m else m') (if (!decide (p ≠ .null)) = true then q else q') := by
  by_cases hp : p = .null
  · simpa [hp] using h hp
  · simpa [hp] using h' hp

theorem forgets_use {k : Unit → MemoryM α} {q : DaemonM β} (h : p ≠ .null → Forgets R (k ()) q) :
    Forgets R (.call (.use p) k) q :=
  refines_left fun _ hr => h hr.use

theorem forgets_free {k : Unit → MemoryM α} {q : DaemonM β} (h : Forgets R (k ()) q) :
    Forgets R (.call (.free p) k) q :=
  refines_left fun _ _ => h

/-- Nothing is known of what lies behind a buffer. -/
theorem readBuf_returns {buf : Bytes} {n : Nat} {a : Bytes} (h : (readBuf p buf n).Returns Possible a) :
    p ≠ .null ∧ ∃ rest, a = buf.take n ++ rest ∧ (n ≤ buf.length → rest = []) := by
  obtain ⟨_, huse, h⟩ := h
  refine ⟨huse.use, ?_⟩
  simp only at h
  split at h
  · cases h
    exact ⟨[], by simp, fun _ => rfl⟩
  · rename_i hlong
    obtain ⟨rest, -, h⟩ := h
    cases h
    refine ⟨rest.val, ?_, fun hn => absurd hn hlong⟩
    rw [List.take_of_length_le (Nat.le_of_lt (Nat.lt_of_not_le hlong))]

/-- What lies there is the same on both sides. -/
theorem readBuf_forgets (p : Pointer) (buf : Bytes) (n : Nat) :
    Forgets (· = ·) (readBuf p buf n) (Daemon.readBuf buf n) := by
  refine refines_left fun _ _ => ?_
  simp only [Prog.bind, Daemon.readBuf]
  by_cases hn : n ≤ buf.length
  · rw [if_pos hn, if_pos hn]
    exact refines_ret rfl
  · rw [if_neg hn, if_neg hn]
    exact refines_left fun rest _ => refines_right rest trivial (refines_ret rfl)

theorem exists_readBuf (buf : Bytes) (n : Nat) : ∃ b, (Daemon.readBuf buf n).Returns (fun _ => True) b := by
  unfold Daemon.readBuf
  split
  · exact ⟨_, rfl⟩
  · exact ⟨_, zeros _, trivial, rfl⟩

theorem exists_readString (buf : Bytes) : ∃ b, (readString buf).Returns (fun _ => True) b := by
  unfold readString
  split
  · exact ⟨_, rfl⟩
  · exact ⟨_, [], trivial, rfl⟩

theorem exists_asNlMessage (pid : UInt32) (payload : Bytes) :
    ∃ b, (asNlMessage pid payload).Returns (fun _ => True) b := by
  obtain ⟨header, hheader⟩ := exists_readBuf payload (sizeof Nlmsghdr)
  let nlh := NlMessage.read (header ++ payload.drop (sizeof Nlmsghdr))
  obtain ⟨sent, hsent⟩ := exists_readBuf (nlh.fromPid pid).bytes nlh.header.nlmsgLen.toNat
  obtain ⟨skb, hskb⟩ := exists_readBuf sent (max (sizeof Nlmsghdr) nlh.header.nlmsgLen.toNat)
  exact ⟨_, hheader.bind (hsent.bind (hskb.bind rfl))⟩

end

/-! ## `netlink.c` -/

/-- A buffer in which a datagram of the kernel was received. -/
structure Datagram (buf : Bytes) : Prop where
  header : sizeof Nlmsghdr ≤ buf.length
  error : (NlMessage.read buf).msgtype = NLMSG_ERROR → sizeof Nlmsghdr + sizeof Int32 ≤ buf.length

/-- The message in a block, or the null pointer where there is none. -/
def SameNlh (nlh : Nlh) (m : Option NlMessage) : Prop :=
  nlh.self = .null ∧ m = none ∨ nlh.self ≠ .null ∧ m = some (.read nlh.buf) ∧ Datagram nlh.buf

/-- The header is in front. -/
theorem read_header {buf rest : Bytes} {n : Nat} (hn : sizeof Nlmsghdr ≤ n) (hbuf : sizeof Nlmsghdr ≤ buf.length) :
    (NlMessage.read (buf.take n ++ rest)).header = (NlMessage.read buf).header := by
  have hle : sizeof Nlmsghdr ≤ (buf.take n).length := by
    rw [List.length_take]
    exact Nat.le_min.mpr ⟨hn, hbuf⟩
  have htake : (buf.take n ++ rest).take (sizeof Nlmsghdr) = buf.take (sizeof Nlmsghdr) := by
    rw [List.take_append_of_le_length hle, List.take_take, Nat.min_eq_left hn]
  rw [NlMessage.read, NlMessage.read, htake]

section
variable (pdev : Pdev) (pid : UInt32) (version : Int32)

theorem netlinkRecv_forgets : Forgets SameNlh (netlinkRecv pdev) (Daemon.sys .nlRecv) := by
  have hnone : Forgets SameNlh (.ret .null) (Daemon.sys .nlRecv) :=
    refines_right none trivial (refines_ret (.inl ⟨rfl, rfl⟩))
  refine refines_left fun buffer _ => refines_left fun _ _ => refines_left fun r _ => ?_
  cases r with
  | none => exact forgets_free hnone
  | some head =>
      refine refines_left fun _ _ => refines_left fun buffer' _ => refines_left fun r hr => ?_
      cases r with
      | none => exact forgets_free hnone
      | some buf =>
          obtain ⟨hanswers, hkernel⟩ := hr.answers
          obtain ⟨hheader, herror⟩ := hkernel buf rfl
          have hne := (hanswers.1 buf rfl).1
          exact refines_right (some (.read buf)) trivial (refines_ret (.inr ⟨hne, rfl, hheader, herror⟩))

theorem netlinkSendNlh_forgets (p : Pointer) (nlh : NlMessage) :
    Forgets (· = ·) (netlinkSendNlh pdev p) (netlinkSendConfirmed nlh) := by
  refine refines_left fun _ _ => forgets_use fun hp => ?_
  -- `sendall` is done whether it fails or not
  have hsend : Forgets (fun rvalue rvalue' => rvalue = 0 ∧ rvalue' = 0) (netlinkSend pdev p)
      (Daemon.netlinkSend nlh) := by
    unfold netlinkSend
    rw [if_neg hp]
    refine refines_left fun _ _ => refines_left fun _ _ => refines_left fun ok _ => ?_
    exact refines_right none trivial (refines_ret ⟨rfl, rfl⟩)
  refine hsend.bind ?_
  rintro _ _ ⟨rfl, rfl⟩
  refine (netlinkRecv_forgets pdev).bind ?_
  rintro nlh' m (⟨hnull, rfl⟩ | ⟨hne, rfl, hdatagram⟩)
  · rw [if_pos hnull]
    exact refines_ret rfl
  rw [if_neg hne]
  refine refines_left_bind (fun _ => readBuf_returns) ?_
  rintro _ ⟨-, rest, rfl, hwhole⟩
  refine forgets_free ?_
  have hheader := @read_header nlh'.buf rest (sizeof Nlmsghdr + sizeof Int32) (Nat.le_add_right _ _)
    hdatagram.header
  have htype : (NlMessage.read (nlh'.buf.take (sizeof Nlmsghdr + sizeof Int32) ++ rest)).msgtype
      = (NlMessage.read nlh'.buf).msgtype := by
    rw [NlMessage.msgtype, hheader, NlMessage.msgtype]
  rw [htype]
  by_cases hack : (NlMessage.read nlh'.buf).msgtype = NLMSG_ERROR
  · have herror : (NlMessage.read (nlh'.buf.take (sizeof Nlmsghdr + sizeof Int32) ++ rest)).error
        = (NlMessage.read nlh'.buf).error := by
      rw [hwhole (hdatagram.error hack), List.append_nil]
      simp only [NlMessage.error, NlMessage.read, List.drop_take, Nat.add_sub_cancel_left, asInt_take]
    rw [herror]
    by_cases hok : (NlMessage.read nlh'.buf).error = 0
    · simp only [hack, hok, and_self, if_true, ne_eq, not_true_eq_false, if_false]
      exact refines_ret rfl
    · simp only [hack, hok, and_false, if_false, if_true, ne_eq, not_false_eq_true]
      exact refines_ret rfl
  · simp only [hack, false_and, if_false]
    exact refines_ret rfl

theorem netlinkSendMsg_forgets (buff : Pointer) (n : Nat) (bytes : Bytes) (msgtype : Int32) (flags : UInt16) :
    Forgets (· = ·) (netlinkSendMsg pdev buff n) (Daemon.netlinkSendMsg pid bytes msgtype flags) := by
  have hsend (nlh : Pointer) : Forgets (fun a b : Int32 => a = b) (do
      if (← netlinkSendNlh pdev nlh) = -1 then
        return -1
      free nlh
      return 0) (do
      if (← Daemon.netlinkSendNlh pid (.build pid msgtype (flags ||| NLM_F_ACK) bytes)) = -1 then
        return -1
      return 0) := by
    refine (netlinkSendNlh_forgets pdev nlh _).bind ?_
    rintro rvalue _ rfl
    exact refines_ite_ite (fun _ => refines_ret rfl) fun _ => forgets_free (refines_ret rfl)
  refine forgets_malloc fun nlh => forgets_null (fun _ => refines_ret rfl) fun _ => ?_
  refine refines_left fun _ _ => refines_left fun _ _ => refines_ite (fun _ => ?_) fun _ => hsend nlh
  exact refines_left fun _ _ => hsend nlh

theorem netlinkRegDummyDev_forgets (name : Bytes) :
    Forgets (· = ·) (netlinkRegDummyDev pdev) (Daemon.netlinkRegDummyDev pid name) :=
  refines_left fun _ _ => refines_left fun _ _ => netlinkSendMsg_forgets pdev pid _ _ _ _ _

theorem netlinkRegRemoteDev_forgets (name : Bytes) :
    Forgets (· = ·) (netlinkRegRemoteDev pdev) (Daemon.netlinkRegRemoteDev pid name) :=
  refines_left fun _ _ => refines_left fun _ _ => netlinkSendMsg_forgets pdev pid _ _ _ _ _

theorem netlinkSetup_forgets : Forgets (fun r rvalue => r.1 = rvalue) (netlinkSetup pdev) Daemon.netlinkSetup := by
  refine refines_left fun _ _ => refines_left fun ok _ => refines_right ok trivial ?_
  cases ok with
  | false => exact refines_ret rfl
  | true =>
      -- the addresses are written to
      refine refines_left fun src _ => refines_left fun dst _ => forgets_use fun hsrc => forgets_use fun hdst => ?_
      refine refines_right true trivial (refines_right true trivial ?_)
      refine refines_left fun ok _ => refines_right ok trivial ?_
      cases ok with
      | false => exact refines_ret rfl
      | true => exact refines_ret rfl

/-! ## `conn.c` -/

/-- The message in two blocks, or the null pointer where there is none. -/
def SameMessage (ndhead : Ndhead) (m : Option Message) : Prop :=
  ndhead.self = .null ∧ m = none ∨
    ndhead.self ≠ .null ∧ m = some ⟨ndhead.msgtype, ndhead.buf⟩ ∧ ndhead.buf.length = ndhead.size.toNat

theorem connSend_forgets (ndhead : Ndhead) (m : Message) :
    Forgets (fun rvalue ok => ok = decide (rvalue ≠ -1)) (connSend pdev ndhead) (Daemon.sys (.connSend m)) := by
  refine refines_left fun _ _ => refines_left fun buff _ => refines_ite (fun _ => ?_) fun _ => ?_
  · exact refines_right false trivial (refines_ret rfl)
  refine refines_left fun _ _ => refines_left fun _ _ => refines_left fun _ _ => refines_left fun ok _ => ?_
  cases ok with
  | false => exact forgets_free (refines_right false trivial (refines_ret rfl))
  | true => exact forgets_free (refines_right true trivial (refines_ret rfl))

theorem connRecv_forgets : Forgets SameMessage (connRecv pdev) (Daemon.sys .connRecv) := by
  have hnone : Forgets SameMessage (.ret .null) (Daemon.sys .connRecv) :=
    refines_right none trivial (refines_ret (.inl ⟨rfl, rfl⟩))
  refine refines_left fun self _ => refines_left fun _ _ => refines_left fun r hr => ?_
  cases r with
  | none => exact hnone
  | some head =>
      have hself := (hr.answers.1.1 head rfl).1
      refine refines_left fun _ _ => refines_left fun payload _ => refines_left fun r hr => ?_
      cases r with
      | none => exact forgets_free hnone
      | some buf =>
          have hanswers := hr.answers.1
          have hlen : buf.length = (ofBytes head : NetdevHeader).size.toNat :=
            Nat.le_antisymm (hanswers.2 buf rfl) (hanswers.1 buf rfl).2.2
          exact refines_right (some ⟨(ofBytes head : NetdevHeader).msgtype, buf⟩) trivial
            (refines_ret (.inr ⟨hself, rfl, hlen⟩))

/-- A part that frees a message. -/
theorem freeMessage_forgets {α β : Type} {R : α → β → Prop} {ndhead : Ndhead} {k : Unit → MemoryM α} {q : DaemonM β}
    (h : ndhead.self ≠ .null → Forgets R (k ()) q) : Forgets R (freeMessage ndhead >>= k) q :=
  forgets_use fun hne => forgets_free (forgets_free (h hne))

theorem connServer_forgets :
    Forgets (fun r rvalue => r.1 = rvalue) (connServer version pdev) (Daemon.connServer version) := by
  refine refines_left fun _ _ => refines_left fun ok _ => refines_right ok trivial ?_
  cases ok with
  | false => exact refines_ret rfl
  | true =>
      refine forgets_malloc fun addr => forgets_null (fun _ => refines_ret rfl) fun _ => ?_
      refine refines_left fun _ _ => refines_left fun _ _ => refines_left fun ok _ => refines_right ok trivial ?_
      cases ok with
      | false => exact refines_ret rfl
      | true =>
          refine forgets_malloc fun self => forgets_null (fun _ => refines_ret rfl) fun _ => ?_
          -- the payload is written to
          refine refines_left fun _ _ => refines_left fun payload _ => ?_
          refine forgets_use fun _ => refines_right true trivial ?_
          refine (connSend_forgets pdev _ (versionMessage version)).bind ?_
          rintro rvalue _ rfl
          by_cases hunsent : rvalue = -1
          · rw [if_pos hunsent, hunsent]
            exact freeMessage_forgets fun _ => refines_ret rfl
          rw [if_neg hunsent]
          refine freeMessage_forgets fun _ => ?_
          have hanswered : (!decide (rvalue ≠ -1)) = false := by simp [hunsent]
          rw [hanswered]
          refine (connRecv_forgets pdev).bind ?_
          rintro ndhead m (⟨hnull, rfl⟩ | ⟨hne, rfl, -⟩)
          · rw [if_pos hnull]
            exact freeMessage_forgets fun hne => absurd hnull hne
          rw [if_neg hne]
          -- whatever the answer is, 0 is returned
          have hzero (size value : Prop) [Decidable size] [Decidable value] :
              Forgets (fun r rvalue => r.1 = rvalue) (.ret ((0 : Int32), { pdev with rmAddr := addr }))
                (if size then .ret 0 else if value then .ret 0 else .ret 0) := by
            split_ifs
            · exact refines_ret rfl
            · exact refines_ret rfl
            · exact refines_ret rfl
          refine refines_left fun _ _ => refines_ite (fun _ => ?_) fun _ => refines_left fun _ _ => ?_
          · exact freeMessage_forgets fun _ => hzero _ _
          · exact freeMessage_forgets fun _ => hzero _ _

theorem size_eq_iff {ndhead : Ndhead} (hlen : ndhead.buf.length = ndhead.size.toNat) :
    ndhead.size = UInt64.ofNat (sizeof Int32) ↔ (⟨ndhead.msgtype, ndhead.buf⟩ : Message).size = sizeof Int32 := by
  rw [Message.size, hlen, ← UInt64.toNat_inj]
  exact Iff.rfl

theorem connClient_forgets : Forgets (· = ·) (connClient version pdev) (Daemon.connClient version) := by
  refine (connRecv_forgets pdev).bind ?_
  rintro ndhead m (⟨hnull, rfl⟩ | ⟨hne, rfl, hlen⟩)
  · exact forgets_use fun hne => absurd hnull hne
  refine refines_left fun _ _ => ?_
  simp only [Prog.bind]
  by_cases hsize : ndhead.size = UInt64.ofNat (sizeof Int32)
  swap
  · have hsize' := mt (size_eq_iff hlen).mpr hsize
    simp only [ne_eq, hsize, hsize', not_false_eq_true, if_true]
    exact refines_ret rfl
  have hsize' := (size_eq_iff hlen).mp hsize
  simp only [ne_eq, hsize, hsize', not_true_eq_false, if_false]
  refine refines_left_bind (fun _ => readBuf_returns) ?_
  rintro _ ⟨-, rest, rfl, hwhole⟩
  rw [hwhole (Nat.le_of_eq hsize'.symm), List.append_nil, asInt_take]
  refine (connSend_forgets pdev _ _).bind ?_
  rintro rvalue _ rfl
  by_cases hunsent : rvalue = -1
  · simp only [hunsent, if_true, ne_eq, not_true_eq_false, decide_false, Bool.not_false]
    exact freeMessage_forgets fun _ => refines_ret rfl
  · simp only [hunsent, if_false, ne_eq, not_false_eq_true, decide_true, Bool.not_true, Bool.false_eq_true]
    exact freeMessage_forgets fun _ => refines_ret rfl

theorem connSendDevReg_forgets (remoteDevName dummyDevName : Bytes) :
    Forgets (· = ·) (connSendDevReg pdev) (Daemon.connSendDevReg pid remoteDevName dummyDevName) := by
  refine forgets_malloc fun self => forgets_null (fun _ => refines_ret rfl) fun _ => ?_
  refine refines_left fun _ _ => refines_left fun _ _ => refines_left fun len _ => ?_
  refine (connSend_forgets pdev _ (regMessage remoteDevName)).bind ?_
  rintro rvalue _ rfl
  by_cases hunsent : rvalue = -1
  · simp only [hunsent, if_true, ne_eq, not_true_eq_false, decide_false, Bool.not_false]
    exact forgets_free (refines_ret rfl)
  simp only [hunsent, if_false, ne_eq, not_false_eq_true, decide_true, Bool.not_true, Bool.false_eq_true]
  refine forgets_free ?_
  refine (connRecv_forgets pdev).bind ?_
  rintro ndhead m (⟨hnull, rfl⟩ | ⟨hne, rfl, -⟩)
  · rw [if_pos hnull]
    exact refines_ret rfl
  rw [if_neg hne]
  refine refines_left fun _ _ => ?_
  change Forgets _ (readBuf ndhead.payload ndhead.buf (sizeof Int32) >>= _) _
  refine (readBuf_forgets _ _ _).bind ?_
  rintro buf _ rfl
  refine refines_ite_ite (fun _ => refines_ret rfl) fun _ => ?_
  refine (netlinkRegDummyDev_forgets pdev pid dummyDevName).bind ?_
  rintro rvalue _ rfl
  exact refines_ite_ite (fun _ => refines_ret rfl) fun _ => refines_ret rfl

theorem connRecvDevReg_forgets :
    Forgets (fun r rvalue => r.1 = rvalue) (connRecvDevReg pdev) (Daemon.connRecvDevReg pid) := by
  refine (connRecv_forgets pdev).bind ?_
  rintro ndhead m (⟨hnull, rfl⟩ | ⟨-, rfl, -⟩)
  · exact forgets_use fun hne => absurd hnull hne
  refine refines_left fun _ _ => ?_
  simp only [Prog.bind]
  refine refines_ite_ite (fun _ => refines_ret rfl) fun _ => ?_
  refine forgets_malloc fun name => refines_left fun _ _ => forgets_null (fun _ => refines_ret rfl) fun _ => ?_
  refine refines_left fun _ _ => refines_left fun _ _ => ?_
  obtain ⟨string, hstring⟩ := exists_readString ndhead.buf
  refine refines_right_bind hstring ?_
  simp only [Prog.bind]
  refine (netlinkRegRemoteDev_forgets { pdev with remoteDevName := name } pid string).bind ?_
  rintro rvalue _ rfl
  refine refines_ite_ite (fun _ => refines_ret rfl) fun _ => ?_
  -- the reply is written to
  refine refines_left fun payload _ => refines_left fun _ _ => refines_right true trivial ?_
  simp only [Prog.bind, Bool.not_true, Bool.false_eq_true, if_false]
  obtain ⟨reply, hreply⟩ := exists_readBuf (toBytes NETDEV_PROTOCOL_SUCCESS)
    (⟨ndhead.msgtype, ndhead.buf⟩ : Message).size
  refine refines_right_bind hreply ?_
  refine (connSend_forgets _ _ ⟨ndhead.msgtype, reply⟩).bind ?_
  rintro rvalue _ rfl
  by_cases hunsent : rvalue = -1
  · simp only [hunsent, if_true, ne_eq, not_true_eq_false, decide_false, Bool.not_false]
    exact refines_ret rfl
  · simp only [hunsent, if_false, ne_eq, not_false_eq_true, decide_true, Bool.not_true, Bool.false_eq_true]
    exact forgets_free (refines_ret rfl)

/-! ## `proxy.c` -/

theorem proxyHandleNetlink_forgets : Forgets (· = ·) (proxyHandleNetlink pdev) Daemon.proxyHandleNetlink := by
  refine (netlinkRecv_forgets pdev).bind ?_
  rintro nlh m (⟨hnull, rfl⟩ | ⟨hne, rfl, hdatagram⟩)
  · rw [if_pos hnull]
    exact forgets_free (refines_ret rfl)
  rw [if_neg hne]
  refine refines_left_bind (fun _ => readBuf_returns) ?_
  rintro _ ⟨-, rest, rfl, hwhole⟩
  rw [hwhole hdatagram.header, List.append_nil]
  have hheader : (NlMessage.read (nlh.buf.take (sizeof Nlmsghdr))).header = (NlMessage.read nlh.buf).header := by
    rw [NlMessage.read, List.take_take, Nat.min_self, NlMessage.read]
  have htype : (NlMessage.read (nlh.buf.take (sizeof Nlmsghdr))).msgtype = (NlMessage.read nlh.buf).msgtype := by
    rw [NlMessage.msgtype, hheader, NlMessage.msgtype]
  simp only [htype]
  refine refines_ite_ite (fun _ => ?_) fun _ => forgets_free (refines_ret rfl)
  refine forgets_malloc fun self => forgets_null (fun _ => forgets_free (refines_ret rfl)) fun _ => ?_
  refine refines_left fun _ _ => ?_
  obtain ⟨payload, hpayload⟩ := exists_readBuf (NlMessage.read nlh.buf).bytes
    (NlMessage.read nlh.buf).header.nlmsgLen.toNat
  refine refines_right_bind hpayload ?_
  refine (connSend_forgets pdev _ ⟨(NlMessage.read nlh.buf).msgtype, payload⟩).bind fun _ _ _ => ?_
  exact forgets_free (forgets_free (refines_ret rfl))

theorem proxyHandleRemote_forgets :
    Forgets (· = ·) (proxyHandleRemote pdev) (Daemon.proxyHandleRemote pid) := by
  refine refines_left fun _ _ => refines_left fun ok _ => refines_right ok trivial ?_
  cases ok with
  | false => exact refines_ret rfl
  | true =>
      refine (connRecv_forgets pdev).bind ?_
      rintro ndhead m (⟨hnull, rfl⟩ | ⟨hne, rfl, -⟩)
      · rw [if_pos hnull]
        exact refines_ret rfl
      rw [if_neg hne]
      refine refines_left fun _ _ => ?_
      simp only [Prog.bind]
      refine refines_ite_ite (fun _ => ?_) fun _ => forgets_free (refines_ret rfl)
      obtain ⟨nlh, hnlh⟩ := exists_asNlMessage pid ndhead.buf
      refine refines_right_bind hnlh ?_
      refine (netlinkSendNlh_forgets pdev ndhead.payload nlh).bind fun _ _ _ => ?_
      exact freeMessage_forgets fun _ => refines_ret rfl

/-- The device of a proxy whose loop begins is there. -/
def SameStart (r : Option Pdev) (ok : Bool) : Prop := ok = r.isSome

/-- A client that gives up. -/
theorem giveUp_forgets : Forgets SameStart (do
    proxyDestroy pdev
    return none) (.ret false) := by
  refine forgets_use fun _ => ?_
  iterate 8 refine forgets_free ?_
  exact refines_ret rfl

theorem proxyClient_forgets (remoteDevName dummyDevName : Bytes) :
    Forgets SameStart (proxyClient version pdev) (Daemon.proxyClient version pid remoteDevName dummyDevName) := by
  refine refines_left fun _ _ => refines_left fun ok _ => refines_right ok trivial ?_
  cases ok with
  | false => exact giveUp_forgets pdev
  | true =>
      refine (netlinkSetup_forgets pdev).bind ?_
      rintro ⟨rvalue, pdev⟩ _ rfl
      refine refines_ite_ite (fun _ => giveUp_forgets pdev) fun _ => ?_
      refine (connServer_forgets pdev version).bind ?_
      rintro ⟨rvalue, pdev⟩ _ rfl
      refine refines_ite_ite (fun _ => giveUp_forgets pdev) fun _ => ?_
      refine (connSendDevReg_forgets pdev pid remoteDevName dummyDevName).bind ?_
      rintro rvalue _ rfl
      exact refines_ite_ite (fun _ => giveUp_forgets pdev) fun _ => refines_ret rfl

theorem proxyServer_forgets : Forgets SameStart (proxyServer version) (Daemon.proxyServer version pid) := by
  refine forgets_malloc fun self => ?_
  by_cases hself : self = .null
  · subst hself
    exact refines_ret rfl
  have hthere : (!decide (self ≠ .null)) = false := by simp [hself]
  simp only [Prog.bind, hthere, hself, Bool.false_eq_true, if_false]
  -- the address of the client may be missing
  refine refines_left fun addr _ => refines_right (decide (addr ≠ .null)) trivial ?_
  refine refines_left fun ok _ => refines_right ok trivial ?_
  cases ok with
  | false => exact refines_ret rfl
  | true =>
      refine refines_left fun _ _ => ?_
      simp only [pure_eq_ret, Prog.bind, hself, Bool.not_true, Bool.false_eq_true, if_false]
      refine refines_left fun _ _ => refines_left fun ok _ => refines_right ok trivial ?_
      cases ok with
      | false => exact refines_ret rfl
      | true =>
          refine (netlinkSetup_forgets _).bind ?_
          rintro ⟨rvalue, pdev⟩ _ rfl
          refine refines_ite_ite (fun _ => refines_ret rfl) fun _ => ?_
          refine (connClient_forgets pdev version).bind ?_
          rintro rvalue _ rfl
          refine refines_ite_ite (fun _ => refines_ret rfl) fun _ => ?_
          refine (connRecvDevReg_forgets pdev pid).bind ?_
          rintro ⟨rvalue, pdev⟩ _ rfl
          exact refines_ite_ite (fun _ => refines_ret rfl) fun _ => refines_ret rfl

end

/-! ## Executions -/

section
variable {α β : Type} {R : α → β → Prop} {p : MemoryM α} {q : DaemonM β} {h h' : Heap} {a : α} {pdev : Pdev}
  {version rvalue : Int32} {r : Option Pdev}

/-- On whatever heap the left program begins. -/
theorem Forgets.reaches (hpq : Forgets R p q) (hr : Reaches Steps p h (.ret a) h') :
    ∃ b t, Reaches anything q [] (.ret b) t ∧ R a b :=
  Refines.reaches hpq (fun s _ s' he => ⟨s, s', he⟩) (fun t e _ => ⟨record t e, trivial, rfl⟩) hr []

/-- A client comes to its loop or gives up as it does without its blocks. -/
theorem proxyClient_reaches (hr : Reaches Steps (proxyClient version pdev) h (.ret r) h') (pid : UInt32)
    (remoteDevName dummyDevName : Bytes) : ∃ t, Reaches anything
      (Daemon.proxyClient version pid remoteDevName dummyDevName) [] (.ret r.isSome) t := by
  obtain ⟨ok, t, ht, rfl⟩ := (proxyClient_forgets pdev pid version remoteDevName dummyDevName).reaches hr
  exact ⟨t, ht⟩

theorem proxyServer_reaches (hr : Reaches Steps (proxyServer version) h (.ret r) h') (pid : UInt32) :
    ∃ t, Reaches anything (Daemon.proxyServer version pid) [] (.ret r.isSome) t := by
  obtain ⟨ok, t, ht, rfl⟩ := (proxyServer_forgets pid version).reaches hr
  exact ⟨t, ht⟩

/-- So do the handlers of the loop go on or end it. -/
theorem proxyHandleNetlink_reaches (hr : Reaches Steps (proxyHandleNetlink pdev) h (.ret rvalue) h') :
    ∃ t, Reaches anything Daemon.proxyHandleNetlink [] (.ret rvalue) t := by
  obtain ⟨_, t, ht, rfl⟩ := (proxyHandleNetlink_forgets pdev).reaches hr
  exact ⟨t, ht⟩

theorem proxyHandleRemote_reaches (hr : Reaches Steps (proxyHandleRemote pdev) h (.ret rvalue) h') (pid : UInt32) :
    ∃ t, Reaches anything (Daemon.proxyHandleRemote pid) [] (.ret rvalue) t := by
  obtain ⟨_, t, ht, rfl⟩ := (proxyHandleRemote_forgets pdev pid).reaches hr
  exact ⟨t, ht⟩

end

end Netdev.Daemon.Memory
