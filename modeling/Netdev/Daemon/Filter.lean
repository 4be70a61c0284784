-- SUMMARY: Which frames of the peer `proxy_handle_remote` turns into file operations for the kernel.
import Mathlib.Data.List.Basic
import Netdev.Base.Inside
import Netdev.Daemon.Proxy

/-!
# The filter of the proxy

`proxy_handle_remote` looks at the type in the frame, and the kernel at the type in
the message inside of it. The peer chooses both.
-/

namespace Netdev.Daemon
open Base Prog

/-- The field `nlmsg_type` of the message in a payload, as the kernel compares it, when it is in
the bytes that are sent. -/
def nestedType (payload : Bytes) : Mem Int32 := do
  let nlmsgLen ← load UInt32 payload 0
  let nlmsgType ← load UInt16 (payload.take nlmsgLen.toNat) (sizeof UInt32)
  return Int32.ofNat nlmsgType.toNat

/-- The frame is refused, or the message inside of it is a file operation as well. -/
def Consistent (frame : Message) : Prop :=
  isFileOperation frame.msgtype = true →
    ∃ t, nestedType frame.payload = .ok t ∧ isFileOperation t = true

/-- All messages that `proxy_handle_remote` passes to the kernel, when it receives this
frame, are file operations. -/
def PassesFileOperations (pid : UInt32) (frame : Message) : Prop :=
  ∀ q h, Reaches anything (proxyHandleRemote pid) [] q h → received h = [frame] →
    ∀ p ∈ nlSent h, isFileOperation p.1.msgtype = true

/-! ## Reading the payload -/

/-- The field `nlmsg_type` of a header, and what the kernel makes of it. -/
def typeAt (buf : Bytes) : Int32 :=
  Int32.ofNat (ofBytes ((buf.drop (sizeof UInt32)).take (sizeof UInt16)) : UInt16).toNat

theorem nestedType_eq_ok {payload : Bytes} {t : Int32} (h : nestedType payload = .ok t) :
    sizeof UInt32 + sizeof UInt16 ≤ payload.length ∧
      sizeof UInt32 + sizeof UInt16 ≤ (peek UInt32 0 payload).toNat ∧ typeAt payload = t := by
  obtain ⟨nlmsgLen, hlen, h⟩ := Mem.bind_eq_ok h
  obtain ⟨nlmsgType, htype, h⟩ := Mem.bind_eq_ok h
  obtain rfl := Except.ok.inj h
  unfold load at hlen htype
  split at hlen
  · obtain rfl := Except.ok.inj hlen
    split at htype
    · rename_i hle
      obtain rfl := Except.ok.inj htype
      rw [List.length_take] at hle
      refine ⟨by omega, ?_, ?_⟩
      · change _ ≤ (ofBytes ((payload.drop 0).take (sizeof UInt32)) : UInt32).toNat
        omega
      · rw [List.drop_take, List.take_take, Nat.min_eq_left (by omega)]
        rfl
    · cases htype
  · cases hlen

/-- When it is there, it is sent. -/
theorem nestedType_ok {payload : Bytes} (hpayload : sizeof UInt32 + sizeof UInt16 ≤ payload.length)
    (hlen : sizeof UInt32 + sizeof UInt16 ≤ (peek UInt32 0 payload).toNat) :
    nestedType payload = .ok (typeAt payload) := by
  have htype : load UInt16 (payload.take (peek UInt32 0 payload).toNat) (sizeof UInt32)
      = .ok (peek UInt16 (sizeof UInt32) (payload.take (peek UInt32 0 payload).toNat)) := by
    apply load_of_le
    rw [List.length_take]
    omega
  unfold nestedType
  rw [@load_of_le UInt32 _ payload 0 (by omega), Mem.bind_ok, htype, Mem.bind_ok]
  unfold peek typeAt
  rw [List.drop_take, List.take_take, Nat.min_eq_left (by unfold peek at hlen; omega)]
  rfl

/-- What a heap buffer looks like to a longer read. -/
def Extends (buf out : Bytes) (n : Nat) : Prop := ∃ rest, out = (buf ++ rest).take n ∧ out.length = n

theorem Extends.take {buf out : Bytes} {n k : Nat} (h : Extends buf out n) (hbuf : k ≤ buf.length) (hn : k ≤ n) :
    out.take k = buf.take k := by
  obtain ⟨rest, rfl, -⟩ := h
  rw [List.take_take, Nat.min_eq_left hn, List.take_append_of_le_length hbuf]

theorem typeAt_congr {buf out : Bytes} (h : out.take (sizeof UInt32 + sizeof UInt16) =
    buf.take (sizeof UInt32 + sizeof UInt16)) : typeAt out = typeAt buf := by
  have hfield : ∀ b : Bytes, (b.drop (sizeof UInt32)).take (sizeof UInt16)
      = (b.take (sizeof UInt32 + sizeof UInt16)).drop (sizeof UInt32) := by
    intro b
    rw [List.drop_take, Nat.add_sub_cancel_left]
  unfold typeAt
  rw [hfield, hfield, h]

theorem length_peek_congr {buf out : Bytes} (h : out.take (sizeof UInt32) = buf.take (sizeof UInt32)) :
    peek UInt32 0 out = peek UInt32 0 buf := by
  unfold peek
  rw [List.drop_zero, List.drop_zero, h]

theorem msgtype_read (buf : Bytes) : (NlMessage.read buf).msgtype = typeAt (buf.take (sizeof Nlmsghdr)) := by
  have hfield : (((buf.take (sizeof Nlmsghdr)).drop (sizeof UInt32)).take (sizeof (UInt16 × UInt16))).take
      (sizeof UInt16) = ((buf.take (sizeof Nlmsghdr)).drop (sizeof UInt32)).take (sizeof UInt16) := by
    rw [List.take_take]
    rfl
  unfold typeAt
  rw [← hfield]
  rfl

/-- The pid is behind the type. -/
theorem fromPid_take {buf : Bytes} (h : sizeof Nlmsghdr ≤ buf.length) (pid : UInt32) :
    ((NlMessage.read buf).fromPid pid).bytes.take (sizeof UInt32 + sizeof UInt16)
      = buf.take (sizeof UInt32 + sizeof UInt16) := by
  let header : Nlmsghdr := ofBytes (buf.take (sizeof Nlmsghdr))
  let front := toBytes header.nlmsgLen ++ (toBytes (header.nlmsgType, header.nlmsgFlags) ++ toBytes header.nlmsgSeq)
  have hfront : front.length = 12 := by
    simp only [front, List.length_append, Layout.length_toBytes]
    rfl
  have hheader : toBytes header = front ++ toBytes header.nlmsgPid := by
    simp only [front, List.append_assoc]
    rfl
  have hbytes : ((NlMessage.read buf).fromPid pid).bytes
      = front ++ (toBytes pid ++ buf.drop (sizeof Nlmsghdr)) := by
    simp only [front, List.append_assoc]
    rfl
  have hbuf : buf = front ++ (toBytes header.nlmsgPid ++ buf.drop (sizeof Nlmsghdr)) := by
    have hround : toBytes header = buf.take (sizeof Nlmsghdr) := by
      apply Layout.toBytes_ofBytes
      rw [List.length_take, Nat.min_eq_left h]
    rw [← List.append_assoc, ← hheader, hround, List.take_append_drop]
  have hle : sizeof UInt32 + sizeof UInt16 ≤ front.length := by
    rw [hfront]
    decide
  rw [hbytes, List.take_append_of_le_length hle]
  conv_rhs => rw [hbuf, List.take_append_of_le_length hle]

/-! ## The message in the kernel -/

/-- The message at a payload, whose header was read as `buf`. -/
abbrev nested (payload buf : Bytes) : NlMessage := .read (buf ++ payload.drop (sizeof Nlmsghdr))

/-- What `asNlMessage` has read one after the other. -/
structure Reads (pid : UInt32) (payload buf datagram seen : Bytes) : Prop where
  header : Extends payload buf (sizeof Nlmsghdr)
  sent : Extends ((nested payload buf).fromPid pid).bytes datagram (nested payload buf).header.nlmsgLen.toNat
  skb : Extends datagram seen (max (sizeof Nlmsghdr) (nested payload buf).header.nlmsgLen.toNat)

section Reads
variable {pid : UInt32} {payload buf datagram seen : Bytes} {t : Int32}

theorem Reads.front (h : Reads pid payload buf datagram seen) {n : Nat} (hn : n ≤ sizeof UInt32 + sizeof UInt16)
    (hpayload : n ≤ payload.length) : (buf ++ payload.drop (sizeof Nlmsghdr)).take n = payload.take n := by
  have hsize : sizeof UInt32 + sizeof UInt16 ≤ sizeof Nlmsghdr := by decide
  obtain ⟨-, -, hlength⟩ := h.header
  rw [List.take_append_of_le_length (by omega), h.header.take hpayload (by omega)]

theorem nlmsgLen_read (buf : Bytes) : (NlMessage.read buf).header.nlmsgLen = peek UInt32 0 buf := by
  have hfield : (buf.take (sizeof Nlmsghdr)).take (sizeof UInt32) = (buf.drop 0).take (sizeof UInt32) := by
    rw [List.take_take]
    rfl
  unfold peek
  rw [← hfield]
  rfl

/-- A type that is sent is the one in the payload. -/
theorem Reads.msgtype (h : Reads pid payload buf datagram seen) (ht : nestedType payload = .ok t) :
    (NlMessage.read seen).msgtype = t := by
  obtain ⟨hpayload, hlen, rfl⟩ := nestedType_eq_ok ht
  have hsize : sizeof UInt32 + sizeof UInt16 ≤ sizeof Nlmsghdr := by decide
  have hbuf : buf.length = sizeof Nlmsghdr := h.header.choose_spec.2
  have hsame : (nested payload buf).header.nlmsgLen = peek UInt32 0 payload := by
    rw [nlmsgLen_read]
    exact length_peek_congr (h.front (Nat.le_add_right _ _) (by omega))
  have hsent := h.sent
  have hskb := h.skb
  rw [hsame] at hsent hskb
  have hdatagram : datagram.length = (peek UInt32 0 payload).toNat := hsent.choose_spec.2
  have hbytes : sizeof UInt32 + sizeof UInt16 ≤ ((nested payload buf).fromPid pid).bytes.length := by
    rw [NlMessage.bytes, List.length_append, Layout.length_toBytes]
    omega
  rw [msgtype_read]
  apply typeAt_congr
  rw [List.take_take, Nat.min_eq_left hsize, hskb.take (by omega) (by omega), hsent.take hbytes hlen,
    fromPid_take (by rw [List.length_append]; omega), h.front (Nat.le_refl _) hpayload]

end Reads

/-! ## What is passed on -/

/-- The messages to the kernel come from the one frame that was received. -/
def FromFrame (h : History) : Prop :=
  ∀ p ∈ nlSent h, ∃ frame, received h = [frame] ∧ isFileOperation frame.msgtype = true ∧
    ∀ t, nestedType frame.payload = .ok t → p.1.msgtype = t

theorem readBuf_extends {allowed : History → Event DaemonI → Prop} (buf : Bytes) (n : Nat) (h : History) :
    wp (recording allowed) (· = h) (fun r h' => h' = h ∧ Extends buf r n) (readBuf buf n) h := by
  unfold readBuf
  by_cases hle : n ≤ buf.length
  · rw [if_pos hle]
    refine ⟨rfl, [], ?_, ?_⟩
    · rw [List.append_nil]
    · rw [List.length_take, Nat.min_eq_left hle]
  · rw [if_neg hle]
    refine ⟨rfl, ?_⟩
    rintro rest h' ⟨-, hrec⟩
    have hlength : (buf ++ rest.val).length = n := by
      rw [List.length_append, rest.property]
      omega
    exact ⟨hrec, rest.val, by rw [List.take_of_length_le hlength.le], hlength⟩

theorem asNlMessage_spec {allowed : History → Event DaemonI → Prop} (pid : UInt32) (payload : Bytes) (h : History) :
    wp (recording allowed) (· = h) (fun nlh h' => h' = h ∧ ∀ t, nestedType payload = .ok t → nlh.msgtype = t)
      (asNlMessage pid payload) h := by
  refine wp_bind ((readBuf_extends payload _ h).mono (fun _ hj => hj) ?_)
  rintro buf _ ⟨rfl, hheader⟩
  refine wp_bind ((readBuf_extends _ _ _).mono (fun _ hj => hj) ?_)
  rintro sent _ ⟨rfl, hsent⟩
  refine wp_bind ((readBuf_extends sent _ _).mono (fun _ hj => hj) ?_)
  rintro skb _ ⟨rfl, hskb⟩
  change _ ∧ _
  exact ⟨rfl, fun t ht => Reads.msgtype ⟨hheader, hsent, hskb⟩ ht⟩

theorem proxyHandleRemote_fromFrame (pid : UInt32) :
    wp anything FromFrame (fun _ => FromFrame) (proxyHandleRemote pid) [] := by
  have hnone : ∀ {h}, nlSent h = [] → FromFrame h := by
    intro h hempty p hp
    rw [hempty] at hp
    cases hp
  refine ⟨hnone rfl, ?_⟩
  rintro (_ | _) _ ⟨-, rfl⟩
  · exact hnone rfl
  refine ⟨hnone rfl, ?_⟩
  rintro (_ | frame) _ ⟨-, rfl⟩
  · exact hnone rfl
  change wp _ _ _ (if _ then _ else _) _
  by_cases hfo : isFileOperation frame.msgtype = true
  · rw [if_pos hfo]
    refine wp_bind ((asNlMessage_spec pid frame.payload _).mono ?_ ?_)
    · rintro _ rfl
      exact hnone rfl
    rintro nlh _ ⟨rfl, htype⟩
    have hone : ∀ {h}, received h = [frame] → (∀ p ∈ nlSent h, p.1 = nlh) → FromFrame h := by
      intro h hreceived hsent p hp
      refine ⟨frame, hreceived, hfo, fun t ht => ?_⟩
      rw [hsent p hp]
      exact htype t ht
    have hsingle : ∀ {p : NlMessage × Option Int32} {verdict}, p ∈ [(nlh, verdict)] →
        p.1 = nlh := fun hp => congrArg Prod.fst (List.mem_singleton.mp hp)
    refine wp_bind ((netlinkSendConfirmed_spec nlh _).mono ?_ ?_)
    · intro h hconfirming
      cases hconfirming with
      | start => exact hnone rfl
      | sent verdict => exact hone rfl fun p hp => hsingle hp
    · intro rvalue h hconfirmed
      cases hconfirmed with
      | unsent => exact hnone rfl
      | failed verdict answer => exact hone rfl fun p hp => hsingle hp
      | ok verdict answer => exact hone rfl fun p hp => hsingle hp
  · rw [if_neg hfo]
    exact hnone rfl

/-! ## Executions -/

/-- The first `n` bytes at a buffer with ones behind it. -/
def fill (buf : Bytes) (n : Nat) : Bytes := (buf ++ List.replicate n 255).take n

theorem fill_extends (buf : Bytes) (n : Nat) : Extends buf (fill buf n) n := by
  refine ⟨_, rfl, ?_⟩
  simp only [fill, List.length_take, List.length_append, List.length_replicate]
  omega

/-- A byte of it. -/
theorem getElem?_fill (buf : Bytes) {n i : Nat} (hi : i < n) :
    (fill buf n)[i]? = if i < buf.length then buf[i]? else some 255 := by
  unfold fill
  rw [List.getElem?_take_of_lt hi]
  split
  · rename_i hlt
    exact List.getElem?_append_left hlt
  · rename_i hge
    rw [List.getElem?_append_right (by omega), List.getElem?_replicate, if_pos (by omega)]

/-- What is behind a buffer on the heap may be anything. -/
theorem reaches_readBuf {p : DaemonM Int32} {h h' : History} {buf : Bytes} {n : Nat} {f : Bytes → DaemonM Int32}
    (hp : Reaches anything p h (readBuf buf n >>= f) h') : Reaches anything p h (f (fill buf n)) h' := by
  unfold readBuf at hp
  unfold fill
  by_cases hle : n ≤ buf.length
  · rw [if_pos hle] at hp
    rw [List.take_append_of_le_length hle]
    exact hp
  · rw [if_neg hle] at hp
    have hread := Reaches.answer hp ⟨List.replicate (n - buf.length) 255, List.length_replicate⟩
    have hbuf : (buf ++ List.replicate n 255).take n = buf ++ List.replicate (n - buf.length) 255 := by
      rw [List.take_append, List.take_of_length_le (by omega), List.take_replicate, Nat.min_eq_left (by omega)]
    rw [hbuf]
    exact hread

/-- The message that is passed on when all memory behind the buffers is full of ones. -/
def filled (pid : UInt32) (payload : Bytes) : Bytes :=
  let nlh := nested payload (fill payload (sizeof Nlmsghdr))
  fill (fill (nlh.fromPid pid).bytes nlh.header.nlmsgLen.toNat) (max (sizeof Nlmsghdr) nlh.header.nlmsgLen.toNat)

theorem filled_reads (pid : UInt32) (payload : Bytes) : ∃ datagram,
    Reads pid payload (fill payload (sizeof Nlmsghdr)) datagram (filled pid payload) :=
  ⟨_, fill_extends _ _, fill_extends _ _, fill_extends _ _⟩

/-- A frame with the type of a file operation is passed on, whatever is inside. -/
theorem exists_passed (pid : UInt32) {frame : Message} (hfo : isFileOperation frame.msgtype = true) :
    ∃ q h, Reaches anything (proxyHandleRemote pid) [] q h ∧ received h = [frame] ∧
      nlSent h = [(.read (filled pid frame.payload), none)] := by
  have hframe := Reaches.answer (Reaches.answer (.start (p := proxyHandleRemote pid) (s := [])) true) (some frame)
  change Reaches anything _ _ (if isFileOperation frame.msgtype = true then
    asNlMessage pid frame.payload >>= fun nlh => netlinkSendConfirmed nlh >>= fun _ => .ret 0 else .ret (-1)) _ at hframe
  rw [if_pos hfo, asNlMessage, bind_assoc'] at hframe
  have hheader := reaches_readBuf hframe
  rw [bind_assoc'] at hheader
  have hdatagram := reaches_readBuf hheader
  rw [bind_assoc'] at hdatagram
  have hmessage := reaches_readBuf hdatagram
  have hsent := Reaches.answer hmessage none
  exact ⟨_, _, hsent, rfl, rfl⟩

/-! ## The filter -/

/-- No file operation has so large a type. -/
theorem typeAt_large {buf : Bytes} (h : buf[5]? = some 255) : isFileOperation (typeAt buf) = false := by
  have hlen : 5 < buf.length := (List.getElem?_eq_some_iff.mp h).1
  obtain ⟨b, c, hbytes⟩ := List.length_eq_two.mp (by simp; omega : ((buf.drop 4).take 2).length = 2)
  have hc : c = 255 := by
    have hget : ((buf.drop 4).take 2)[1]? = some 255 := by
      rw [List.getElem?_take_of_lt (by omega), List.getElem?_drop]
      exact h
    rw [hbytes] at hget
    exact Option.some.inj hget
  subst hc
  have hb : b.toNat < 256 := b.toNat_lt
  have hnat : (ofBytes [b, 255] : UInt16).toNat = b.toNat + 256 * 255 := by
    have hvalue : leNat [b, 255] = b.toNat + 256 * 255 := by simp
    change (UInt16.ofNat (leNat [b, 255])).toNat = _
    rw [hvalue, UInt16.toNat_ofNat_of_lt' (by simp only [UInt16.size]; omega)]
  have htype : typeAt buf = Int32.ofNat (ofBytes [b, 255] : UInt16).toNat := by
    unfold typeAt
    rw [← hbytes]
    rfl
  have hbig : ¬ typeAt buf < MSGT_FO_END := by
    have hend : MSGT_FO_END.toInt = 127 := rfl
    rw [htype, Int32.lt_iff_toInt_lt, hnat, Int32.toInt_ofNat_of_lt (by omega), hend]
    omega
  rw [isFileOperation, decide_eq_false hbig, Bool.and_false]

/-- A type that is not sent is what lies behind. -/
theorem filled_type {pid : UInt32} {payload : Bytes} (hno : ∀ t, nestedType payload ≠ .ok t) :
    isFileOperation (NlMessage.read (filled pid payload)).msgtype = false := by
  let buf := fill payload (sizeof Nlmsghdr)
  have hsize : sizeof Nlmsghdr = 16 := rfl
  have hword : sizeof UInt32 = 4 := rfl
  have hshort : sizeof UInt16 = 2 := rfl
  have hbuf : buf.length = sizeof Nlmsghdr := (fill_extends payload _).choose_spec.2
  have hfront : ((nested payload buf).fromPid pid).bytes[5]? = buf[5]? := by
    have htake := @fromPid_take (buf ++ payload.drop (sizeof Nlmsghdr)) (by rw [List.length_append]; omega) pid
    have hget := congrArg (fun b : Bytes => b[5]?) htake
    simp only [hword, hshort] at hget
    rwa [List.getElem?_take_of_lt (by omega), List.getElem?_take_of_lt (by omega),
      List.getElem?_append_left (by omega)] at hget
  have hlength : 5 < ((nested payload buf).fromPid pid).bytes.length := by
    rw [NlMessage.bytes, List.length_append, Layout.length_toBytes]
    omega
  obtain ⟨datagram, hreads⟩ := filled_reads pid payload
  have hcases : buf[5]? = some 255 ∨ (nested payload buf).header.nlmsgLen.toNat ≤ 5 := by
    by_cases hpayload : 6 ≤ payload.length
    · right
      have hlen : (nested payload buf).header.nlmsgLen = peek UInt32 0 payload := by
        rw [nlmsgLen_read]
        exact length_peek_congr (hreads.front (Nat.le_add_right _ _) (by omega))
      rw [hlen]
      by_contra hlong
      exact hno _ (nestedType_ok (by omega) (by omega))
    · left
      rw [getElem?_fill payload (by omega), if_neg (by omega)]
  rw [msgtype_read]
  apply typeAt_large
  rw [List.getElem?_take_of_lt (by omega)]
  change (fill (fill ((nested payload buf).fromPid pid).bytes (nested payload buf).header.nlmsgLen.toNat)
    (max (sizeof Nlmsghdr) (nested payload buf).header.nlmsgLen.toNat))[5]? = _
  have hdatagram := (fill_extends ((nested payload buf).fromPid pid).bytes
    (nested payload buf).header.nlmsgLen.toNat).choose_spec.2
  rw [getElem?_fill _ (by omega), hdatagram]
  split
  · rename_i hlt
    rw [getElem?_fill _ hlt, if_pos hlength, hfront]
    exact hcases.resolve_right (by omega)
  · rfl

/-- Every message that is passed on is a file operation exactly when the frame is
refused or the type of a file operation is in what is sent of its payload. -/
theorem passes_iff (pid : UInt32) (frame : Message) : PassesFileOperations pid frame ↔ Consistent frame := by
  refine ⟨fun hpasses hfo => ?_, fun hconsistent q h hreaches hreceived p hp => ?_⟩
  · obtain ⟨q, h, hreaches, hreceived, hsent⟩ := exists_passed pid hfo
    have hpassed := hpasses q h hreaches hreceived (_, none) (by rw [hsent]; exact List.mem_cons_self)
    by_cases hshort : ∀ t, nestedType frame.payload ≠ .ok t
    · exact nomatch (filled_type hshort).symm.trans hpassed
    · obtain ⟨t, ht⟩ := not_forall_not.mp hshort
      obtain ⟨datagram, hreads⟩ := filled_reads pid frame.payload
      rw [hreads.msgtype ht] at hpassed
      exact ⟨t, ht, hpassed⟩
  · obtain ⟨frame', hreceived', hfo, htype⟩ := hreaches.always (proxyHandleRemote_fromFrame pid) p hp
    obtain rfl := List.singleton_inj.mp (hreceived.symm.trans hreceived')
    obtain ⟨t, ht, hnested⟩ := hconsistent hfo
    rw [htype t ht]
    exact hnested

/-- A frame of type `MSGT_FO_READ` with an unregistration inside. -/
def Sample.frame : Message := ⟨MSGT_FO_READ, (NlMessage.build 0 MSGT_CONTROL_UNREGISTER NLM_F_ACK []).bytes⟩

/-- The kernel unregisters the device of the daemon 7 for the peer. -/
theorem passes_unregister : ¬ PassesFileOperations 7 Sample.frame := by
  intro hpasses
  have hnested : nestedType Sample.frame.payload = .ok MSGT_CONTROL_UNREGISTER := by decide +kernel
  obtain ⟨q, h, hreaches, hreceived, hsent⟩ := @exists_passed 7 Sample.frame (by decide)
  have hpassed := hpasses q h hreaches hreceived (_, none) (by rw [hsent]; exact List.mem_cons_self)
  obtain ⟨datagram, hreads⟩ := filled_reads 7 Sample.frame.payload
  rw [hreads.msgtype hnested] at hpassed
  exact absurd hpassed (by decide)

end Netdev.Daemon
