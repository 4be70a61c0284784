-- SUMMARY: A reply in a new buffer and one over the request say the same, unless the request is shorter than its header says.
import Netdev.Kernel.FoCodec
import Netdev.Kernel.FoExecute

/-!
# Replies in a new buffer

A reply as long as `nlmsg_len` says that the request is goes over the request and keeps
its header; another one goes into a new buffer. The length of the buffer that the request
came in is not looked at.
-/

namespace Netdev.Kernel
open Base

/-! ## Both replies -/

/-- A reply to `nlh` that says what `req` says. -/
structure ReplyTo (nlh : NlMessage) (req : FoReq) (m : NlMessage) : Prop where
  seq : m.header.nlmsgSeq = nlh.header.nlmsgSeq
  msgtype : m.header.nlmsgType = nlh.header.nlmsgType
  pid : m.header.nlmsgPid = nlh.header.nlmsgPid
  length : m.header.nlmsgLen.toNat = sizeof Nlmsghdr + req.bufflen.toNat
  payload : foSerialize true req = .ok (some (m.payload.take (m.header.nlmsgLen.toNat - sizeof Nlmsghdr)))

/-- The request gets past its handler, and `req` is what it is answered with. -/
def LeavesResult (env : HandlerEnv) (fresh : FoReq) (acc : ServerAccess) (nlh : NlMessage)
    (acc' : ServerAccess) (req : FoReq) : Prop :=
  ∃ seen fofun rvalue result,
    foDeserialize true true true fresh nlh.payload = .ok (some seen) ∧
    foHandler nlh.msgtype = .ok (some fofun) ∧
    fofun env acc seen = .ok (rvalue, acc', result) ∧ rvalue ≠ -1 ∧ req = { result with rvalue }

section Replies
variable {nlh m : NlMessage} {req : FoReq} {args payload : Bytes}

theorem LeavesResult.foExecute {env : HandlerEnv} {fresh : FoReq} {acc acc' : ServerAccess}
    (h : LeavesResult env fresh acc nlh acc' req) (hreply : foReply .all nlh req = .ok (some m, 0)) :
    foExecute .all env fresh acc nlh = .ok ⟨some m, acc', 0⟩ := by
  obtain ⟨seen, fofun, rvalue, result, hseen, hfofun, hresult, hrvalue, rfl⟩ := h
  exact foExecute_success hseen hfofun hresult hrvalue hreply

theorem FoReq.Holds.bufflen_wire (h : req.Holds args payload) :
    req.bufflen.toNat = (req.wire args payload).length := by
  rw [h.bufflen]
  simp [FoReq.wire, Nat.add_assoc]

/-- The header fits, and the payload that it speaks of is the serialised request. -/
theorem replyTo_of {rest : Bytes} (h : req.Holds args payload)
    (hseq : m.header.nlmsgSeq = nlh.header.nlmsgSeq) (htype : m.header.nlmsgType = nlh.header.nlmsgType)
    (hpid : m.header.nlmsgPid = nlh.header.nlmsgPid)
    (hlength : m.header.nlmsgLen.toNat = sizeof Nlmsghdr + (req.wire args payload).length)
    (hpayload : m.payload = req.wire args payload ++ rest) : ReplyTo nlh req m where
  seq := hseq
  msgtype := htype
  pid := hpid
  length := by rw [hlength, h.bufflen_wire]
  payload := by
    rw [hlength, hpayload, Nat.add_sub_cancel_left, List.take_left]
    exact h.foSerialize

theorem replyTo_put (h : req.Holds args payload) (hlen : (req.wire args payload).length < 2 ^ 30) :
    ReplyTo nlh req (.put nlh.header.nlmsgPid nlh.header.nlmsgSeq nlh.header.nlmsgType NLM_F_ACK
      (req.wire args payload)) := by
  have hsize : sizeof Nlmsghdr = 16 := rfl
  refine replyTo_of h rfl rfl rfl ?_ rfl
  exact UInt32.toNat_ofNat_of_lt' (by simp only [UInt32.size]; omega)

/-- When `nlmsg_len` gives the length of the result, the old header is right for it. -/
theorem nlmsgLen_of_payloadLen {n : Nat} (hn : n < 2 ^ 30) (h : n = cSize (nlmsgPayloadLen nlh)) :
    nlh.header.nlmsgLen.toNat = sizeof Nlmsghdr + n := by
  have hsize : sizeof Nlmsghdr = 16 := rfl
  have hlt := nlh.header.nlmsgLen.toNat_lt
  simp only [nlmsgPayloadLen, cInt, cSize, hsize, Int.bmod_def] at h
  split at h
  all_goals omega

theorem replyTo_inPlace (h : req.Holds args payload) (hlen : (req.wire args payload).length < 2 ^ 30)
    (hsame : (req.wire args payload).length = cSize (nlmsgPayloadLen nlh)) (rest : Bytes) :
    ReplyTo nlh req { nlh with payload := req.wire args payload ++ rest } :=
  replyTo_of h rfl rfl rfl (nlmsgLen_of_payloadLen hlen hsame) rfl

/-- Whether the result goes over the request or into a new `sk_buff`, the reply has the
request's `seq`, type and pid and says what `fo_serialize` says, no copy leaves its
buffer, and `nlmsg_put` has the room that it needs. -/
structure RepliesAgree (nlh : NlMessage) (req : FoReq) (args payload : Bytes) : Prop where
  sent : ∃ m, foReply .all nlh req = .ok (some m, 0) ∧ ReplyTo nlh req m ∧
    ∀ env fresh acc acc', LeavesResult env fresh acc nlh acc' req →
      foExecute .all env fresh acc nlh = .ok ⟨some m, acc', 0⟩
  packed : ∃ m, ReplyTo nlh req m ∧
    ∀ skb, netlinkPackSkb (some skb) nlh (req.wire args payload) = .ok (.packed m)

/-- When the header is right for the result, `nlmsg_len` gives its length. -/
theorem payloadLen_of_nlmsgLen {n : Nat} (hn : n < 2 ^ 30) (h : nlh.header.nlmsgLen.toNat = sizeof Nlmsghdr + n) :
    n = cSize (nlmsgPayloadLen nlh) := by
  have hmax : INT_MAX = 2 ^ 31 - 1 := rfl
  have hsub : (nlh.header.nlmsgLen.toNat : Int) - (sizeof Nlmsghdr : Nat) = (n : Nat) := by omega
  rw [nlmsgPayloadLen, hsub, cInt_of_le_INT_MAX (by omega), cSize_of_le_INT_MAX (by omega)]

/-- A result that goes over a shorter request is copied behind its end. -/
theorem foReply_overruns {alloc : ExecAlloc} (holds : req.Holds args payload) (hbuff : alloc.buff = true)
    (hsame : (req.wire args payload).length = cSize (nlmsgPayloadLen nlh))
    (hshort : nlh.payload.length < (req.wire args payload).length) :
    foReply alloc nlh req = .error .outOfBounds := by
  unfold foReply
  rw [hbuff, holds.foSerialize, Mem.bind_ok]
  simp only [if_pos hsame, memcpy]
  rw [if_neg (by omega)]
  rfl

/-- Where the reply is as long as the header says that the request is, the two agree exactly when the
request is that long. -/
theorem replies_agree_iff (holds : req.Holds args payload) (htotal : req.bufflen.toNat < 2 ^ 30) :
    RepliesAgree nlh req args payload ↔
      (nlh.header.nlmsgLen.toNat = sizeof Nlmsghdr + req.bufflen.toNat →
        nlh.header.nlmsgLen.toNat ≤ nlh.bytes.length) := by
  have hlen : (req.wire args payload).length < 2 ^ 30 := by
    rw [← holds.bufflen_wire]
    exact htotal
  have hbytes : nlh.bytes.length = sizeof Nlmsghdr + nlh.payload.length := by
    simp [NlMessage.bytes]
  have hput := @replyTo_put nlh _ _ _ holds hlen
  have hpacked : ∃ m, ReplyTo nlh req m ∧
      ∀ skb, netlinkPackSkb (some skb) nlh (req.wire args payload) = .ok (.packed m) :=
    ⟨_, hput, fun skb => netlinkPackSkb_some nlh hlen skb⟩
  rw [holds.bufflen_wire]
  by_cases hsame : (req.wire args payload).length = cSize (nlmsgPayloadLen nlh)
  · have hheader := nlmsgLen_of_payloadLen hlen hsame
    constructor
    · intro h _
      obtain ⟨m, hreply, -, -⟩ := h.sent
      have hroom : ¬ nlh.payload.length < (req.wire args payload).length := by
        intro hshort
        cases (@foReply_overruns _ _ _ _ .all holds rfl hsame hshort).symm.trans hreply
      omega
    · intro hwhole
      have hle := hwhole hheader
      have hreply := @foReply_inPlace .all nlh _ _ _ holds rfl hsame (by omega)
      exact ⟨⟨_, hreply, replyTo_inPlace holds hlen hsame _, fun _ _ _ _ hleaves => hleaves.foExecute hreply⟩,
        hpacked⟩
  · have hreply := @foReply_packed .all nlh _ _ _ holds rfl hsame hlen
    refine iff_of_true ⟨⟨_, hreply, hput, fun _ _ _ _ hleaves => hleaves.foExecute hreply⟩, hpacked⟩ ?_
    exact fun hheader => absurd (payloadLen_of_nlmsgLen hlen hheader) hsame

end Replies

namespace Sample

/-- A message with the sample request. -/
def arrived : NlMessage := .put 7 1 112 NLM_F_ACK (request.wire [1, 2] [5])

/-- A read of two bytes of process 3, in a message whose header speaks of two bytes more than
it has. -/
def cutRead : NlMessage :=
  { NlMessage.build 7 MSGT_FO_READ 0 (toBytes (3 : Int32) ++ toBytes (-1 : Int32) ++ toBytes (32 : UInt64) ++
      toBytes (0 : UInt64) ++ toBytes ({ data := 0, size := 2, offset := 0, rvalue := 0 } : SFoRead)) with
    header := { nlmsgLen := 74, nlmsgType := 102, nlmsgFlags := 0, nlmsgSeq := 1, nlmsgPid := 7 } }

/-- What the server decodes. -/
def readSeen : FoReq :=
  { freshReq with
    accessId := 3
    rvalue := -1
    size := 32
    args := some (toBytes ({ data := 0, size := 2, offset := 0, rvalue := 0 } : SFoRead)) }

/-- The request after the read. -/
def readReply : FoReq :=
  { freshReq with
    accessId := 3
    size := 32
    dataSize := 2
    args := some (toBytes ({ data := 0, size := 2, offset := 0, rvalue := 2 } : SFoRead))
    data := some [0, 0] }

end Sample

/-- A message as long as its header says, and one that is answered in a new buffer. -/
theorem replies_agree_iff_arrived : RepliesAgree Sample.arrived Sample.request [1, 2] [5] ∧
    RepliesAgree Sample.cutRead Sample.request [1, 2] [5] :=
  ⟨(replies_agree_iff Sample.request_holds (by decide)).mpr fun _ => by decide,
    (replies_agree_iff Sample.request_holds (by decide)).mpr fun h => absurd h (by decide)⟩

/-- The result of the read is copied behind the end of the message. -/
theorem reply_overruns :
    LeavesResult Sample.closed Sample.freshReq Sample.readable Sample.cutRead Sample.readable Sample.readReply ∧
      foExecute .all Sample.closed Sample.freshReq Sample.readable Sample.cutRead = .error .outOfBounds ∧
      ∃ args payload, Sample.readReply.Holds args payload ∧ Sample.readReply.bufflen.toNat < 2 ^ 30 ∧
        ¬ RepliesAgree Sample.cutRead Sample.readReply args payload := by
  have hseen : foDeserialize true true true Sample.freshReq Sample.cutRead.payload = .ok (some Sample.readSeen) := by
    decide +kernel
  have hresult : ndfoRecvRead Sample.closed Sample.readable Sample.readSeen
      = .ok (0, Sample.readable, { Sample.readReply with rvalue := -1 }) := rfl
  have hleaves : LeavesResult Sample.closed Sample.freshReq Sample.readable Sample.cutRead Sample.readable
      Sample.readReply := ⟨_, _, _, _, hseen, rfl, hresult, by decide, rfl⟩
  have holds : Sample.readReply.Holds (toBytes ({ data := 0, size := 2, offset := 0, rvalue := 2 } : SFoRead)) [0, 0] :=
    ⟨rfl, rfl, by decide, fun _ => ⟨[], rfl⟩, rfl, by decide⟩
  have hoverrun : foReply .all Sample.cutRead Sample.readReply = .error .outOfBounds :=
    foReply_overruns holds rfl (by decide) (by decide)
  refine ⟨hleaves, ?_, _, _, holds, by decide, fun h => ?_⟩
  · unfold foExecute
    rw [show foDeserialize ExecAlloc.all.req ExecAlloc.all.args ExecAlloc.all.data Sample.freshReq
      Sample.cutRead.payload = .ok (some Sample.readSeen) from hseen, Mem.bind_ok]
    simp only [show foHandler Sample.cutRead.msgtype = .ok (some ndfoRecvRead) from rfl, Mem.bind_ok, hresult]
    rw [if_neg (by decide)]
    change foReply .all Sample.cutRead Sample.readReply >>= _ = _
    rw [hoverrun]
    rfl
  · obtain ⟨m, hreply, -⟩ := h.sent
    cases hoverrun.symm.trans hreply

end Netdev.Kernel
