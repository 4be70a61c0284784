-- SUMMARY: The requests and the replies of two machines at work: what of them comes through the daemons.
import Netdev.Kernel.Routing
import Netdev.Stack

/-!
# Messages between two machines

A request and the reply to it find their call by the type and by the access id with which
the payload begins. Both come through the daemons where `nlmsg_len` counts at least as far.
-/

namespace Netdev.Deployment
open Base Kernel Daemon Tunnel

/-! ## Requests -/

/-- A file operation of which at least the access id comes through. -/
structure Addressed (m : NlMessage) : Prop where
  carried : Carried m
  counts : sizeof Nlmsghdr + sizeof Int32 ≤ m.header.nlmsgLen.toNat

/-- The request as `fo_send` puts it on the socket of the daemon `pid`. -/
def request (pid : UInt32) (call : FoCall) (accessId : Int32) (flags : UInt16) (seq : UInt32) (stale : Int64) :
    NlMessage :=
  Kernel.netlinkSend pid seq call.msgtype.toUInt16 flags
    ((call.request accessId stale).wire call.args call.payload)

section
variable {m : NlMessage} {pid : UInt32}

theorem msgtype_relayed (h : Addressed m) : (relayed pid m).msgtype = m.msgtype := by
  rw [relayed_eq h.carried.header]
  rfl

theorem payload_length (h : Carried m) : m.header.nlmsgLen.toNat - sizeof Nlmsghdr ≤ m.payload.length := by
  have hlen := h.isFo.length
  rw [NetlinkSocket.length_bytes] at hlen
  exact Nat.sub_le_iff_le_add'.mpr hlen

theorem asInt_relayed (h : Addressed m) : asInt (relayed pid m).payload = asInt m.payload := by
  have hid : sizeof Int32 ≤ m.header.nlmsgLen.toNat - sizeof Nlmsghdr := Nat.le_sub_of_add_le' h.counts
  rw [relayed_eq h.carried.header, ← asInt_take, List.take_take, Nat.min_eq_left hid, asInt_take]

/-- It is as good a message on the other machine. -/
theorem Addressed.relayed (h : Addressed m) : Addressed (relayed pid m) := by
  rw [relayed_eq h.carried.header]
  have hlen := payload_length h.carried
  refine ⟨⟨⟨h.carried.isFo.msgtype, ?_⟩, h.carried.header, h.carried.ack⟩, h.counts⟩
  rw [NetlinkSocket.length_bytes, List.length_take, Nat.min_eq_left hlen]
  exact (Nat.add_sub_cancel' h.carried.header).ge

theorem addressed_request (call : FoCall) (accessId : Int32) (flags : UInt16) (seq : UInt32) (stale : Int64) :
    Addressed (request pid call accessId flags seq stale) := by
  have hargs := call.args_length_le
  have hpayload := call.payload_length_lt
  have hlimit : NETDEV_MESSAGE_LIMIT.toNat = 213000 := rfl
  have hlen : ((call.request accessId stale).wire call.args call.payload).length
      = FoReq.headerSize + call.args.length + call.payload.length := by simp [FoReq.wire, Nat.add_assoc]
  have hhead : FoReq.headerSize = 24 := rfl
  obtain ⟨hsized, -⟩ := @Stack.sized_of (request pid call accessId flags seq stale)
    ((call.request accessId stale).wire call.args call.payload) _ rfl rfl (Stack.isFileOperation_msgtype call)
    (Stack.or_NLM_F_ACK flags) (by omega)
  refine ⟨hsized.carried, ?_⟩
  have hcount : (request pid call accessId flags seq stale).header.nlmsgLen.toNat
      = sizeof Nlmsghdr + ((call.request accessId stale).wire call.args call.payload).length :=
    UInt32.toNat_ofNat_of_lt' (by
      have hnl : sizeof Nlmsghdr = 16 := rfl
      simp only [UInt32.size]
      omega)
  have hint : sizeof Int32 = 4 := rfl
  omega

theorem asInt_request (call : FoCall) (accessId : Int32) (flags : UInt16) (seq : UInt32) (stale : Int64) :
    asInt (request pid call accessId flags seq stale).payload = accessId := by
  unfold request Kernel.netlinkSend NlMessage.put FoReq.wire FoReq.header
  simp only [List.append_assoc, asInt_toBytes_append]
  rfl

theorem msgtype_request (call : FoCall) (accessId : Int32) (flags : UInt16) (seq : UInt32) (stale : Int64) :
    (request pid call accessId flags seq stale).msgtype = call.msgtype.toInt32 := by
  cases call <;> rfl

end

/-! ## Replies -/

/-- The two ways of `fo_execute` to make a reply of a request. -/
inductive Reshaped (nlh : NlMessage) : NlMessage → Prop where
  | inPlace {payload : Bytes} : payload.length = nlh.payload.length → Reshaped nlh { nlh with payload }
  | packed {buff : Bytes} : sizeof Int32 ≤ buff.length →
      Reshaped nlh (.put nlh.header.nlmsgPid nlh.header.nlmsgSeq nlh.header.nlmsgType NLM_F_ACK buff)

section
variable {alloc : ExecAlloc} {env : HandlerEnv} {fresh req : FoReq} {acc : ServerAccess} {nlh reply : NlMessage}
  {result : ExecResult} {rvalue : Int32}

theorem foReply_reshaped (h : foReply alloc nlh req = .ok (some reply, rvalue)) : Reshaped nlh reply := by
  obtain ⟨buff, hbuff, h⟩ := Mem.bind_eq_ok h
  cases buff with
  | none =>
      obtain rfl := Option.some.inj (congrArg Prod.fst (Except.ok.inj h))
      exact .inPlace rfl
  | some buff =>
      obtain ⟨rest, rfl⟩ := foSerialize_accessId hbuff
      by_cases hsame : (toBytes req.accessId ++ rest).length = cSize (nlmsgPayloadLen nlh)
      · simp only [if_pos hsame] at h
        obtain ⟨payload, hcopy, h⟩ := Mem.bind_eq_ok h
        obtain rfl := Option.some.inj (congrArg Prod.fst (Except.ok.inj h))
        exact .inPlace (memcpy_length hcopy)
      · simp only [if_neg hsame] at h
        obtain ⟨packed, hpack, h⟩ := Mem.bind_eq_ok h
        obtain rfl := netlinkPackSkb_skb hpack (congrArg Prod.fst (Except.ok.inj h))
        refine .packed ?_
        rw [List.length_append, Layout.length_toBytes]
        exact Nat.le_add_right _ _

theorem foExecute_reshaped (h : foExecute alloc env fresh acc nlh = .ok result)
    (hreply : result.reply = some reply) : Reshaped nlh reply := by
  obtain ⟨req, -, h⟩ := Mem.bind_eq_ok h
  cases req with
  | none => cases h
  | some req =>
      obtain ⟨fofun, -, h⟩ := Mem.bind_eq_ok h
      cases fofun with
      | none =>
          obtain rfl := Except.ok.inj h
          obtain rfl := Option.some.inj hreply
          exact .inPlace rfl
      | some fofun =>
          obtain ⟨⟨rvalue, acc', req'⟩, -, h⟩ := Mem.bind_eq_ok h
          by_cases hfailed : rvalue = -1
          · simp only [if_pos hfailed] at h
            obtain rfl := Except.ok.inj h
            obtain rfl := Option.some.inj hreply
            exact .inPlace rfl
          · simp only [if_neg hfailed] at h
            obtain ⟨⟨reply', code⟩, hr, h⟩ := Mem.bind_eq_ok h
            obtain rfl := Except.ok.inj h
            obtain rfl : reply' = some reply := hreply
            exact foReply_reshaped hr

/-- A reply whose length can be counted. -/
theorem Reshaped.addressed (h : Reshaped nlh reply) (hnlh : Addressed nlh) (hlen : reply.bytes.length < 2 ^ 32) :
    Addressed reply := by
  cases h with
  | @inPlace payload hpayload =>
      have hle := hnlh.carried.isFo.length
      refine ⟨⟨⟨hnlh.carried.isFo.msgtype, ?_⟩, hnlh.carried.header, hnlh.carried.ack⟩, hnlh.counts⟩
      rw [NetlinkSocket.length_bytes] at hle ⊢
      exact hpayload ▸ hle
  | @packed buff hbuff =>
      have hbytes : sizeof Nlmsghdr + buff.length ≤ (NlMessage.put nlh.header.nlmsgPid nlh.header.nlmsgSeq
          nlh.header.nlmsgType NLM_F_ACK buff).bytes.length := by
        rw [NetlinkSocket.length_bytes]
        simp only [NlMessage.put, List.length_append]
        omega
      have hcount : (NlMessage.put nlh.header.nlmsgPid nlh.header.nlmsgSeq nlh.header.nlmsgType NLM_F_ACK
          buff).header.nlmsgLen.toNat = sizeof Nlmsghdr + buff.length :=
        UInt32.toNat_ofNat_of_lt' (by
          simp only [UInt32.size]
          omega)
      refine ⟨⟨⟨hnlh.carried.isFo.msgtype, hcount ▸ hbytes⟩, ?_, (by decide : NLM_F_ACK &&& NLM_F_ACK ≠ 0)⟩, ?_⟩
      · rw [hcount]
        exact Nat.le_add_right _ _
      · rw [hcount]
        exact Nat.add_le_add_left hbuff _

end

end Netdev.Deployment
