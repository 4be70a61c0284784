-- SUMMARY: `fo_execute` on the server: decode the request, call its handler, and send the reply back.
import Netdev.Kernel.FoRecv
import Netdev.Netlink

/-!
# Executing a request

`fo_execute` answers in the request's own `sk_buff` where the reply has the same
length, and in a new one where it has not. When anything fails the request goes
back as it came.
-/

namespace Netdev.Kernel
open Base

/-- What `alloc_skb` returns: how many bytes more than it was asked for, and what the memory
holds. -/
structure SkBuff where
  slack : Nat
  memory : (n : Nat) → { bytes : Bytes // bytes.length = n }

/-- The allocations of `fo_execute`. -/
structure ExecAlloc where
  req : Bool
  args : Bool
  data : Bool
  buff : Bool
  skb : Option SkBuff

def ExecAlloc.all : ExecAlloc := ⟨true, true, true, true, some ⟨0, zeros⟩⟩

/-- `nlmsg_len`: the payload's length as the header says. -/
def nlmsgPayloadLen (nlh : NlMessage) : Int :=
  cInt ((nlh.header.nlmsgLen.toNat : Int) - sizeof Nlmsghdr)

/-! ## A new buffer -/

/-- `nlmsg_total_size`, on `int`. -/
def nlmsgTotalSize (payload : Int) : Int := (sizeof Nlmsghdr + payload + 3) / 4 * 4

/-- `nlmsg_put` for a payload of `len` bytes. What lies there already is `stale`; behind
it come zeros up to four bytes. -/
def nlmsgPut (tailroom : Int) (pid seq : UInt32) (msgtype : UInt16) (len : Int) (flags : UInt16)
    (stale : Bytes) : Option NlMessage :=
  if tailroom < nlmsgTotalSize len then
    none
  else
    some (.put pid seq msgtype flags stale)

/-- The ends of `netlink_pack_skb`. -/
inductive Packed where
  | noMemory
  /-- `nlmsg_put` has failed. -/
  | noTailroom
  | packed (m : NlMessage)

/-- What it returns; NULL in both failures. -/
def Packed.skb : Packed → Option NlMessage
  | .packed m => some m
  | _ => none

/-- The result goes into the message that `nlmsg_put` has made. -/
def copyResult (buff : Bytes) : Option NlMessage → Mem Packed
  | none => return .noTailroom
  | some reply => do
      let payload ← memcpy reply.payload 0 buff 0 buff.length
      return .packed { reply with payload }

/-- `netlink_pack_skb`. -/
def netlinkPackSkb (skb : Option SkBuff) (nlh : NlMessage) (buff : Bytes) : Mem Packed :=
  let header := { nlh.header with nlmsgLen := UInt32.ofNat (nlmsgSpace buff.length) }
  match skb with
  | none => return .noMemory
  | some skb =>
      copyResult buff (nlmsgPut (header.nlmsgLen.toNat + skb.slack : Nat) header.nlmsgPid header.nlmsgSeq
        header.nlmsgType (cInt buff.length) NLM_F_ACK (skb.memory buff.length).val)

/-- A message with the header of `nlh` and the payload `buff`. -/
def repacked (nlh : NlMessage) (buff : Bytes) : NlMessage :=
  .put nlh.header.nlmsgPid nlh.header.nlmsgSeq nlh.header.nlmsgType NLM_F_ACK buff

section Packing
variable {nlh m : NlMessage} {buff : Bytes} {skb : Option SkBuff}

/-- `alloc_skb` is asked for what `nlmsg_put` needs. -/
theorem tailroom_suffices (h : buff.length < 2 ^ 30) (slack : Nat) :
    nlmsgTotalSize (cInt buff.length)
      ≤ (((UInt32.ofNat (nlmsgSpace buff.length)).toNat + slack : Nat) : Int) := by
  have hsize : sizeof Nlmsghdr = 16 := rfl
  have hmax : INT_MAX = 2 ^ 31 - 1 := rfl
  have hspace : (UInt32.ofNat (nlmsgSpace buff.length)).toNat = nlmsgSpace buff.length :=
    UInt32.toNat_ofNat_of_lt' (by simp only [UInt32.size, nlmsgSpace]; omega)
  rw [hspace, cInt_of_le_INT_MAX (by omega)]
  simp only [nlmsgTotalSize, nlmsgSpace]
  omega

/-- The result replaces what the memory held. -/
theorem copyResult_put (pid seq : UInt32) (msgtype flags : UInt16) {stale : Bytes}
    (h : stale.length = buff.length) :
    copyResult buff (some (.put pid seq msgtype flags stale))
      = .ok (.packed (.put pid seq msgtype flags buff)) := by
  have hcopy := @memcpy_window [] stale
    (List.replicate (nlmsgSpace buff.length - sizeof Nlmsghdr - buff.length) 0) buff 0 0 buff.length
    rfl h (by omega)
  rw [List.drop_zero, List.take_length, List.nil_append, List.nil_append] at hcopy
  simp only [copyResult, NlMessage.put, h, hcopy, Mem.bind_ok, Mem.pure_eq_ok]

/-- When there is room, and no length overflows. -/
theorem netlinkPackSkb_some (nlh : NlMessage) (h : buff.length < 2 ^ 30) (skb : SkBuff) :
    netlinkPackSkb (some skb) nlh buff = .ok (.packed (repacked nlh buff)) := by
  have hput : nlmsgPut ((UInt32.ofNat (nlmsgSpace buff.length)).toNat + skb.slack : Nat)
      nlh.header.nlmsgPid nlh.header.nlmsgSeq nlh.header.nlmsgType (cInt buff.length) NLM_F_ACK
      (skb.memory buff.length).val = some (.put nlh.header.nlmsgPid nlh.header.nlmsgSeq
        nlh.header.nlmsgType NLM_F_ACK (skb.memory buff.length).val) :=
    if_neg (Int.not_lt.mpr (tailroom_suffices h skb.slack))
  exact (congrArg (copyResult buff) hput).trans (copyResult_put _ _ _ _ (skb.memory buff.length).property)

/-- Whatever it returns carries the result. -/
theorem netlinkPackSkb_skb {packed : Packed} (h : netlinkPackSkb skb nlh buff = .ok packed)
    (hm : packed.skb = some m) : m = repacked nlh buff := by
  cases skb with
  | none =>
      obtain rfl := Except.ok.inj h
      cases hm
  | some skb =>
      unfold netlinkPackSkb nlmsgPut at h
      dsimp only at h
      split at h
      · obtain rfl := Except.ok.inj h
        cases hm
      · rw [copyResult_put _ _ _ _ (skb.memory buff.length).property] at h
        obtain rfl := Except.ok.inj h
        exact (Option.some.inj hm).symm

end Packing

/-! ## The reply -/

/-- The reply to a request whose handler succeeded, in place or in a new buffer, and
the return value. The null check after `netlink_pack_skb` looks at the wrong
pointer, so that its failure leaves no message at all. -/
def foReply (alloc : ExecAlloc) (nlh : NlMessage) (req : FoReq) :
    Mem (Option NlMessage × Int32) := do
  match ← foSerialize alloc.buff req with
  | none => return (some nlh, -ENODATA)
  | some buff =>
      if buff.length = cSize (nlmsgPayloadLen nlh) then do
        let payload ← memcpy nlh.payload 0 buff 0 buff.length
        return (some { nlh with payload }, 0)
      else do
        let packed ← netlinkPackSkb alloc.skb nlh buff
        return (packed.skb, 0)

/-- `reply` is the message given to `netlink_send_skb`. -/
structure ExecResult where
  reply : Option NlMessage
  acc : ServerAccess
  rvalue : Int32

/-- `fo_execute` without the frees and without the `fo_acc_destroy` after a
release. A request that cannot be decoded is a null pointer at the exit. -/
def foExecute (alloc : ExecAlloc) (env : HandlerEnv) (fresh : FoReq) (acc : ServerAccess)
    (nlh : NlMessage) : Mem ExecResult := do
  match ← foDeserialize alloc.req alloc.args alloc.data fresh nlh.payload with
  | none => .error .nullDeref
  | some req =>
      match ← foHandler nlh.msgtype with
      | none => return ⟨some nlh, acc, -ENODATA⟩
      | some fofun => do
          let (rvalue, acc, req) ← fofun env acc req
          let req := { req with rvalue }
          if req.rvalue = -1 then
            return ⟨some nlh, acc, -ENODATA⟩
          else do
            let (reply, rvalue) ← foReply alloc nlh req
            return ⟨reply, acc, rvalue⟩

theorem foReply_rvalue {alloc : ExecAlloc} {nlh : NlMessage} {req : FoReq}
    {reply : Option NlMessage} {rvalue : Int32} (h : foReply alloc nlh req = .ok (reply, rvalue)) :
    rvalue = 0 ∨ rvalue = -ENODATA := by
  obtain ⟨buff, -, h⟩ := Mem.bind_eq_ok h
  cases buff with
  | none => exact .inr (congrArg Prod.snd (Except.ok.inj h)).symm
  | some buff =>
      by_cases hsame : buff.length = cSize (nlmsgPayloadLen nlh)
      · simp only [if_pos hsame] at h
        obtain ⟨payload, -, h⟩ := Mem.bind_eq_ok h
        exact .inl (congrArg Prod.snd (Except.ok.inj h)).symm
      · simp only [if_neg hsame] at h
        obtain ⟨packed, -, h⟩ := Mem.bind_eq_ok h
        exact .inl (congrArg Prod.snd (Except.ok.inj h)).symm

/-- A failure of the handler is not reported as -1. -/
theorem foExecute_rvalue {alloc : ExecAlloc} {env : HandlerEnv} {fresh : FoReq} {acc : ServerAccess}
    {nlh : NlMessage} {result : ExecResult} (h : foExecute alloc env fresh acc nlh = .ok result) :
    result.rvalue = 0 ∨ result.rvalue = -ENODATA := by
  obtain ⟨req, -, h⟩ := Mem.bind_eq_ok h
  cases req with
  | none => cases h
  | some req =>
      obtain ⟨fofun, -, h⟩ := Mem.bind_eq_ok h
      cases fofun with
      | none => exact .inr (congrArg ExecResult.rvalue (Except.ok.inj h)).symm
      | some fofun =>
          obtain ⟨⟨rvalue, acc', req'⟩, -, h⟩ := Mem.bind_eq_ok h
          by_cases hfailed : rvalue = -1
          · simp only [if_pos hfailed] at h
            exact .inr (congrArg ExecResult.rvalue (Except.ok.inj h)).symm
          · simp only [if_neg hfailed] at h
            obtain ⟨⟨reply, code⟩, hreply, h⟩ := Mem.bind_eq_ok h
            obtain rfl := Except.ok.inj h
            exact foReply_rvalue hreply

/-- How `fo_execute` answers, from what its parts do. -/
theorem foExecute_failure {alloc : ExecAlloc} {env : HandlerEnv} {fresh seen result : FoReq}
    {acc acc' : ServerAccess} {nlh : NlMessage} {fofun : FoHandler}
    (hseen : foDeserialize alloc.req alloc.args alloc.data fresh nlh.payload = .ok (some seen))
    (hfofun : foHandler nlh.msgtype = .ok (some fofun))
    (hresult : fofun env acc seen = .ok (-1, acc', result)) :
    foExecute alloc env fresh acc nlh = .ok ⟨some nlh, acc', -ENODATA⟩ := by
  simp only [foExecute, hseen, hfofun, hresult, Mem.bind_ok, Mem.pure_eq_ok, if_true]

theorem foExecute_success {alloc : ExecAlloc} {env : HandlerEnv} {fresh seen result : FoReq}
    {acc acc' : ServerAccess} {nlh : NlMessage} {fofun : FoHandler} {rvalue err : Int32}
    {reply : Option NlMessage}
    (hseen : foDeserialize alloc.req alloc.args alloc.data fresh nlh.payload = .ok (some seen))
    (hfofun : foHandler nlh.msgtype = .ok (some fofun))
    (hresult : fofun env acc seen = .ok (rvalue, acc', result)) (hrvalue : rvalue ≠ -1)
    (hreply : foReply alloc nlh { result with rvalue } = .ok (reply, err)) :
    foExecute alloc env fresh acc nlh = .ok ⟨reply, acc', err⟩ := by
  simp only [foExecute, hseen, hfofun, hresult, hreply, if_neg hrvalue, Mem.bind_ok,
    Mem.pure_eq_ok]

/-! ## The two ways of answering -/

section Replies
variable {alloc : ExecAlloc} {nlh : NlMessage} {req : FoReq} {args payload : Bytes}

/-- The result goes over the request. -/
theorem foReply_inPlace (h : req.Holds args payload) (hbuff : alloc.buff = true)
    (hsame : (req.wire args payload).length = cSize (nlmsgPayloadLen nlh))
    (hlen : (req.wire args payload).length ≤ nlh.payload.length) :
    foReply alloc nlh req = .ok (some { nlh with
      payload := req.wire args payload ++ nlh.payload.drop (req.wire args payload).length }, 0) := by
  have hcopy := @memcpy_part nlh.payload [] (req.wire args payload) [] 0 _ rfl rfl hlen
  rw [List.nil_append, List.append_nil] at hcopy
  unfold foReply
  rw [hbuff, h.foSerialize, Mem.bind_ok]
  simp only [if_pos hsame, hcopy, Mem.bind_ok, Mem.pure_eq_ok]

theorem foReply_packed (h : req.Holds args payload) (hbuff : alloc.buff = true)
    (hdiffer : (req.wire args payload).length ≠ cSize (nlmsgPayloadLen nlh))
    (hlen : (req.wire args payload).length < 2 ^ 30) :
    foReply alloc nlh req = .ok (alloc.skb.map fun _ => repacked nlh (req.wire args payload), 0) := by
  have hpacked : netlinkPackSkb alloc.skb nlh (req.wire args payload) = .ok
      ((alloc.skb.map fun _ => repacked nlh (req.wire args payload)).elim .noMemory .packed) := by
    cases alloc.skb with
    | none => rfl
    | some skb => exact netlinkPackSkb_some nlh hlen skb
  unfold foReply
  rw [hbuff, h.foSerialize, Mem.bind_ok]
  simp only [if_neg hdiffer, hpacked, Mem.bind_ok, Mem.pure_eq_ok]
  cases alloc.skb with
  | none => rfl
  | some skb => rfl

/-- The payload of the reply begins with the serialised result, whichever way it is
sent. -/
theorem foReply_eq (h : req.Holds args payload) (hlen : (req.wire args payload).length < 2 ^ 30)
    (hroom : cSize (nlmsgPayloadLen nlh) ≤ nlh.payload.length) :
    ∃ reply rest, foReply .all nlh req = .ok (some reply, 0) ∧
      reply.payload = req.wire args payload ++ rest := by
  by_cases hsame : (req.wire args payload).length = cSize (nlmsgPayloadLen nlh)
  · exact ⟨_, _, foReply_inPlace h rfl hsame (hsame.trans_le hroom), rfl⟩
  · exact ⟨_, _, foReply_packed h rfl hsame hlen, rfl⟩

end Replies

/-- What the header of a message says about its payload. -/
theorem nlmsgPayloadLen_eq {nlh : NlMessage} {n : Nat} (hn : n < 2 ^ 31)
    (hheader : nlh.header.nlmsgLen = UInt32.ofNat (sizeof Nlmsghdr + n)) :
    nlmsgPayloadLen nlh = n := by
  have hsize : sizeof Nlmsghdr = 16 := rfl
  have hmax : INT_MAX = 2 ^ 31 - 1 := rfl
  have hlen : (UInt32.ofNat (sizeof Nlmsghdr + n)).toNat = sizeof Nlmsghdr + n :=
    UInt32.toNat_ofNat_of_lt' (by simp only [UInt32.size]; omega)
  have hsub : ((sizeof Nlmsghdr + n : Nat) : Int) - (sizeof Nlmsghdr : Nat) = (n : Nat) := by
    omega
  rw [nlmsgPayloadLen, hheader, hlen, hsub]
  exact cInt_of_le_INT_MAX (by omega)

/-! ## Sample devices -/

namespace Sample

/-- A device that gives zeros. -/
def readable : ServerAccess :=
  ⟨some ⟨some { llseek := none, write := none, unlockedIoctl := none, compatIoctl := none, flush := none
                read := some fun buf offset =>
                  ⟨Int64.ofNat buf.length, offset, zeros buf.length⟩ }, 0⟩⟩

/-- A device that can write. -/
def writable : ServerAccess :=
  ⟨some ⟨some { llseek := none, read := none, write := some fun buf _ => ⟨Int64.ofNat buf.length, 0⟩
                unlockedIoctl := none, compatIoctl := none, flush := none }, 0⟩⟩

def closed : HandlerEnv := ⟨.error 0, true⟩

def freshReq : FoReq := ⟨0, 0, 0, none, none, 0, 0, 0⟩

end Sample

end Netdev.Kernel
