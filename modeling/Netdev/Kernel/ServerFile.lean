-- SUMMARY: What `fo_execute` does to the server's file, and what its reply has in common with the request.
import Netdev.Kernel.FoExecute

/-!
# The server's file

An open replaces the `filp` of the `fo_access` that it is executed on, whether
`filp_open` succeeds or not; no other handler touches it. Type and access id of a
message come back in the reply.
-/

namespace Netdev.Kernel
open Base

/-! ## Handlers -/

/-- The result keeps the access id of the request and leaves this file. -/
def HandlerResult.Leaves (req : FoReq) (acc : ServerAccess) (r : HandlerResult) : Prop :=
  r.2.1 = acc ∧ r.2.2.accessId = req.accessId

/-- Whatever a computation returns does so. -/
def LeavesFile (req : FoReq) (acc : ServerAccess) (m : Mem HandlerResult) : Prop :=
  ∀ r, m = .ok r → r.Leaves req acc

section Handlers
variable {req : FoReq} {acc : ServerAccess} {env : HandlerEnv}

theorem leavesFile_ok {r : HandlerResult} (h : r.Leaves req acc) : LeavesFile req acc (.ok r) := by
  intro r' hr
  obtain rfl := Except.ok.inj hr
  exact h

theorem leavesFile_bind {α : Type} {x : Mem α} {f : α → Mem HandlerResult}
    (h : ∀ a, LeavesFile req acc (f a)) : LeavesFile req acc (x >>= f) := by
  intro r hr
  obtain ⟨a, -, hf⟩ := Mem.bind_eq_ok hr
  exact h a r hf

theorem refuse_leavesFile : LeavesFile req acc (refuse env acc req) := leavesFile_ok ⟨rfl, rfl⟩

theorem ndfoRecvLlseek_leavesFile : LeavesFile req acc (ndfoRecvLlseek env acc req) := by
  apply leavesFile_bind
  intro ops
  cases ops.llseek with
  | none => exact leavesFile_ok ⟨rfl, rfl⟩
  | some llseek =>
      refine leavesFile_bind fun _ => leavesFile_bind fun _ => leavesFile_bind fun _ => ?_
      exact leavesFile_bind fun _ => leavesFile_ok ⟨rfl, rfl⟩

theorem ndfoRecvRead_leavesFile : LeavesFile req acc (ndfoRecvRead env acc req) := by
  refine leavesFile_bind fun _ => leavesFile_bind fun _ => leavesFile_bind fun _ => ?_
  refine leavesFile_bind fun _ => leavesFile_bind fun _ => leavesFile_bind fun _ => ?_
  refine leavesFile_bind fun _ => leavesFile_bind fun _ => ?_
  exact leavesFile_ok ⟨rfl, rfl⟩

theorem ndfoRecvWrite_leavesFile : LeavesFile req acc (ndfoRecvWrite env acc req) := by
  refine leavesFile_bind fun _ => leavesFile_bind fun _ => leavesFile_bind fun _ => ?_
  refine leavesFile_bind fun _ => leavesFile_bind fun _ => leavesFile_bind fun _ => ?_
  refine leavesFile_bind fun _ => leavesFile_bind fun _ => ?_
  exact leavesFile_ok ⟨rfl, rfl⟩

theorem ndfoRecvUnlockedIoctl_leavesFile : LeavesFile req acc (ndfoRecvUnlockedIoctl env acc req) := by
  refine leavesFile_bind fun _ => leavesFile_bind fun _ => leavesFile_bind fun _ => ?_
  refine leavesFile_bind fun _ => leavesFile_bind fun _ => leavesFile_bind fun _ => ?_
  exact leavesFile_ok ⟨rfl, rfl⟩

theorem ndfoRecvCompatIoctl_leavesFile : LeavesFile req acc (ndfoRecvCompatIoctl env acc req) := by
  refine leavesFile_bind fun _ => leavesFile_bind fun _ => leavesFile_bind fun _ => ?_
  refine leavesFile_bind fun _ => leavesFile_bind fun _ => leavesFile_bind fun _ => ?_
  exact leavesFile_ok ⟨rfl, rfl⟩

theorem ndfoRecvFlush_leavesFile : LeavesFile req acc (ndfoRecvFlush env acc req) := by
  apply leavesFile_bind
  intro ops
  cases ops.flush with
  | none => exact leavesFile_ok ⟨rfl, rfl⟩
  | some rvalue => exact leavesFile_bind fun _ => leavesFile_bind fun _ => leavesFile_ok ⟨rfl, rfl⟩

theorem ndfoRecvRelease_leavesFile : LeavesFile req acc (ndfoRecvRelease env acc req) := by
  refine leavesFile_bind fun _ => leavesFile_bind fun _ => leavesFile_bind fun _ => ?_
  exact leavesFile_ok ⟨rfl, rfl⟩

/-- What `filp_open` returns, or nothing. -/
def HandlerEnv.opened (env : HandlerEnv) : Option File :=
  match env.filpOpen with
  | .ok filp => some filp
  | .error _ => none

theorem ndfoRecvOpen_leavesFile : LeavesFile req ⟨env.opened⟩ (ndfoRecvOpen env acc req) := by
  unfold ndfoRecvOpen HandlerEnv.opened
  cases env.filpOpen with
  | error err => exact leavesFile_ok ⟨rfl, rfl⟩
  | ok filp =>
      by_cases hops : filp.fOp.isNone
      · simp only [hops, if_true]
        exact leavesFile_ok ⟨rfl, rfl⟩
      · simp only [hops]
        exact leavesFile_bind fun _ => leavesFile_bind fun _ => leavesFile_ok ⟨rfl, rfl⟩

/-- Every handler of the table but that of an open. -/
theorem netdevRecvFops_leavesFile {fofun : FoHandler} (h : some fofun ∈ netdevRecvFops.eraseIdx 10) :
    LeavesFile req acc (fofun env acc req) := by
  simp only [netdevRecvFops, List.eraseIdx, List.mem_cons, Option.some.injEq, List.not_mem_nil, reduceCtorEq,
    or_false, false_or] at h
  rcases h with rfl | rfl | rfl | rfl | rfl | rfl | rfl | rfl | rfl | rfl | rfl | rfl | rfl | rfl | rfl | rfl
  · exact ndfoRecvLlseek_leavesFile
  · exact ndfoRecvRead_leavesFile
  · exact ndfoRecvWrite_leavesFile
  · exact refuse_leavesFile
  · exact ndfoRecvUnlockedIoctl_leavesFile
  · exact ndfoRecvCompatIoctl_leavesFile
  · exact ndfoRecvFlush_leavesFile
  · exact ndfoRecvRelease_leavesFile
  all_goals exact refuse_leavesFile

/-- The handler of a message, by its type. -/
theorem foHandler_leavesFile {msgtype : Int32} {fofun : FoHandler} (h : foHandler msgtype = .ok (some fofun)) :
    LeavesFile req (if msgtype = MSGT_FO_OPEN then ⟨env.opened⟩ else acc) (fofun env acc req) := by
  unfold foHandler at h
  cases hfops : netdevRecvFops[(msgtype - (MSGT_FO_START + 1)).toNatClampNeg]? with
  | none =>
      rw [hfops] at h
      cases h
  | some f =>
      rw [hfops] at h
      obtain rfl := Except.ok.inj h
      by_cases hopen : msgtype = MSGT_FO_OPEN
      · subst hopen
        obtain rfl : ndfoRecvOpen = fofun := Option.some.inj (Option.some.inj hfops)
        rw [if_pos rfl]
        exact ndfoRecvOpen_leavesFile
      · rw [if_neg hopen]
        refine netdevRecvFops_leavesFile (List.mem_eraseIdx_iff_getElem?.mpr ⟨_, fun hten => hopen ?_, hfops⟩)
        have hint : (msgtype - (MSGT_FO_START + 1)).toInt = 10 := by
          have hclamp : (msgtype - (MSGT_FO_START + 1)).toInt.toNat = 10 := hten
          omega
        have hsub : msgtype - (MSGT_FO_START + 1) = 10 := Int32.toInt_inj.mp hint
        rw [← Int32.sub_add_cancel msgtype (MSGT_FO_START + 1), hsub]
        rfl

end Handlers

/-! ## The access id on the wire -/

/-- A copy behind the first bytes leaves them. -/
theorem memcpy_take {dst src out : Bytes} {off soff n k : Nat} (h : memcpy dst off src soff n = .ok out)
    (hk : k ≤ off) : out.take k = dst.take k := by
  unfold memcpy at h
  split at h
  case isFalse => cases h
  case isTrue hb =>
    obtain rfl := Except.ok.inj h
    have hlen : k ≤ (dst.take off).length := by
      rw [List.length_take]
      omega
    rw [List.append_assoc, List.take_append_of_le_length hlen, List.take_take, Nat.min_eq_left hk]

/-- A value at the start of a buffer. -/
theorem store_take {α : Type} [Layout α] {dst out : Bytes} {a : α} (h : store dst 0 a = .ok out) :
    out.take (sizeof α) = toBytes a := by
  unfold store memcpy at h
  split at h
  case isFalse => cases h
  case isTrue hb =>
    obtain rfl := Except.ok.inj h
    have hlen := Layout.length_toBytes a
    rw [List.take_zero, List.nil_append, List.drop_zero, ← hlen, List.take_length, List.take_left]

/-- What `fo_serialize` returns begins with the access id. -/
theorem foSerialize_accessId {ok : Bool} {req : FoReq} {buff : Bytes} (h : foSerialize ok req = .ok (some buff)) :
    ∃ rest, buff = toBytes req.accessId ++ rest := by
  have hrest : ∀ {out : Bytes}, out.take (sizeof Int32) = toBytes req.accessId →
      ∃ rest, out = toBytes req.accessId ++ rest := by
    intro out hout
    rw [← hout]
    exact ⟨out.drop (sizeof Int32), (List.take_append_drop _ _).symm⟩
  unfold foSerialize at h
  cases halloc : zalloc ok req.bufflen.toNat with
  | none =>
      simp only [halloc] at h
      cases h
  | some data =>
      simp only [halloc] at h
      obtain ⟨d₁, hd₁, h⟩ := Mem.bind_eq_ok h
      obtain ⟨d₂, hd₂, h⟩ := Mem.bind_eq_ok h
      obtain ⟨d₃, hd₃, h⟩ := Mem.bind_eq_ok h
      obtain ⟨d₄, hd₄, h⟩ := Mem.bind_eq_ok h
      have hhead : d₄.take (sizeof Int32) = toBytes req.accessId := by
        rw [memcpy_take hd₄ (by decide), memcpy_take hd₃ (by decide), memcpy_take hd₂ (by decide),
          store_take hd₁]
      have hoff : ∀ n, sizeof Int32 ≤ 0 + sizeof Int32 + sizeof Int32 + sizeof UInt64 + sizeof UInt64 + n :=
        fun n => Nat.le_add_right_of_le (by decide)
      cases hargs : req.args with
      | none =>
          simp only [hargs] at h
          obtain rfl := Option.some.inj (Except.ok.inj h)
          exact hrest hhead
      | some args =>
          simp only [hargs] at h
          obtain ⟨d₅, hd₅, h⟩ := Mem.bind_eq_ok h
          have hargs' : d₅.take (sizeof Int32) = toBytes req.accessId := by
            rw [memcpy_take hd₅ (hoff 0), hhead]
          by_cases hzero : req.dataSize = 0
          · rw [if_pos hzero] at h
            obtain rfl := Option.some.inj (Except.ok.inj h)
            exact hrest hargs'
          · rw [if_neg hzero] at h
            obtain ⟨data', -, h⟩ := Mem.bind_eq_ok h
            obtain ⟨d₆, hd₆, h⟩ := Mem.bind_eq_ok h
            obtain rfl := Option.some.inj (Except.ok.inj h)
            apply hrest
            rw [memcpy_take hd₆ (hoff _), hargs']

/-- `fo_deserialize` reads it there. -/
theorem foDeserialize_accessId {reqOk argsOk dataOk : Bool} {fresh req : FoReq} {data : Bytes}
    (h : foDeserialize reqOk argsOk dataOk fresh data = .ok (some req)) : req.accessId = asInt data := by
  have hload : ∀ {n : Int32}, load Int32 data 0 = .ok n → n = asInt data := by
    intro n hn
    unfold load at hn
    split at hn
    case isFalse => cases hn
    case isTrue => exact (Except.ok.inj hn).symm
  unfold foDeserialize at h
  cases reqOk with
  | false => cases h
  | true =>
      obtain ⟨accessId, hid, h⟩ := Mem.bind_eq_ok h
      obtain ⟨rvalue, -, h⟩ := Mem.bind_eq_ok h
      obtain ⟨size, -, h⟩ := Mem.bind_eq_ok h
      obtain ⟨dataSize, -, h⟩ := Mem.bind_eq_ok h
      rw [← hload hid]
      by_cases hsize : size = 0
      · simp only [hsize, if_true] at h
        obtain rfl := Option.some.inj (Except.ok.inj h)
        rfl
      · simp only [hsize, if_false] at h
        cases hargs : zalloc argsOk size.toNat with
        | none =>
            simp only [hargs] at h
            cases h
        | some args =>
            simp only [hargs] at h
            obtain ⟨args', -, h⟩ := Mem.bind_eq_ok h
            by_cases hdata : dataSize = 0
            · simp only [hdata, if_true] at h
              obtain rfl := Option.some.inj (Except.ok.inj h)
              rfl
            · simp only [hdata, if_false] at h
              cases hpayload : zalloc dataOk dataSize.toNat with
              | none =>
                  simp only [hpayload] at h
                  cases h
              | some payload =>
                  simp only [hpayload] at h
                  obtain ⟨payload', -, h⟩ := Mem.bind_eq_ok h
                  obtain rfl := Option.some.inj (Except.ok.inj h)
                  rfl

/-! ## `fo_execute` -/

/-- Two messages that `fo_recv` routes alike. -/
def SameRoute (nlh nlh' : NlMessage) : Prop :=
  nlh'.msgtype = nlh.msgtype ∧ asInt nlh'.payload = asInt nlh.payload

instance (nlh nlh' : NlMessage) : Decidable (SameRoute nlh nlh') := by
  unfold SameRoute
  infer_instance

/-- A copy to the start of a buffer. -/
theorem memcpy_front {dst src out : Bytes} (h : memcpy dst 0 src 0 src.length = .ok out) :
    out = src ++ dst.drop src.length := by
  unfold memcpy at h
  split at h
  case isFalse => cases h
  case isTrue hb =>
    obtain rfl := Except.ok.inj h
    simp

/-- The reply to a request, whichever way it is sent. -/
theorem foReply_sameRoute {alloc : ExecAlloc} {nlh reply : NlMessage} {req : FoReq} {rvalue : Int32}
    (h : foReply alloc nlh req = .ok (some reply, rvalue)) (hreq : req.accessId = asInt nlh.payload) :
    SameRoute nlh reply := by
  obtain ⟨buff, hbuff, h⟩ := Mem.bind_eq_ok h
  cases buff with
  | none =>
      obtain rfl := Option.some.inj (congrArg Prod.fst (Except.ok.inj h))
      exact ⟨rfl, rfl⟩
  | some buff =>
      obtain ⟨rest, hrest⟩ := foSerialize_accessId hbuff
      have hid : ∀ pad, asInt (buff ++ pad) = asInt nlh.payload := by
        intro pad
        rw [hrest, List.append_assoc, asInt_toBytes_append, hreq]
      by_cases hsame : buff.length = cSize (nlmsgPayloadLen nlh)
      · simp only [if_pos hsame] at h
        obtain ⟨payload, hcopy, h⟩ := Mem.bind_eq_ok h
        obtain rfl := Option.some.inj (congrArg Prod.fst (Except.ok.inj h))
        refine ⟨rfl, ?_⟩
        rw [memcpy_front hcopy]
        exact hid _
      · simp only [if_neg hsame] at h
        obtain ⟨packed, hpack, h⟩ := Mem.bind_eq_ok h
        obtain rfl := netlinkPackSkb_skb hpack (congrArg Prod.fst (Except.ok.inj h))
        exact ⟨rfl, hid _⟩

section Execute
variable {alloc : ExecAlloc} {env : HandlerEnv} {fresh : FoReq} {acc : ServerAccess} {nlh : NlMessage}
  {result : ExecResult}

/-- What every execution that returns has done. -/
theorem foExecute_spec (h : foExecute alloc env fresh acc nlh = .ok result) :
    result.acc = (if nlh.msgtype = MSGT_FO_OPEN then ⟨env.opened⟩ else acc) ∧
      ∀ reply, result.reply = some reply → SameRoute nlh reply := by
  obtain ⟨req, hreq, h⟩ := Mem.bind_eq_ok h
  cases req with
  | none => cases h
  | some req =>
      obtain ⟨fofun, hfofun, h⟩ := Mem.bind_eq_ok h
      cases fofun with
      | none =>
          obtain rfl := Except.ok.inj h
          refine ⟨(if_neg fun hopen => ?_).symm, fun reply hreply => ?_⟩
          · rw [hopen] at hfofun
            have htable : (some ndfoRecvOpen : Option FoHandler) = none := Except.ok.inj hfofun
            cases htable
          · obtain rfl := Option.some.inj hreply
            exact ⟨rfl, rfl⟩
      | some fofun =>
          obtain ⟨r, hr, h⟩ := Mem.bind_eq_ok h
          obtain ⟨hacc, hid⟩ := foHandler_leavesFile hfofun r hr
          obtain ⟨rvalue, acc', req'⟩ := r
          by_cases hfailed : rvalue = -1
          · simp only [if_pos hfailed] at h
            obtain rfl := Except.ok.inj h
            refine ⟨hacc, fun reply hreply => ?_⟩
            obtain rfl := Option.some.inj hreply
            exact ⟨rfl, rfl⟩
          · simp only [if_neg hfailed] at h
            obtain ⟨⟨reply, code⟩, hreply, h⟩ := Mem.bind_eq_ok h
            obtain rfl := Except.ok.inj h
            refine ⟨hacc, fun reply' hreply' => ?_⟩
            have hsome : reply = some reply' := hreply'
            rw [hsome] at hreply
            exact foReply_sameRoute hreply (hid.trans (foDeserialize_accessId hreq))

/-- Only an open touches the file. -/
theorem foExecute_acc (h : foExecute alloc env fresh acc nlh = .ok result) :
    result.acc = if nlh.msgtype = MSGT_FO_OPEN then ⟨env.opened⟩ else acc :=
  (foExecute_spec h).1

end Execute

end Netdev.Kernel
