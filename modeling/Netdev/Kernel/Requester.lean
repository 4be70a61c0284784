-- SUMMARY: `ndfo_send_read` and `ndfo_send_write` with their buffer, and which replies leave it to be freed exactly once.
import Netdev.Base.Ledger
import Netdev.Kernel.FoSend
import Netdev.Kernel.FoSizes

/-!
# The requester's buffer

A read or write allocates a buffer, puts its address into its args struct, and after the
reply copies from and frees what the struct points to. The reply is written over that
struct.
-/

namespace Netdev.Kernel.Requester
open Base

/-! ## The callers -/

/-- How `fo_send` ends: with an error, or with a reply to its request. The allocations are
those of `fo_deserialize_toreq`. -/
inductive Sent where
  | failed (rvalue : Int32) (negative : rvalue < 0)
  | replied (argsOk dataOk : Bool) (data : Bytes)

/-- How many bytes `copy_to_user` and `copy_from_user` leave of a length. No range of the
user's memory has 2^63 bytes: of such a length nothing is copied. -/
structure UserCopy where
  left : UInt64 → UInt64
  left_le : ∀ n, left n ≤ n
  refused : ∀ n, 2 ^ 63 ≤ n.toNat → left n = n

/-- What a call meets: `kmalloc` and its content, the user's memory, and how `fo_send` ends. -/
structure Env where
  kmalloc : Option UInt64
  content : (n : Nat) → { buf : Bytes // buf.length = n }
  copy : UserCopy
  sent : Sent

/-- How a call ends: its result, the offset it leaves, the allocations and frees, and the
kernel pointers that it has given to `copy_to_user`. -/
structure End where
  rvalue : Int64
  offset : Int64
  ledger : Ledger UInt64
  user : List UInt64

/-- `none` waits for ever: a reply that cannot be decoded completes nothing. -/
def foSend (req : FoReq) : Sent → Mem (Option (Int32 × FoReq))
  | .failed rvalue _ => return some (rvalue, req)
  | .replied argsOk dataOk data => do
      let (ok, req) ← foDeserializeToreq argsOk dataOk req data
      if !ok then
        return none
      else
        return some (req.rvalue, req)

def ndfoSendRead (env : Env) (accessId : Int32) (seq : Int64) (size : UInt64) (offset : Int64) :
    Mem (Option End) :=
  if hsize : size < NETDEV_MESSAGE_LIMIT then
    match env.kmalloc with
    | none => return some ⟨- ENOMEM.toInt64, offset, [], []⟩
    | some addr => do
        let buf : DataBuffer := ⟨size, hsize, addr, env.content size.toNat, (env.content size.toNat).property⟩
        match ← foSend ((FoCall.read buf offset).request accessId seq) env.sent with
        | none => return none
        | some (rvalue, req) =>
            if rvalue < 0 then
              return some ⟨rvalue.toInt64, offset, [.acquire addr], []⟩
            else do
              let args ← deref req.args
              let offset ← SFoRead.offsetField.load args
              let data ← SFoRead.dataField.load args
              let rvalue ← SFoRead.rvalueField.load args
              if (env.copy.left rvalue.toUInt64).toInt64 > 0 then
                return some ⟨-1, offset, [.acquire addr], [data]⟩
              else
                return some ⟨rvalue, offset, [.acquire addr, .release data], [data]⟩
  else
    return some ⟨- EINVAL.toInt64, offset, [], []⟩

/-- The result of `fo_send` is a `size_t` here, which is never negative. -/
def ndfoSendWrite (env : Env) (accessId : Int32) (seq : Int64) (size : UInt64) (offset : Int64) :
    Mem (Option End) :=
  if hsize : size < NETDEV_MESSAGE_LIMIT then
    match env.kmalloc with
    | none => return some ⟨- ENOMEM.toInt64, offset, [], []⟩
    | some addr => do
        let buf : DataBuffer := ⟨size, hsize, addr, env.content size.toNat, (env.content size.toNat).property⟩
        if env.copy.left size > 0 then
          return some ⟨- EIO.toInt64, offset, [.acquire addr], []⟩
        else
          match ← foSend ((FoCall.write buf offset).request accessId seq) env.sent with
          | none => return none
          | some (_, req) => do
              let args ← deref req.args
              let data ← SFoRead.dataField.load args
              let rvalue ← SFoRead.rvalueField.load args
              return some ⟨rvalue, offset, [.acquire addr, .release data], []⟩
  else
    return some ⟨- EINVAL.toInt64, offset, [], []⟩

inductive Direction where
  | read
  | write

def ndfoSend : Direction → Env → Int32 → Int64 → UInt64 → Int64 → Mem (Option End)
  | .read => ndfoSendRead
  | .write => ndfoSendWrite

/-! ## What a call owes -/

/-- The call returns without having left a buffer; the pointers that it copies from and frees
are the one of its `kmalloc`, which is freed exactly once. -/
def Safe (kmalloc : Option UInt64) (r : Mem (Option End)) : Prop :=
  ∃ e, r = .ok (some e) ∧ e.ledger.Settled ∧ (∀ p, .release p ∈ e.ledger → kmalloc = some p) ∧
    ∀ p ∈ e.user, kmalloc = some p

/-- The args of a reply fit into the struct and its data into the buffer of `size` bytes, and
it holds both. -/
structure Fits (size : UInt64) (reply : Bytes) : Prop where
  header : FoReq.headerSize ≤ reply.length
  args : wireSize reply ≠ 0 → (wireSize reply).toNat ≤ sizeof SFoRead ∧
    FoReq.headerSize + (wireSize reply).toNat ≤ reply.length
  data : wireSize reply ≠ 0 → wireDataSize reply ≠ 0 → (wireDataSize reply).toNat ≤ size.toNat ∧
    FoReq.headerSize + (wireSize reply).toNat + (wireDataSize reply).toNat ≤ reply.length

/-- A reply that leaves the requester's memory alone: it fits, and what it has of the struct's
first field is the address of the buffer. -/
structure Keeps (addr size : UInt64) (reply : Bytes) : Prop extends Fits size reply where
  pointer : (wireArgs reply).take (sizeof UInt64) <+: toBytes addr

/-- `args.rvalue` after a reply; behind its args lie the bytes of `-EIO`. -/
def replyRvalue (reply : Bytes) : Int64 :=
  ofBytes ((wireArgs reply).drop SFoRead.rvalueField.off
    ++ (toBytes (- EIO.toInt64)).drop ((wireSize reply).toNat - SFoRead.rvalueField.off))

/-- The length that a reply gives to `copy_to_user` is copied whole, or is negative, so that
nothing is copied and nothing is reported. -/
def Env.CopiesReply (env : Env) (reply : Bytes) : Prop :=
  replyRvalue reply < 0 ∨ env.copy.left (replyRvalue reply).toUInt64 = 0

/-- When the call is safe: it has no buffer; or a read gets a reply without an error that leaves
its memory alone and can be copied, or a write can be copied and its reply leaves its memory
alone. -/
def Settles (dir : Direction) (env : Env) (size : UInt64) : Prop :=
  size < NETDEV_MESSAGE_LIMIT → ∀ addr, env.kmalloc = some addr →
    match dir with
    | .read => ∃ argsOk dataOk data, env.sent = .replied argsOk dataOk data ∧ Keeps addr size data ∧
        0 ≤ wireRvalue data ∧ env.CopiesReply data
    | .write => env.copy.left size = 0 ∧
        ∀ argsOk dataOk data, env.sent = .replied argsOk dataOk data → Keeps addr size data

/-! ## The reply in the args struct -/

section Reply
variable {addr size : UInt64} {reply args buf : Bytes} {req : FoReq} {argsOk dataOk : Bool}

/-- What is written over a prefix leaves all as it was exactly when it was that prefix. -/
theorem overwrite_eq_iff {new old : Bytes} : new ++ old.drop new.length = old ↔ new <+: old := by
  constructor
  · intro h
    exact ⟨_, h⟩
  · rintro ⟨rest, rfl⟩
    simp

theorem Fits.args_length (h : Fits size reply) : (wireArgs reply).length = (wireSize reply).toNat := by
  unfold wireArgs
  by_cases hsize : wireSize reply = 0
  · simp [hsize]
  · have hargs := (h.args hsize).2
    rw [List.length_take, List.length_drop]
    omega

theorem Fits.overwrite_length (h : Fits size reply) (hargs : args.length = sizeof SFoRead) :
    (wireArgs reply ++ args.drop (wireSize reply).toNat).length = sizeof SFoRead := by
  have hle : (wireSize reply).toNat ≤ sizeof SFoRead := by
    by_cases hsize : wireSize reply = 0
    · simp [hsize]
    · exact (h.args hsize).1
  rw [List.length_append, List.length_drop, h.args_length]
  omega

/-- The first field of the struct, after the args of a reply were written over it. -/
theorem take_overwrite (addr : UInt64) (new rest : Bytes) :
    (new ++ (toBytes addr ++ rest).drop new.length).take (sizeof UInt64)
      = new.take (sizeof UInt64) ++ (toBytes addr).drop (new.take (sizeof UInt64)).length := by
  have haddr : (toBytes addr).length = sizeof UInt64 := Layout.length_toBytes addr
  rw [List.take_append, List.drop_append, List.length_take]
  congr 1
  by_cases hlong : sizeof UInt64 ≤ new.length
  · rw [Nat.sub_eq_zero_of_le hlong, Nat.min_eq_left hlong, ← haddr]
    simp
  · rw [Nat.min_eq_right (by omega), List.take_left']
    rw [List.length_drop, haddr]

/-- The pointer in the struct, after a reply. -/
theorem pointer_kept_iff (s : SFoRead) (h : Fits size reply) :
    SFoRead.dataField.load (wireArgs reply ++ (toBytes s).drop (wireSize reply).toNat) = .ok s.data ↔
      (wireArgs reply).take (sizeof UInt64) <+: toBytes s.data := by
  have hstruct : toBytes s = toBytes s.data ++ toBytes (s.size, s.offset, s.rvalue) := rfl
  have hlen : (toBytes s).length = sizeof SFoRead := Layout.length_toBytes s
  have hsizeof : sizeof SFoRead = 32 := rfl
  have hword : sizeof UInt64 = 8 := rfl
  rw [← h.args_length]
  have hload : SFoRead.dataField.load (wireArgs reply ++ (toBytes s).drop (wireArgs reply).length)
      = .ok (ofBytes ((wireArgs reply ++ (toBytes s).drop (wireArgs reply).length).take (sizeof UInt64))) := by
    apply if_pos
    change 0 + sizeof UInt64 ≤ _
    rw [List.length_append, List.length_drop]
    omega
  rw [hload, hstruct, take_overwrite, Except.ok.injEq, ← overwrite_eq_iff]
  constructor
  · intro heq
    have hbytes := congrArg toBytes heq
    rwa [Layout.toBytes_ofBytes] at hbytes
    rw [List.length_append, List.length_drop, Layout.length_toBytes, List.length_take]
    omega
  · intro heq
    rw [heq, Layout.ofBytes_toBytes]

/-- The result in the struct, after a reply. -/
theorem peek_rvalue (s : SFoRead) (hs : s.rvalue = - EIO.toInt64) (h : Fits size reply) :
    peek Int64 SFoRead.rvalueField.off (wireArgs reply ++ (toBytes s).drop (wireSize reply).toNat)
      = replyRvalue reply := by
  have hstruct : toBytes s = (toBytes s.data ++ toBytes s.size ++ toBytes s.offset) ++ toBytes s.rvalue := by
    simp only [List.append_assoc]
    rfl
  have hhead : (toBytes s.data ++ toBytes s.size ++ toBytes s.offset).length = SFoRead.rvalueField.off := by
    rw [List.length_append, List.length_append, Layout.length_toBytes, Layout.length_toBytes, Layout.length_toBytes]
    rfl
  have hoff : SFoRead.rvalueField.off = 24 := rfl
  have hsizeof : sizeof SFoRead = 32 := rfl
  have hword : sizeof Int64 = 8 := rfl
  have htail : ((toBytes s).drop (wireSize reply).toNat).drop (SFoRead.rvalueField.off - (wireSize reply).toNat)
      = (toBytes (- EIO.toInt64)).drop ((wireSize reply).toNat - SFoRead.rvalueField.off) := by
    rw [List.drop_drop, hstruct, List.drop_append, hhead, hs, List.drop_of_length_le (by omega), List.nil_append]
    congr 1
    omega
  have hlength := h.overwrite_length (Layout.length_toBytes s)
  unfold peek replyRvalue
  rw [List.drop_append, h.args_length, htail, List.take_of_length_le]
  rw [← htail, ← h.args_length, ← List.drop_append, List.length_drop, h.args_length, hlength]
  omega

theorem toInt64_pos_iff (n : UInt64) : n.toInt64 > 0 ↔ n ≠ 0 ∧ n.toNat < 2 ^ 63 := by
  have hcond := BitVec.toInt_eq_toNat_cond n.toBitVec
  have hint : n.toInt64.toInt = n.toBitVec.toInt := rfl
  have hnat : n.toBitVec.toNat = n.toNat := rfl
  have hzero : (0 : Int64).toInt = 0 := rfl
  have hne : n ≠ 0 ↔ n.toNat ≠ 0 := not_congr UInt64.toNat_inj.symm
  have hlt := n.toNat_lt
  rw [gt_iff_lt, Int64.lt_iff_toInt_lt, hint, hcond, hnat, hzero, hne]
  split
  all_goals omega

theorem toUInt64_lt_iff (n : Int64) : n.toUInt64.toNat < 2 ^ 63 ↔ ¬ n < 0 := by
  have hcond := BitVec.toInt_eq_toNat_cond n.toBitVec
  have hint : n.toInt = n.toBitVec.toInt := rfl
  have hnat : n.toUInt64.toNat = n.toBitVec.toNat := rfl
  have hzero : (0 : Int64).toInt = 0 := rfl
  have hlt := n.toUInt64.toNat_lt
  rw [Int64.lt_iff_toInt_lt, hint, hcond, hnat, hzero]
  split
  all_goals omega

/-- When a copy that has failed is seen to have failed. -/
theorem left_pos_iff (copy : UserCopy) (rvalue : Int64) :
    (copy.left rvalue.toUInt64).toInt64 > 0 ↔ ¬ (rvalue < 0 ∨ copy.left rvalue.toUInt64 = 0) := by
  have hle := UInt64.le_iff_toNat_le.mp (copy.left_le rvalue.toUInt64)
  have hneg := toUInt64_lt_iff rvalue
  rw [toInt64_pos_iff, not_or, and_comm, ← hneg]
  refine and_congr_left fun _ => ⟨fun hlt => ?_, fun hlt => by omega⟩
  by_contra hbig
  rw [copy.refused _ (Nat.le_of_not_lt hbig)] at hlt
  exact hbig hlt

theorem inBounds_iff_fits (hargs : req.args = some args) (hargsLen : args.length = sizeof SFoRead)
    (hdata : req.data = some buf) (hbufLen : buf.length = size.toNat) :
    InBounds argsOk dataOk req reply ↔ Fits size reply := by
  constructor
  · intro h
    refine ⟨h.header, ?_, ?_⟩
    · intro hsize
      have hfits := h.args hsize args (by simp [FoReq.argsBuffer, hargs])
      exact ⟨hargsLen ▸ hfits.2, hfits.1⟩
    · intro hsize hne
      have hfits := h.data hsize (by simp [FoReq.argsBuffer, hargs]) hne buf (by simp [FoReq.dataBuffer, hdata])
      exact ⟨hbufLen ▸ hfits.2, hfits.1⟩
  · intro h
    refine ⟨h.header, ?_, ?_⟩
    · intro hsize args' hbuffer
      simp [FoReq.argsBuffer, hargs] at hbuffer
      subst hbuffer
      exact ⟨(h.args hsize).2, hargsLen ▸ (h.args hsize).1⟩
    · intro hsize _ hne buf' hbuffer
      simp [FoReq.dataBuffer, hdata] at hbuffer
      subst hbuffer
      exact ⟨(h.data hsize hne).2, hbufLen ▸ (h.data hsize hne).1⟩

/-- What `fo_send` returns for a reply that fits. -/
theorem foSend_replied (hargs : req.args = some args) (hargsLen : args.length = sizeof SFoRead)
    (hdata : req.data = some buf) (hbufLen : buf.length = size.toNat) (h : Fits size reply) :
    ∃ r, foSend req (.replied argsOk dataOk reply) = .ok (some (wireRvalue reply, r)) ∧
      r.args = some (wireArgs reply ++ args.drop (wireSize reply).toNat) := by
  have hin : InBounds argsOk dataOk req reply := (inBounds_iff_fits hargs hargsLen hdata hbufLen).mpr h
  obtain ⟨ok, r, htoreq, hdecoded⟩ := foDeserializeToreq_inBounds hin
  cases ok with
  | false =>
      have hno := hdecoded.fails.mp rfl
      have hbuffer := hno.buffer
      simp [FoReq.argsBuffer, FoReq.dataBuffer, hargs, hdata] at hbuffer
  | true =>
      refine ⟨r, ?_, ?_⟩
      · simp [foSend, htoreq, hdecoded.rvalue]
      · by_cases hsize : wireSize reply = 0
        · rw [hdecoded.noArgs hsize, hargs]
          simp [wireArgs, hsize]
        · obtain ⟨args', hbuffer, hr⟩ := hdecoded.args rfl hsize
          simp [FoReq.argsBuffer, hargs] at hbuffer
          rw [hr, hbuffer]

/-- And if it does not fit, `fo_deserialize_toreq` leaves a buffer. -/
theorem fits_of_foSend (hargs : req.args = some args) (hargsLen : args.length = sizeof SFoRead)
    (hdata : req.data = some buf) (hbufLen : buf.length = size.toNat) {r : Option (Int32 × FoReq)}
    (h : foSend req (.replied argsOk dataOk reply) = .ok r) : Fits size reply := by
  obtain ⟨result, htoreq, -⟩ := Mem.bind_eq_ok h
  exact (inBounds_iff_fits hargs hargsLen hdata hbufLen).mp (inBounds_of_ok htoreq)

end Reply

/-! ## The calls -/

section Calls
variable {addr size : UInt64} {env : Env} {accessId : Int32} {seq : Int64} {offset : Int64}

theorem settled_acquire_iff {addr data : UInt64} :
    Ledger.Settled [.acquire addr, .release data] ↔ data = addr := by
  constructor
  · intro h
    have hone := h addr (by simp)
    by_contra hne
    simp [hne] at hone
  · rintro rfl
    exact Ledger.settled_singleton data

theorem not_settled_acquire : ¬ Ledger.Settled [.acquire addr] := Ledger.not_settled_of_leak
  (List.mem_singleton_self _) (by simp)

/-- The fields of the struct that are read after a reply. -/
theorem load_fields {args : Bytes} (h : args.length = sizeof SFoRead) :
    SFoRead.dataField.load args = .ok (peek UInt64 SFoRead.dataField.off args) ∧
      SFoRead.offsetField.load args = .ok (peek Int64 SFoRead.offsetField.off args) ∧
      SFoRead.rvalueField.load args = .ok (peek Int64 SFoRead.rvalueField.off args) := by
  refine ⟨load_of_le ?_, load_of_le ?_, load_of_le ?_⟩
  · rw [h]
    decide
  · rw [h]
    decide
  · rw [h]
    decide

theorem safe_ok_iff {kmalloc : Option UInt64} {e : End} : Safe kmalloc (.ok (some e)) ↔ e.ledger.Settled ∧
    (∀ p, .release p ∈ e.ledger → kmalloc = some p) ∧ ∀ p ∈ e.user, kmalloc = some p := by
  simp [Safe]

/-- The buffer is not freed. -/
theorem not_safe_leaked {kmalloc : Option UInt64} {rvalue offset : Int64} {user : List UInt64} :
    ¬ Safe kmalloc (.ok (some ⟨rvalue, offset, [.acquire addr], user⟩)) :=
  fun hsafe => not_settled_acquire (safe_ok_iff.mp hsafe).1

/-- A reply that does not fit is written outside of the struct or of the buffer, or read behind
its end. -/
theorem not_safe_unfit {req : FoReq} {args buf reply : Bytes} {argsOk dataOk : Bool} {kmalloc : Option UInt64}
    {k : Option (Int32 × FoReq) → Mem (Option End)} (hargs : req.args = some args)
    (hargsLen : args.length = sizeof SFoRead) (hdata : req.data = some buf) (hbufLen : buf.length = size.toNat)
    (h : ¬ Fits size reply) : ¬ Safe kmalloc (foSend req (.replied argsOk dataOk reply) >>= k) := by
  rintro ⟨e, he, -⟩
  obtain ⟨result, hsend, -⟩ := Mem.bind_eq_ok he
  exact h (fits_of_foSend hargs hargsLen hdata hbufLen hsend)

/-- What a call reads of its struct after a reply that fits: the pointer is still its own exactly
when the reply repeats it. -/
theorem foSend_fields {req : FoReq} {s : SFoRead} {buf reply : Bytes} {argsOk dataOk : Bool}
    (hargs : req.args = some (toBytes s)) (hs : s.rvalue = - EIO.toInt64) (hdata : req.data = some buf)
    (hbufLen : buf.length = size.toNat) (h : Fits size reply) :
    ∃ r args data offset rvalue, foSend req (.replied argsOk dataOk reply) = .ok (some (wireRvalue reply, r)) ∧
      r.args = some args ∧ SFoRead.dataField.load args = .ok data ∧
      SFoRead.offsetField.load args = .ok offset ∧ SFoRead.rvalueField.load args = .ok rvalue ∧
      (data = s.data ↔ (wireArgs reply).take (sizeof UInt64) <+: toBytes s.data) ∧
      rvalue = replyRvalue reply := by
  have hstruct : (toBytes s).length = sizeof SFoRead := Layout.length_toBytes s
  obtain ⟨r, hsend, hr⟩ := @foSend_replied size reply (toBytes s) buf req argsOk dataOk hargs hstruct hdata hbufLen h
  obtain ⟨hpointer, hoffset, hrvalue⟩ := load_fields (h.overwrite_length hstruct)
  have hkept := pointer_kept_iff s h
  rw [hpointer, Except.ok.injEq] at hkept
  exact ⟨r, _, _, _, _, hsend, hr, hpointer, hoffset, hrvalue, hkept, peek_rvalue s hs h⟩

/-- A read that has its buffer. -/
theorem ndfoSendRead_safe_iff (hsize : size < NETDEV_MESSAGE_LIMIT) (haddr : env.kmalloc = some addr) :
    Safe env.kmalloc (ndfoSendRead env accessId seq size offset) ↔
      ∃ argsOk dataOk reply, env.sent = .replied argsOk dataOk reply ∧ Keeps addr size reply ∧
        0 ≤ wireRvalue reply ∧ env.CopiesReply reply := by
  let s : SFoRead := { data := addr, size, offset, rvalue := - EIO.toInt64 }
  have hstruct : (toBytes s).length = sizeof SFoRead := Layout.length_toBytes s
  simp only [ndfoSendRead, dif_pos hsize, haddr]
  cases hsent : env.sent with
  | failed rvalue negative =>
      simp only [foSend, Mem.pure_eq_ok, Mem.bind_ok, if_pos negative]
      refine iff_of_false not_safe_leaked ?_
      rintro ⟨argsOk, dataOk, reply, hreply, -⟩
      cases hreply
  | replied argsOk dataOk reply =>
      by_cases hfits : Fits size reply
      · obtain ⟨r, args, data, offset', rvalue, hsend, hargs, hdata, hoffset, hrvalue, hpointer, hresult⟩ :=
          @foSend_fields size ((FoCall.read ⟨size, hsize, addr, env.content size.toNat,
            (env.content size.toNat).property⟩ offset).request accessId seq) s (env.content size.toNat) reply
            argsOk dataOk rfl rfl rfl (env.content size.toNat).property hfits
        simp only [hsend, Mem.bind_ok, Mem.pure_eq_ok, hargs, deref_some, hdata, hoffset, hrvalue]
        by_cases hneg : wireRvalue reply < 0
        · -- An error of the other side.
          rw [if_pos hneg]
          refine iff_of_false not_safe_leaked ?_
          rintro ⟨_, _, _, hreply, -, hpos, -⟩
          cases hreply
          exact absurd hneg (Int32.not_lt.mpr hpos)
        · rw [if_neg hneg]
          have hcopy := left_pos_iff env.copy rvalue
          rw [hresult] at hcopy
          by_cases hcopied : env.CopiesReply reply
          · rw [hresult, if_neg (hcopy.not.mpr (not_not.mpr hcopied)), safe_ok_iff, settled_acquire_iff]
            constructor
            · rintro ⟨rfl, -⟩
              exact ⟨_, _, _, rfl, ⟨hfits, hpointer.mp rfl⟩, Int32.not_lt.mp hneg, hcopied⟩
            · rintro ⟨_, _, _, hreply, hkeeps, -⟩
              cases hreply
              obtain rfl := hpointer.mpr hkeeps.pointer
              simp
          · rw [hresult, if_pos (hcopy.mpr hcopied)]
            refine iff_of_false not_safe_leaked ?_
            rintro ⟨_, _, _, hreply, -, -, hcopies⟩
            cases hreply
            exact hcopied hcopies
      · refine iff_of_false (not_safe_unfit rfl hstruct rfl (env.content size.toNat).property hfits) ?_
        rintro ⟨_, _, _, hreply, hkeeps, -⟩
        cases hreply
        exact hfits hkeeps.toFits

/-- A write that has its buffer. -/
theorem ndfoSendWrite_safe_iff (hsize : size < NETDEV_MESSAGE_LIMIT) (haddr : env.kmalloc = some addr) :
    Safe env.kmalloc (ndfoSendWrite env accessId seq size offset) ↔ env.copy.left size = 0 ∧
      ∀ argsOk dataOk reply, env.sent = .replied argsOk dataOk reply → Keeps addr size reply := by
  let s : SFoRead := { data := addr, size, offset, rvalue := - EIO.toInt64 }
  have hstruct : (toBytes s).length = sizeof SFoRead := Layout.length_toBytes s
  simp only [ndfoSendWrite, dif_pos hsize, haddr]
  by_cases hcopied : env.copy.left size = 0
  swap
  · rw [if_pos (UInt64.pos_iff_ne_zero.mpr hcopied)]
    exact iff_of_false not_safe_leaked (fun h => hcopied h.1)
  · rw [if_neg (by simp [hcopied]), and_iff_right hcopied]
    cases hsent : env.sent with
    | failed rvalue negative =>
        obtain ⟨-, -, hrvalue⟩ := load_fields hstruct
        have hdata : SFoRead.dataField.load (toBytes s) = .ok addr := SFoRead.dataField.load_toBytes s
        have hargs : ((FoCall.write ⟨size, hsize, addr, env.content size.toNat, (env.content size.toNat).property⟩
          offset).request accessId seq).args = some (toBytes s) := rfl
        simp only [foSend, Mem.pure_eq_ok, Mem.bind_ok, hargs, deref_some, hdata, hrvalue]
        refine iff_of_true (safe_ok_iff.mpr ⟨Ledger.settled_singleton addr, ?_, ?_⟩) ?_
        · simp
        · simp
        · exact fun _ _ _ hreply => nomatch hreply
    | replied argsOk dataOk reply =>
        by_cases hfits : Fits size reply
        · obtain ⟨r, args, data, offset', rvalue, hsend, hargs, hdata, -, hrvalue, hpointer, -⟩ :=
            @foSend_fields size ((FoCall.write ⟨size, hsize, addr, env.content size.toNat,
              (env.content size.toNat).property⟩ offset).request accessId seq) s (env.content size.toNat) reply
              argsOk dataOk rfl rfl rfl (env.content size.toNat).property hfits
          simp only [hsend, Mem.bind_ok, Mem.pure_eq_ok, hargs, deref_some, hdata, hrvalue]
          rw [safe_ok_iff, settled_acquire_iff]
          constructor
          · rintro ⟨rfl, -⟩ _ _ _ hreply
            cases hreply
            exact ⟨hfits, hpointer.mp rfl⟩
          · intro hkeeps
            obtain rfl := hpointer.mpr (hkeeps _ _ _ rfl).pointer
            simp
        · refine iff_of_false (not_safe_unfit rfl hstruct rfl (env.content size.toNat).property hfits) ?_
          intro hkeeps
          exact hfits (hkeeps _ _ _ rfl).toFits

end Calls

/-- For every read and write, with whatever happens to its buffer and whatever comes back for
its request: the call is safe exactly when it has no buffer, or its bytes are copied and the
reply leaves its memory alone, which a read must have got without an error. -/
theorem ndfoSend_safe_iff (dir : Direction) (env : Env) (accessId : Int32) (seq : Int64) (size : UInt64)
    (offset : Int64) :
    Safe env.kmalloc (ndfoSend dir env accessId seq size offset) ↔ Settles dir env size := by
  unfold Settles
  by_cases hsize : size < NETDEV_MESSAGE_LIMIT
  · cases haddr : env.kmalloc with
    | none =>
        refine iff_of_true ?_ (by simp)
        cases dir <;> simp [ndfoSend, ndfoSendRead, ndfoSendWrite, hsize, haddr, safe_ok_iff, Ledger.settled_nil]
    | some addr =>
        have hone : ∀ {P : UInt64 → Prop},
            (size < NETDEV_MESSAGE_LIMIT → ∀ a, some addr = some a → P a) ↔ P addr := by
          intro P
          simp [hsize]
        rw [hone, ← haddr]
        cases dir with
        | read => exact ndfoSendRead_safe_iff hsize haddr
        | write => exact ndfoSendWrite_safe_iff hsize haddr
  · refine iff_of_true ?_ (fun h => absurd h hsize)
    cases dir <;> simp [ndfoSend, ndfoSendRead, ndfoSendWrite, hsize, safe_ok_iff, Ledger.settled_nil]

/-- All memory of the user can be written. -/
def allCopied : UserCopy where
  left n := if n.toNat < 2 ^ 63 then 0 else n
  left_le n := by
    split
    · exact UInt64.le_iff_toNat_le.mpr (Nat.zero_le _)
    · exact UInt64.le_iff_toNat_le.mpr (Nat.le_refl _)
  refused n h := if_neg (Nat.not_lt.mpr h)

/-- A reply to a read that puts another address into the struct. -/
def forged : Bytes := toBytes (3 : Int32) ++ toBytes (0 : Int32) ++ toBytes (8 : UInt64) ++ toBytes (0 : UInt64) ++
  toBytes (0xdead : UInt64)

/-- `kfree` gets the address that the peer has chosen, and the buffer is leaked. -/
theorem ndfoSend_frees_forged :
    let env : Env := ⟨some 0x1000, zeros, allCopied,
      .replied true true forged⟩
    (∃ e, ndfoSend .read env 3 1 4 0 = .ok (some e) ∧ e.ledger = [.acquire 0x1000, .release 0xdead]) ∧
      ¬ Safe env.kmalloc (ndfoSend .read env 3 1 4 0) := by
  intro env
  have hledger : (ndfoSend .read env 3 1 4 0).toOption.join.map (·.ledger)
      = some [.acquire 0x1000, .release 0xdead] := by decide +kernel
  have hrun : ∃ e, ndfoSend .read env 3 1 4 0 = .ok (some e) ∧ e.ledger = [.acquire 0x1000, .release 0xdead] := by
    cases h : ndfoSend .read env 3 1 4 0 with
    | error e => simp [h, Except.toOption] at hledger
    | ok r =>
        cases r with
        | none => simp [h, Except.toOption] at hledger
        | some e => exact ⟨e, rfl, by simpa [h, Except.toOption] using hledger⟩
  refine ⟨hrun, ?_⟩
  obtain ⟨e, he, hledger⟩ := hrun
  rw [he, safe_ok_iff, hledger]
  intro hsafe
  exact absurd hsafe.1 (by decide)

end Netdev.Kernel.Requester
