-- SUMMARY: The reply to a read of any size: when its length does not wrap and its copies stay inside their buffers.
import Netdev.Kernel.FoBounds

/-!
# The size of a reply

`ndfo_recv_read` takes the size of its buffer from the message, and keeps it as the size of the
data when there is no buffer. `fo_serialize` adds the sizes modulo 2^64, and copies as much as
they say.
-/

namespace Netdev.Kernel
open Base

/-! ## What a handler leaves -/

/-- What a handler leaves in a request that has args: `kept` says whether the data is there. -/
structure Sized (kept : Bool) (argsLen dataLen : UInt64) (req : FoReq) : Prop where
  pointer : ∃ args, req.args = some args ∧ args.length = argsLen.toNat
  size : req.size = argsLen
  dataSize : req.dataSize = dataLen
  missing : kept = false → req.data = none
  present : kept = true → dataLen ≠ 0 → ∃ buf, req.data = some buf ∧ buf.length = dataLen.toNat

theorem Sized.withRvalue {kept : Bool} {size dataSize : UInt64} {req : FoReq} (h : Sized kept size dataSize req)
    (rvalue : Int32) : Sized kept size dataSize { req with rvalue } :=
  ⟨h.pointer, h.size, h.dataSize, h.missing, h.present⟩

theorem Field.load_eq_ok {σ α : Type} [Layout σ] [Layout α] {f : Field σ α} {buf : Bytes} {a : α}
    (h : f.load buf = .ok a) : a = peek α f.off buf := by
  unfold Field.load load at h
  split at h
  · cases h
    rfl
  · cases h

theorem ndfoRecvRead_sized {env : HandlerEnv} {acc acc' : ServerAccess} {args : Bytes} {req result : FoReq}
    {rvalue : Int32} (hargs : req.args = some args) (hlen : args.length = req.size.toNat)
    (h : ndfoRecvRead env acc req = .ok (rvalue, acc', result)) :
    Sized env.dataOk req.size (argsSize args) result := by
  unfold ndfoRecvRead at h
  rw [hargs, deref_some, Mem.bind_ok] at h
  obtain ⟨size, hsize, h⟩ := Mem.bind_eq_ok h
  obtain ⟨ops, -, h⟩ := Mem.bind_eq_ok h
  obtain ⟨read, -, h⟩ := Mem.bind_eq_ok h
  obtain ⟨offset, -, h⟩ := Mem.bind_eq_ok h
  obtain ⟨⟨value, offset', data⟩, hdata, h⟩ := Mem.bind_eq_ok h
  obtain ⟨args', hargs', h⟩ := Mem.bind_eq_ok h
  obtain ⟨args'', hargs'', h⟩ := Mem.bind_eq_ok h
  cases h
  obtain rfl := Field.load_eq_ok hsize
  refine ⟨⟨args'', rfl, ((memcpy_length hargs'').trans (memcpy_length hargs')).trans hlen⟩, rfl, rfl, ?_, ?_⟩
  · intro hok
    rw [hok] at hdata
    obtain ⟨⟨value', offset''⟩, -, h⟩ := Mem.bind_eq_ok hdata
    cases h
    rfl
  · intro hok hne
    rw [hok] at hdata
    cases hdata
    exact ⟨_, rfl, (read _ offset).data.property.trans (List.length_replicate ..)⟩

/-! ## The reply -/

/-- The length of the reply is the sum of its parts, and `fo_serialize` copies inside the
buffer of this length, and inside the args and the data of the request. -/
structure ReplyFits (ok : Bool) (req : FoReq) : Prop where
  bufflen : req.bufflen.toNat = FoReq.headerSize + req.size.toNat + req.dataSize.toNat
  copies : ∃ data, foSerialize ok req = .ok data

theorem bufflen_eq_iff (req : FoReq) :
    req.bufflen.toNat = FoReq.headerSize + req.size.toNat + req.dataSize.toNat ↔
      FoReq.headerSize + req.size.toNat + req.dataSize.toNat < 2 ^ 64 := by
  have hhead : (UInt64.ofNat FoReq.headerSize).toNat = FoReq.headerSize := rfl
  have hlt := req.bufflen.toNat_lt
  unfold FoReq.bufflen at *
  rw [UInt64.toNat_add, UInt64.toNat_add, hhead] at *
  omega

section Serialize
variable {ok kept : Bool} {size dataSize : UInt64} {req : FoReq}

/-- Where the data is missing, there is nothing to copy from. -/
theorem foSerialize_missing (hargs : req.args ≠ none) (hdata : req.data = none) (hsize : req.dataSize ≠ 0)
    (out : Ptr) : foSerialize true req ≠ .ok out := by
  intro h
  obtain ⟨args, hargs⟩ := Option.ne_none_iff_exists'.mp hargs
  unfold foSerialize at h
  simp only [zalloc_true, hargs, hdata, if_neg hsize] at h
  obtain ⟨_, -, h⟩ := Mem.bind_eq_ok h
  obtain ⟨_, -, h⟩ := Mem.bind_eq_ok h
  obtain ⟨_, -, h⟩ := Mem.bind_eq_ok h
  obtain ⟨_, -, h⟩ := Mem.bind_eq_ok h
  obtain ⟨_, -, h⟩ := Mem.bind_eq_ok h
  cases h

/-- What is left can be serialised when its data is there. -/
theorem Sized.holds (h : Sized kept size dataSize req) (hsize : size ≠ 0)
    (hlt : FoReq.headerSize + size.toNat + dataSize.toNat < 2 ^ 64) (hthere : dataSize = 0 ∨ kept = true) :
    ∃ args payload, req.Holds args payload ∧ args.length = size.toNat ∧ payload.length = dataSize.toNat := by
  obtain ⟨args, hargs, hlen⟩ := h.pointer
  have hholds {payload : Bytes} (hlength : payload.length = dataSize.toNat)
      (hpayload : dataSize ≠ 0 → req.data = some payload) : req.Holds args payload := by
    refine ⟨hargs, ?_, h.size ▸ hsize, fun hne => ⟨[], ?_⟩, ?_, ?_⟩
    · rw [hlen, h.size]
    · simpa using hpayload (h.dataSize ▸ hne)
    · rw [hlength, h.dataSize]
    · rw [hlen, hlength]
      exact hlt
  obtain hzero | hkept := hthere
  · exact ⟨args, [], hholds (by rw [hzero]; rfl) (fun hne => absurd hzero hne), hlen, by rw [hzero]; rfl⟩
  · by_cases hzero : dataSize = 0
    · exact ⟨args, [], hholds (by rw [hzero]; rfl) (fun hne => absurd hzero hne), hlen, by rw [hzero]; rfl⟩
    · obtain ⟨buf, hbuf, hlength⟩ := h.present hkept hzero
      exact ⟨args, buf, hholds hlength fun _ => hbuf, hlen, hlength⟩

/-- The reply fits exactly when its length does not wrap, and the data is there when it is
copied. -/
theorem Sized.replyFits_iff (h : Sized kept size dataSize req) (hsize : size ≠ 0) :
    ReplyFits ok req ↔ FoReq.headerSize + size.toNat + dataSize.toNat < 2 ^ 64 ∧
      (dataSize = 0 ∨ kept = true ∨ ok = false) := by
  have hsum := bufflen_eq_iff req
  rw [h.size, h.dataSize] at hsum
  constructor
  · intro hfits
    refine ⟨hsum.mp (h.size ▸ h.dataSize ▸ hfits.bufflen), ?_⟩
    cases hok : ok with
    | false => exact .inr (.inr rfl)
    | true =>
        cases hkept : kept with
        | true => exact .inr (.inl rfl)
        | false =>
            obtain ⟨args, hargs, -⟩ := h.pointer
            obtain ⟨data, hcopies⟩ := hfits.copies
            rw [hok] at hcopies
            refine .inl (Decidable.byContradiction fun hne => ?_)
            exact foSerialize_missing (by simp [hargs]) (h.missing hkept) (h.dataSize ▸ hne) data hcopies
  · intro ⟨hlt, hthere⟩
    refine ⟨h.size ▸ h.dataSize ▸ hsum.mpr hlt, ?_⟩
    cases ok with
    | false => exact ⟨none, rfl⟩
    | true =>
        obtain ⟨args, payload, holds, -⟩ := h.holds hsize hlt (by simpa using hthere)
        exact ⟨_, holds.foSerialize⟩

end Serialize

/-! ## From the message on -/

section Messages
variable {alloc : ExecAlloc} {env : HandlerEnv} {acc acc' : ServerAccess} {rvalue : Int32}
  {fresh req result : FoReq} {payload : Bytes}

/-- The args of a decoded request that has some. -/
theorem args_of_decoded (hseen : foDeserialize alloc.req alloc.args alloc.data fresh payload = .ok (some req))
    {args : Bytes} (hargs : req.args = some args) :
    args = wireArgs payload ∧ args.length = req.size.toNat ∧ req.size = wireSize payload ∧ req.size ≠ 0 := by
  cases hreq : alloc.req with
  | false =>
      rw [hreq] at hseen
      cases hseen
  | true =>
      rw [hreq] at hseen
      have htoreq := foDeserialize_some_iff.mp hseen
      have hin := inBounds_of_ok htoreq
      obtain ⟨ok, r, htoreq', hdecoded⟩ := foDeserializeToreq_inBounds hin
      obtain ⟨rfl, rfl⟩ := Prod.mk.inj (Except.ok.inj (htoreq.symm.trans htoreq'))
      have hreceived := hdecoded.received hin
      have hwire : args = wireArgs payload := by
        rw [← hreceived.args, hargs, Option.getD_some]
      refine ⟨hwire, ?_, hdecoded.size, fun hzero => ?_⟩
      · rw [hwire, hreceived.args_length, hdecoded.size]
      · have hnone := hdecoded.noArgs (hdecoded.size.symm.trans hzero)
        cases hargs.symm.trans hnone

/-- For every payload of a read, allocator and device: when `ndfo_recv_read` returns, the reply
has its true length and is copied inside its buffers exactly when the sum of the sizes is less
than 2^64, and the data is not missing when it is copied. -/
theorem replySize_iff (hseen : foDeserialize alloc.req alloc.args alloc.data fresh payload = .ok (some req))
    (hread : ndfoRecvRead env acc req = .ok (rvalue, acc', result)) :
    ReplyFits alloc.buff { result with rvalue } ↔
      FoReq.headerSize + (wireSize payload).toNat + (argsSize (wireArgs payload)).toNat < 2 ^ 64 ∧
        (argsSize (wireArgs payload) = 0 ∨ env.dataOk = true ∨ alloc.buff = false) := by
  have hpointer : ∃ args, req.args = some args := by
    obtain ⟨args, hargs, -⟩ := Mem.bind_eq_ok hread
    cases hreq : req.args with
    | none =>
        rw [hreq] at hargs
        cases hargs
    | some args => exact ⟨args, rfl⟩
  obtain ⟨args, hargs⟩ := hpointer
  obtain ⟨rfl, hlen, hsize, hne⟩ := args_of_decoded hseen hargs
  rw [((ndfoRecvRead_sized hargs hlen hread).withRvalue rvalue).replyFits_iff hne, hsize]

end Messages

namespace Sample

/-- A device that answers a null pointer with `-EFAULT`, as `copy_to_user` does. -/
def tolerant : ServerAccess :=
  ⟨some ⟨some { llseek := none, write := none, unlockedIoctl := none, compatIoctl := none, flush := none
                read := some fun buf offset =>
                  ⟨Int64.ofNat buf.length, offset, zeros buf.length⟩
                nullRead := fun _ offset => some (-14, offset) }, 0⟩⟩

/-- A read of so many bytes. -/
def readPayload (size : UInt64) : Bytes :=
  toBytes (3 : Int32) ++ toBytes (-1 : Int32) ++ toBytes (32 : UInt64) ++ toBytes (0 : UInt64) ++
    toBytes ({ data := 0, size, offset := 0, rvalue := 0 } : SFoRead)

/-- `kzalloc` cannot serve the size of the data. -/
def refusing : HandlerEnv := ⟨.error 0, false⟩

def readReq (size : UInt64) : FoReq :=
  { freshReq with
    accessId := 3
    rvalue := -1
    size := 32
    args := some (toBytes ({ data := 0, size, offset := 0, rvalue := 0 } : SFoRead)) }

def readResult (size : UInt64) : FoReq :=
  { readReq size with
    dataSize := size
    args := some (toBytes ({ data := 0, size, offset := 0, rvalue := -14 } : SFoRead)) }

end Sample

/-- A read of 16 bytes, with all allocations. -/
theorem replySize_small : ∃ req acc result,
    foDeserialize true true true Sample.freshReq (Sample.readPayload 16) = .ok (some req) ∧
      ndfoRecvRead Sample.closed Sample.tolerant req = .ok (0, acc, result) ∧
      ReplyFits true { result with rvalue := 0 } := by
  have hseen : foDeserialize true true true Sample.freshReq (Sample.readPayload 16)
      = .ok (some (Sample.readReq 16)) := by decide +kernel
  have hread : ∃ acc result,
      ndfoRecvRead Sample.closed Sample.tolerant (Sample.readReq 16) = .ok (0, acc, result) := ⟨_, _, rfl⟩
  obtain ⟨acc, result, hread⟩ := hread
  refine ⟨_, acc, result, hseen, hread, (@replySize_iff .all _ _ _ _ _ _ _ _ hseen hread).mpr ⟨?_, .inr (.inl rfl)⟩⟩
  decide +kernel

/-- The sizes add up to 24: the args are copied behind a buffer that has room for the header. -/
theorem replySize_wraps : ∃ req acc result,
    foDeserialize true true true Sample.freshReq (Sample.readPayload (-32)) = .ok (some req) ∧
      ndfoRecvRead Sample.refusing Sample.tolerant req = .ok (0, acc, result) ∧
      { result with rvalue := 0 }.bufflen = 24 ∧ ¬ ReplyFits true { result with rvalue := 0 } := by
  refine ⟨Sample.readReq (-32), Sample.tolerant, Sample.readResult (-32), by decide +kernel, ?_, rfl, fun h => ?_⟩
  · rfl
  · exact absurd h.bufflen (by decide)

end Netdev.Kernel
