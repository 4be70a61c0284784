-- SUMMARY: The wire codec of requests in both directions: requests survive the wire, and framed buffers survive a request.
import Netdev.Kernel.FoComm

/-!
# The codec of requests

A buffer is framed when it is as long as its own header says. Framed buffers are
exactly what `fo_serialize` makes of requests with args, and both decoders read them
alike.
-/

namespace Netdev.Kernel
open Base

/-- The six values that travel. The pointers stand for the bytes behind them. -/
def FoReq.content (req : FoReq) : Int32 × Int32 × UInt64 × UInt64 × Bytes × Bytes :=
  (req.accessId, req.rvalue, req.size, req.dataSize,
    (req.args.getD []).take req.size.toNat, (req.data.getD []).take req.dataSize.toNat)

/-- The buffer has exactly the bytes that its header speaks of, with args. -/
structure Framed (buf : Bytes) (size dataSize : UInt64) : Prop where
  loadSize : load UInt64 buf (sizeof Int32 + sizeof Int32) = .ok size
  loadDataSize : load UInt64 buf (sizeof Int32 + sizeof Int32 + sizeof UInt64) = .ok dataSize
  nonempty : size ≠ 0
  length : buf.length = FoReq.headerSize + size.toNat + dataSize.toNat
  total : buf.length < 2 ^ 64

variable {req fresh dst : FoReq} {args payload buf : Bytes} {size dataSize : UInt64}

/-! ## From requests to buffers -/

theorem FoReq.Holds.content (h : req.Holds args payload) :
    req.content = (req.accessId, req.rvalue, req.size, req.dataSize, args, payload) := by
  have hargs : (req.args.getD []).take req.size.toNat = args := by
    rw [h.pointer, Option.getD_some, ← h.size, List.take_length]
  have hpayload : (req.data.getD []).take req.dataSize.toNat = payload := by
    by_cases hzero : req.dataSize = 0
    · rw [hzero, h.payload_eq_nil hzero]
      simp
    · obtain ⟨rest, hdata⟩ := h.data hzero
      rw [hdata, Option.getD_some, ← h.dataSize, List.take_left]
  rw [FoReq.content, hargs, hpayload]

/-- What `fo_deserialize` makes of a request on the wire. -/
def FoReq.received (req fresh : FoReq) (args payload : Bytes) : FoReq :=
  { fresh with
    accessId := req.accessId, rvalue := req.rvalue, size := req.size, dataSize := req.dataSize
    args := some args
    data := if req.dataSize = 0 then none else some payload }

theorem FoReq.Holds.received (h : req.Holds args payload) (fresh : FoReq) :
    (req.received fresh args payload).Holds args payload where
  pointer := rfl
  size := h.size
  nonempty := h.nonempty
  data hne := ⟨[], (if_neg hne).trans (congrArg some (List.append_nil payload).symm)⟩
  dataSize := h.dataSize
  total := h.total

/-! ## From buffers to requests -/

theorem load_eq {α : Type} [Layout α] {off : Nat} {a : α} (h : load α buf off = .ok a) :
    (buf.drop off).take (sizeof α) = toBytes a := by
  unfold load at h
  by_cases hle : off + sizeof α ≤ buf.length
  · rw [if_pos hle] at h
    rw [← Except.ok.inj h, Layout.toBytes_ofBytes]
    rw [List.length_take, List.length_drop]
    omega
  · rw [if_neg hle] at h
    cases h

theorem load_ok {α : Type} [Layout α] {off : Nat} (h : off + sizeof α ≤ buf.length) :
    ∃ a, load α buf off = .ok a := ⟨_, if_pos h⟩

/-- The next `n` bytes of a walk. -/
theorem drop_eq_append (buf : Bytes) (off n : Nat) :
    buf.drop off = (buf.drop off).take n ++ buf.drop (off + n) := by
  rw [← List.drop_drop, List.take_append_drop]

/-- A framed buffer is a request on the wire. -/
theorem Framed.exists_wire (h : Framed buf size dataSize) :
    ∃ (req : FoReq) (args payload : Bytes), req.Holds args payload ∧ buf = req.wire args payload := by
  have hlength := h.length
  have hint : sizeof Int32 = 4 := rfl
  have hlong : sizeof UInt64 = 8 := rfl
  have hhead : FoReq.headerSize = 24 := rfl
  obtain ⟨accessId, haccess⟩ := @load_ok buf Int32 _ 0 (by omega)
  obtain ⟨rvalue, hrvalue⟩ := @load_ok buf Int32 _ (sizeof Int32) (by omega)
  let rest := buf.drop FoReq.headerSize
  have hrest : rest.length = size.toNat + dataSize.toNat := by
    change (buf.drop FoReq.headerSize).length = _
    rw [List.length_drop]
    omega
  let req : FoReq := ⟨0, 0, accessId, some (rest.take size.toNat), some (rest.drop size.toNat), size, dataSize,
    rvalue⟩
  have hargs : (rest.take size.toNat).length = size.toNat := by
    rw [List.length_take]
    omega
  have hpayload : (rest.drop size.toNat).length = dataSize.toNat := by
    rw [List.length_drop]
    omega
  have hheader : buf = req.header ++ rest := by
    have haccess' := load_eq haccess
    have hrvalue' := load_eq hrvalue
    have hsize' := load_eq h.loadSize
    have hdataSize' := load_eq h.loadDataSize
    calc buf = buf.drop 0 := rfl
      _ = toBytes accessId ++ (toBytes rvalue ++ (toBytes size ++ (toBytes dataSize ++ rest))) := by
        rw [drop_eq_append buf 0 (sizeof Int32), haccess', Nat.zero_add]
        rw [drop_eq_append buf _ (sizeof Int32), hrvalue']
        rw [drop_eq_append buf _ (sizeof UInt64), hsize']
        rw [drop_eq_append buf _ (sizeof UInt64), hdataSize']
        rfl
      _ = req.header ++ rest := by simp [FoReq.header, req]
  refine ⟨req, rest.take size.toNat, rest.drop size.toNat, ⟨rfl, hargs, h.nonempty, ?_, hpayload, ?_⟩, ?_⟩
  · exact fun _ => ⟨[], (congrArg some (List.append_nil _)).symm⟩
  · have htotal := h.total
    omega
  · rw [FoReq.wire, List.append_assoc, List.take_append_drop]
    exact hheader

/-! ## Both directions -/

/-- A request keeps its content on the wire; a framed buffer is what its request
serializes to; and both decoders read it alike. -/
theorem foReq_codec :
    (∀ req args payload fresh, FoReq.Holds req args payload → ∃ buf req',
      foSerialize true req = .ok (some buf) ∧ foDeserialize true true true fresh buf = .ok (some req') ∧
      req'.content = req.content) ∧
    (∀ buf size dataSize fresh, Framed buf size dataSize → ∃ req',
      foDeserialize true true true fresh buf = .ok (some req') ∧ foSerialize true req' = .ok (some buf) ∧
      req'.bufflen.toNat = buf.length ∧
      ∀ dst : FoReq, dst.args = none → dst.data = none → ∃ req'',
        foDeserializeToreq true true dst buf = .ok (true, req'') ∧ req''.content = req'.content) := by
  have hwire : ∀ {req args payload} (fresh : FoReq), FoReq.Holds req args payload →
      foDeserialize true true true fresh (req.wire args payload)
        = .ok (some (req.received fresh args payload)) := by
    intro req args payload fresh h
    have hdecode := h.foDeserialize fresh []
    rw [List.append_nil] at hdecode
    exact hdecode
  refine ⟨?_, ?_⟩
  · intro req args payload fresh h
    refine ⟨_, _, h.foSerialize, hwire fresh h, ?_⟩
    rw [(h.received fresh).content, h.content]
    rfl
  · intro buf size dataSize fresh hframed
    obtain ⟨req, args, payload, h, rfl⟩ := hframed.exists_wire
    refine ⟨_, hwire fresh h, (h.received fresh).foSerialize, ?_, ?_⟩
    · rw [(h.received fresh).bufflen, FoReq.wire, List.length_append, List.length_append,
        FoReq.header_length]
    · intro dst hargs hdata
      have hdecode := @FoReq.Holds.foDeserializeToreq req args payload dst (List.replicate args.length 0)
        (List.replicate payload.length 0) [] true true h (by rw [hargs]; rfl) List.length_replicate
        (fun _ => ⟨by rw [hdata]; rfl, List.length_replicate.ge⟩)
      rw [List.append_nil, List.drop_eq_nil_of_le List.length_replicate.le, List.append_nil, hdata] at hdecode
      exact ⟨_, hdecode, rfl⟩

/-- A request with two bytes of args and one of data. -/
def Sample.request : FoReq :=
  ⟨0, 0, 3, some [1, 2], some [5], 2, 1, 0⟩

theorem Sample.request_holds : Sample.request.Holds [1, 2] [5] :=
  ⟨rfl, rfl, by decide, fun _ => ⟨[], rfl⟩, rfl, by decide⟩

theorem foReq_codec_request : (∃ buf req', foSerialize true Sample.request = .ok (some buf) ∧
      foDeserialize true true true Sample.request buf = .ok (some req') ∧
      req'.content = Sample.request.content) ∧
    ∃ req', foDeserialize true true true Sample.request (Sample.request.wire [1, 2] [5]) = .ok (some req') ∧
      foSerialize true req' = .ok (some (Sample.request.wire [1, 2] [5])) := by
  have hframed : Framed (Sample.request.wire [1, 2] [5]) 2 1 := ⟨rfl, rfl, by decide, rfl, by decide⟩
  refine ⟨foReq_codec.1 _ _ _ _ Sample.request_holds, ?_⟩
  obtain ⟨req', hreq', hbuf, -⟩ := foReq_codec.2 _ _ _ Sample.request hframed
  exact ⟨req', hreq', hbuf⟩

end Netdev.Kernel
