-- SUMMARY: The numbers in the header of a payload, and when decoding it stays inside the payload and the buffers.
import Netdev.Base.Inside
import Netdev.Kernel.FoComm

/-!
# Sizes in a payload

The peer chooses the length of a payload and, in its header, the sizes of the args and
of the data. Decoding stays in bounds exactly when they agree with each other and with
the buffers of the request.
-/

namespace Netdev.Kernel
open Base

/-! ## The header -/

def wireRvalue (data : Bytes) : Int32 := peek Int32 (sizeof Int32) data

def wireSize (data : Bytes) : UInt64 := peek UInt64 (sizeof Int32 + sizeof Int32) data

def wireDataSize (data : Bytes) : UInt64 := peek UInt64 (sizeof Int32 + sizeof Int32 + sizeof UInt64) data

/-- The args in a payload. -/
def wireArgs (data : Bytes) : Bytes := (data.drop FoReq.headerSize).take (wireSize data).toNat

/-- The request with the numbers of a payload. -/
def FoReq.fromWire (req : FoReq) (data : Bytes) : FoReq := { req with
  accessId := peek Int32 0 data
  rvalue := wireRvalue data
  size := wireSize data
  dataSize := wireDataSize data }

theorem readHeader_fromWire {data : Bytes} (req : FoReq) (h : FoReq.headerSize ≤ data.length) :
    readHeader req data = .ok (req.fromWire data) := by
  have hhead : FoReq.headerSize = 24 := rfl
  have h4 : sizeof Int32 = 4 := rfl
  have h8 : sizeof UInt64 = 8 := rfl
  have haccess := @load_of_le Int32 _ data 0 (by omega)
  have hrvalue := @load_of_le Int32 _ data (0 + sizeof Int32) (by omega)
  have hsize := @load_of_le UInt64 _ data (0 + sizeof Int32 + sizeof Int32) (by omega)
  have hdataSize := @load_of_le UInt64 _ data (0 + sizeof Int32 + sizeof Int32 + sizeof UInt64) (by omega)
  simp only [readHeader, haccess, hrvalue, hsize, hdataSize, Mem.bind_ok, Mem.pure_eq_ok]
  rfl

/-- A payload without a whole header. -/
theorem readHeader_short {data : Bytes} (req : FoReq) (h : data.length < FoReq.headerSize) :
    readHeader req data = .error .outOfBounds := by
  have hhead : FoReq.headerSize = 24 := rfl
  have h4 : sizeof Int32 = 4 := rfl
  have h8 : sizeof UInt64 = 8 := rfl
  have hlast : load UInt64 data (0 + sizeof Int32 + sizeof Int32 + sizeof UInt64) = .error .outOfBounds :=
    load_of_lt (by omega)
  have hload : ∀ (α : Type) [Layout α] (off : Nat), (∃ a, load α data off = .ok a) ∨
      load α data off = .error .outOfBounds := fun α _ off => by
    by_cases hle : off + sizeof α ≤ data.length
    · exact .inl ⟨_, load_of_le hle⟩
    · exact .inr (load_of_lt (by omega))
  obtain ⟨_, haccess⟩ | haccess := hload Int32 0
  · obtain ⟨_, hrvalue⟩ | hrvalue := hload Int32 (0 + sizeof Int32)
    · obtain ⟨_, hsize⟩ | hsize := hload UInt64 (0 + sizeof Int32 + sizeof Int32)
      · simp only [readHeader, haccess, hrvalue, hsize, hlast, Mem.bind_ok, Mem.bind_error]
      · simp only [readHeader, haccess, hrvalue, hsize, Mem.bind_ok, Mem.bind_error]
    · simp only [readHeader, haccess, hrvalue, Mem.bind_ok, Mem.bind_error]
  · simp only [readHeader, haccess, Mem.bind_error]

/-! ## Decoding in bounds -/

/-- A payload holds its args, and the buffer has room for them. -/
def ArgsFit (data args : Bytes) : Prop :=
  FoReq.headerSize + (wireSize data).toNat ≤ data.length ∧ (wireSize data).toNat ≤ args.length

/-- A payload holds its data, and the buffer has room for them. -/
def DataFits (data buf : Bytes) : Prop :=
  FoReq.headerSize + (wireSize data).toNat + (wireDataSize data).toNat ≤ data.length ∧
    (wireDataSize data).toNat ≤ buf.length

instance (data args : Bytes) : Decidable (ArgsFit data args) := inferInstanceAs (Decidable (_ ∧ _))
instance (data buf : Bytes) : Decidable (DataFits data buf) := inferInstanceAs (Decidable (_ ∧ _))

/-- The buffers that `fo_deserialize_toreq` fills. -/
def FoReq.argsBuffer (req : FoReq) (argsOk : Bool) (data : Bytes) : Ptr :=
  req.args.or (zalloc argsOk (wireSize data).toNat)

def FoReq.dataBuffer (req : FoReq) (dataOk : Bool) (data : Bytes) : Ptr :=
  req.data.or (zalloc dataOk (wireDataSize data).toNat)

/-- What `fo_deserialize_toreq` reads is in the payload, and what it writes is in the
buffers. -/
structure InBounds (argsOk dataOk : Bool) (req : FoReq) (data : Bytes) : Prop where
  header : FoReq.headerSize ≤ data.length
  args : wireSize data ≠ 0 → ∀ args, req.argsBuffer argsOk data = some args → ArgsFit data args
  data : wireSize data ≠ 0 → req.argsBuffer argsOk data ≠ none → wireDataSize data ≠ 0 →
    ∀ buf, req.dataBuffer dataOk data = some buf → DataFits data buf

/-- A buffer that `fo_deserialize_toreq` needs is not there. -/
structure NoBuffer (argsOk dataOk : Bool) (req : FoReq) (data : Bytes) : Prop where
  size : wireSize data ≠ 0
  buffer : req.argsBuffer argsOk data = none ∨ wireDataSize data ≠ 0 ∧ req.dataBuffer dataOk data = none

theorem noBuffer_iff {argsOk dataOk : Bool} {req : FoReq} {data : Bytes} :
    NoBuffer argsOk dataOk req data ↔ wireSize data ≠ 0 ∧
      (req.argsBuffer argsOk data = none ∨ wireDataSize data ≠ 0 ∧ req.dataBuffer dataOk data = none) :=
  ⟨fun h => ⟨h.size, h.buffer⟩, fun h => ⟨h.1, h.2⟩⟩

/-- What `fo_deserialize_toreq` has made of a request: its numbers are those of the
payload, the args of the payload are at the front of the args buffer, and `ok` says
whether both buffers were there. -/
structure Decoded (argsOk dataOk : Bool) (req : FoReq) (data : Bytes) (ok : Bool) (r : FoReq) : Prop where
  rvalue : r.rvalue = wireRvalue data
  size : r.size = wireSize data
  dataSize : r.dataSize = wireDataSize data
  fails : ok = false ↔ NoBuffer argsOk dataOk req data
  noArgs : wireSize data = 0 → r.args = req.args
  args : ok = true → wireSize data ≠ 0 → ∃ args, req.argsBuffer argsOk data = some args ∧
    r.args = some (wireArgs data ++ args.drop (wireSize data).toNat)
  noData : wireDataSize data = 0 → r.data = req.data
  data : ok = true → wireSize data ≠ 0 → wireDataSize data ≠ 0 → ∃ buf payload,
    req.dataBuffer dataOk data = some buf ∧ r.data = some payload ∧ payload.length = buf.length

section Decode
variable {argsOk dataOk : Bool} {req : FoReq} {data args buf : Bytes}

theorem copyArgs (h : ArgsFit data args) :
    memcpy args 0 data FoReq.headerSize (wireSize data).toNat
      = .ok (wireArgs data ++ args.drop (wireSize data).toNat) := by
  have hargs : FoReq.headerSize + (wireSize data).toNat ≤ data.length := h.1
  have hcopy := @memcpy_window [] (args.take (wireSize data).toNat) (args.drop (wireSize data).toNat) data 0
    FoReq.headerSize (wireSize data).toNat rfl (by rw [List.length_take]; exact Nat.min_eq_left h.2) hargs
  rwa [List.nil_append, List.nil_append, List.take_append_drop] at hcopy

theorem copyArgs_fails (h : ¬ ArgsFit data args) :
    memcpy args 0 data FoReq.headerSize (wireSize data).toNat = .error .outOfBounds := by
  unfold memcpy
  rw [if_neg]
  rintro ⟨hsrc, hdst⟩
  exact h ⟨hsrc, by omega⟩

/-- `fo_deserialize_toreq` when the payload has a header. -/
theorem foDeserializeToreq_header (h : FoReq.headerSize ≤ data.length) :
    foDeserializeToreq argsOk dataOk req data =
      if wireSize data = 0 then .ok (true, req.fromWire data) else
      match req.argsBuffer argsOk data with
      | none => .ok (false, req.fromWire data)
      | some args =>
          memcpy args 0 data FoReq.headerSize (wireSize data).toNat >>= fun args =>
            if wireDataSize data = 0 then .ok (true, { req.fromWire data with args := some args }) else
            match req.dataBuffer dataOk data with
            | none => .ok (false, { req.fromWire data with args := some args })
            | some buf =>
                memcpy buf 0 data (FoReq.headerSize + (wireSize data).toNat) (wireDataSize data).toNat >>=
                  fun payload => .ok (true, { req.fromWire data with args := some args, data := some payload }) := by
  unfold foDeserializeToreq
  rw [readHeader_fromWire req h]
  rfl

theorem copyData_ok_iff : (∃ out, memcpy buf 0 data (FoReq.headerSize + (wireSize data).toNat)
    (wireDataSize data).toNat = .ok out) ↔ DataFits data buf := by
  unfold memcpy DataFits
  rw [Nat.zero_add]
  split
  · rename_i h
    exact ⟨fun _ => h, fun _ => ⟨_, rfl⟩⟩
  · rename_i h
    exact ⟨fun ⟨_, hout⟩ => (nomatch hout), fun hfits => absurd hfits h⟩

/-- How `fo_deserialize_toreq` ends when it stays in bounds. -/
theorem foDeserializeToreq_inBounds (h : InBounds argsOk dataOk req data) :
    ∃ ok r, foDeserializeToreq argsOk dataOk req data = .ok (ok, r) ∧ Decoded argsOk dataOk req data ok r := by
  rw [foDeserializeToreq_header h.header]
  by_cases hzero : wireSize data = 0
  · rw [if_pos hzero]
    exact ⟨true, _, rfl, { rvalue := rfl, size := rfl, dataSize := rfl
                           fails := ⟨nofun, fun hno => absurd hzero hno.size⟩
                           noArgs := fun _ => rfl
                           args := fun _ hne => absurd hzero hne
                           noData := fun _ => rfl
                           data := fun _ hne => absurd hzero hne }⟩
  rw [if_neg hzero]
  cases hargs : req.argsBuffer argsOk data with
  | none =>
      exact ⟨false, _, rfl, { rvalue := rfl, size := rfl, dataSize := rfl
                              fails := ⟨fun _ => ⟨hzero, .inl hargs⟩, fun _ => rfl⟩
                              noArgs := fun _ => rfl
                              args := nofun
                              noData := fun _ => rfl
                              data := nofun }⟩
  | some args =>
      simp only [copyArgs (h.args hzero args hargs), Mem.bind_ok]
      by_cases hdata : wireDataSize data = 0
      · rw [if_pos hdata]
        refine ⟨true, _, rfl, { rvalue := rfl, size := rfl, dataSize := rfl
                                fails := ⟨nofun, fun hno => ?_⟩
                                noArgs := fun hz => absurd hz hzero
                                args := fun _ _ => ⟨args, hargs, rfl⟩
                                noData := fun _ => rfl
                                data := fun _ _ hne => absurd hdata hne }⟩
        exact hno.buffer.elim (fun hnone => nomatch hargs.symm.trans hnone) fun hnone => absurd hdata hnone.1
      rw [if_neg hdata]
      cases hbuf : req.dataBuffer dataOk data with
      | none =>
          exact ⟨false, _, rfl, { rvalue := rfl, size := rfl, dataSize := rfl
                                  fails := ⟨fun _ => ⟨hzero, .inr ⟨hdata, hbuf⟩⟩, fun _ => rfl⟩
                                  noArgs := fun hz => absurd hz hzero
                                  args := nofun
                                  noData := fun _ => rfl
                                  data := nofun }⟩
      | some buf =>
          obtain ⟨payload, hpayload⟩ := copyData_ok_iff.mpr (h.data hzero (by rw [hargs]; nofun) hdata buf hbuf)
          simp only [hpayload, Mem.bind_ok]
          refine ⟨true, _, rfl, { rvalue := rfl, size := rfl, dataSize := rfl
                                  fails := ⟨nofun, fun hno => ?_⟩
                                  noArgs := fun hz => absurd hz hzero
                                  args := fun _ _ => ⟨args, hargs, rfl⟩
                                  noData := fun hz => absurd hz hdata
                                  data := fun _ _ _ => ⟨buf, payload, hbuf, rfl, memcpy_length hpayload⟩ }⟩
          exact hno.buffer.elim (fun hnone => nomatch hargs.symm.trans hnone) fun hnone =>
            nomatch hbuf.symm.trans hnone.2

/-- A decoding that ends has stayed in bounds. -/
theorem inBounds_of_ok {r : Bool × FoReq} (h : foDeserializeToreq argsOk dataOk req data = .ok r) :
    InBounds argsOk dataOk req data := by
  have hheader : FoReq.headerSize ≤ data.length := by
    by_contra hshort
    unfold foDeserializeToreq at h
    rw [readHeader_short req (by omega)] at h
    cases h
  rw [foDeserializeToreq_header hheader] at h
  have hfits : wireSize data ≠ 0 → ∀ args, req.argsBuffer argsOk data = some args → ArgsFit data args := by
    intro hzero args hargs
    by_contra hno
    simp only [if_neg hzero, hargs, copyArgs_fails hno] at h
    cases h
  refine ⟨hheader, hfits, fun hzero hbuffer hdata buf hbuf => ?_⟩
  obtain ⟨args, hargs⟩ := Option.ne_none_iff_exists'.mp hbuffer
  simp only [if_neg hzero, hargs, copyArgs (hfits hzero args hargs), Mem.bind_ok, if_neg hdata, hbuf] at h
  obtain ⟨out, hout, -⟩ := Mem.bind_eq_ok h
  exact copyData_ok_iff.mp ⟨out, hout⟩

end Decode

end Netdev.Kernel
