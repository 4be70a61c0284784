-- SUMMARY: `struct fo_req` and its wire codec: `fo_serialize`, `fo_deserialize` and `fo_deserialize_toreq`.
import Netdev.Base.Memory
import Netdev.Protocol

/-!
# Requests on the wire

A request travels as a header of four numbers, the args struct and the payload.
The server decodes it into fresh buffers, the client into the buffers of the
request that waits; neither compares the sizes in the header with what it has.
-/

namespace Netdev.Kernel
open Base

/-- `struct fo_req` without its completion. -/
structure FoReq where
  seq : Int64
  msgtype : Int16
  accessId : Int32
  args : Ptr
  data : Ptr
  size : UInt64
  dataSize : UInt64
  rvalue : Int32
  deriving DecidableEq

namespace FoReq

/-- The numbers in front of args and payload. -/
def header (req : FoReq) : Bytes :=
  toBytes req.accessId ++ toBytes req.rvalue ++ toBytes req.size ++ toBytes req.dataSize

/-- Bytes of the header. -/
def headerSize : Nat := sizeof Int32 + sizeof Int32 + sizeof UInt64 + sizeof UInt64

/-- `*bufflen`, a sum of `size_t`. -/
def bufflen (req : FoReq) : UInt64 := UInt64.ofNat headerSize + req.size + req.dataSize

@[simp] theorem header_length (req : FoReq) : req.header.length = headerSize := by
  simp only [header, headerSize, List.length_append, Layout.length_toBytes]

end FoReq

/-! ## The codec -/

/-- `fo_serialize`; `ok` says whether its allocation succeeds. The buffer that it returns
has `*bufflen` bytes. -/
def foSerialize (ok : Bool) (req : FoReq) : Mem Ptr :=
  match zalloc ok req.bufflen.toNat with
  | none => return none
  | some data => do
      let size := 0
      let data ← store data size req.accessId
      let size := size + sizeof Int32
      let data ← store data size req.rvalue
      let size := size + sizeof Int32
      let data ← store data size req.size
      let size := size + sizeof UInt64
      let data ← store data size req.dataSize
      let size := size + sizeof UInt64
      match req.args with
      | none => return some data
      | some args => do
          let data ← memcpy data size args 0 req.size.toNat
          let size := size + req.size.toNat
          if req.dataSize = 0 then
            return some data
          else
            let data ← memcpy data size (← deref req.data) 0 req.dataSize.toNat
            return some data

/-- The header fields, read into a request. -/
def readHeader (req : FoReq) (data : Bytes) : Mem FoReq := do
  let size := 0
  let accessId ← load Int32 data size
  let size := size + sizeof Int32
  let rvalue ← load Int32 data size
  let size := size + sizeof Int32
  let reqSize ← load UInt64 data size
  let size := size + sizeof UInt64
  let dataSize ← load UInt64 data size
  return { req with accessId, rvalue, size := reqSize, dataSize }

/-- `fo_deserialize_toreq`: `false` when it returns NULL. The pointers `args` and
`data` of the request are kept when they are not NULL. -/
def foDeserializeToreq (argsOk dataOk : Bool) (req : FoReq) (data : Bytes) : Mem (Bool × FoReq) := do
  let req ← readHeader req data
  if req.size = 0 then
    return (true, req)
  let size := FoReq.headerSize
  match req.args.or (zalloc argsOk req.size.toNat) with
  | none => return (false, req)
  | some args => do
      let args ← memcpy args 0 data size req.size.toNat
      let req := { req with args := some args }
      if req.dataSize = 0 then
        return (true, req)
      let size := size + req.size.toNat
      match req.data.or (zalloc dataOk req.dataSize.toNat) with
      | none => return (false, req)
      | some payload => do
          let payload ← memcpy payload 0 data size req.dataSize.toNat
          return (true, { req with data := some payload })

/-- `fo_deserialize` into a request from the pool, of which `fresh` is the old
content; NULL when an allocation fails. -/
def foDeserialize (reqOk argsOk dataOk : Bool) (fresh : FoReq) (data : Bytes) :
    Mem (Option FoReq) :=
  if !reqOk then
    return none
  else do
    let req := { fresh with args := none, data := none }
    let size := 0
    let accessId ← load Int32 data size
    let size := size + sizeof Int32
    let rvalue ← load Int32 data size
    let size := size + sizeof Int32
    let reqSize ← load UInt64 data size
    let size := size + sizeof UInt64
    let dataSize ← load UInt64 data size
    let req := { req with accessId, rvalue, size := reqSize, dataSize }
    if req.size = 0 then
      return some req
    let size := size + sizeof UInt64
    match zalloc argsOk req.size.toNat with
    | none => return none
    | some args => do
        let args ← memcpy args 0 data size req.size.toNat
        let req := { req with args := some args }
        if req.dataSize = 0 then
          return some req
        let size := size + req.size.toNat
        match zalloc dataOk req.dataSize.toNat with
        | none => return none
        | some payload => do
            let payload ← memcpy payload 0 data size req.dataSize.toNat
            return some { req with data := some payload }

/-- Both functions walk over the buffer alike when `fo_deserialize_toreq` gets null
pointers. -/
theorem foDeserialize_eq (argsOk dataOk : Bool) (fresh : FoReq) (data : Bytes) :
    foDeserialize true argsOk dataOk fresh data
      = foDeserializeToreq argsOk dataOk { fresh with args := none, data := none } data >>= fun r =>
          .ok (if r.1 then some r.2 else none) := by
  simp only [foDeserialize, foDeserializeToreq, readHeader, Bool.not_true, Bool.false_eq_true, if_false,
    Mem.pure_eq_ok, bind_assoc]
  refine bind_congr fun accessId => bind_congr fun rvalue => bind_congr fun size =>
    bind_congr fun dataSize => ?_
  by_cases hsize : size = 0
  · simp [hsize]
  have hargs : zalloc argsOk size.toNat = none.or (zalloc argsOk size.toNat) := rfl
  simp only [hsize, if_false, Mem.bind_ok, ← hargs]
  cases zalloc argsOk size.toNat with
  | none => rfl
  | some args =>
      simp only [bind_assoc]
      refine bind_congr fun args => ?_
      by_cases hdata : dataSize = 0
      · simp [hdata]
      have hpayload : zalloc dataOk dataSize.toNat = none.or (zalloc dataOk dataSize.toNat) := rfl
      simp only [hdata, if_false, ← hpayload]
      cases zalloc dataOk dataSize.toNat with
      | none => rfl
      | some payload =>
          simp only [bind_assoc]
          exact bind_congr fun payload => rfl

/-! ## Well-formed requests -/

/-- The request's buffers hold the args and the payload that its sizes speak of. -/
structure FoReq.Holds (req : FoReq) (args payload : Bytes) : Prop where
  pointer : req.args = some args
  size : args.length = req.size.toNat
  nonempty : req.size ≠ 0
  data : req.dataSize ≠ 0 → ∃ rest, req.data = some (payload ++ rest)
  dataSize : payload.length = req.dataSize.toNat
  total : FoReq.headerSize + args.length + payload.length < 2 ^ 64

/-- What `fo_serialize` makes of it. -/
def FoReq.wire (req : FoReq) (args payload : Bytes) : Bytes := req.header ++ args ++ payload

namespace FoReq.Holds
variable {req : FoReq} {args payload : Bytes}

theorem bufflen (h : req.Holds args payload) :
    req.bufflen.toNat = headerSize + args.length + payload.length := by
  have htotal := h.total
  have hhead : (UInt64.ofNat headerSize).toNat = headerSize := rfl
  unfold FoReq.bufflen
  rw [h.size, h.dataSize] at htotal ⊢
  rw [UInt64.toNat_add, UInt64.toNat_add, hhead, Nat.mod_eq_of_lt (by omega),
    Nat.mod_eq_of_lt (by omega)]

theorem payload_eq_nil (h : req.Holds args payload) (hzero : req.dataSize = 0) : payload = [] := by
  have hlen := h.dataSize
  rw [hzero] at hlen
  exact List.length_eq_zero_iff.mp hlen

/-- The four stores that fill the header. -/
theorem store_header (req : FoReq) (n : Nat) (f : Bytes → Mem Ptr) :
    (do let data ← store (List.replicate (headerSize + n) 0) 0 req.accessId
        let data ← store data (0 + sizeof Int32) req.rvalue
        let data ← store data (0 + sizeof Int32 + sizeof Int32) req.size
        let data ← store data (0 + sizeof Int32 + sizeof Int32 + sizeof UInt64) req.dataSize
        f data) = f (req.header ++ List.replicate n 0) := by
  have haccess := @store_zeros Int32 _ [] req.accessId 0
    (sizeof Int32 + sizeof UInt64 + sizeof UInt64 + n) (headerSize + n) rfl
    (by unfold headerSize; omega)
  have hrvalue := @store_zeros Int32 _ (toBytes req.accessId) req.rvalue (0 + sizeof Int32)
    (sizeof UInt64 + sizeof UInt64 + n) (sizeof Int32 + sizeof UInt64 + sizeof UInt64 + n)
    (by simp) (by omega)
  have hsize := @store_zeros UInt64 _ (toBytes req.accessId ++ toBytes req.rvalue) req.size
    (0 + sizeof Int32 + sizeof Int32) (sizeof UInt64 + n) (sizeof UInt64 + sizeof UInt64 + n)
    (by simp) (by omega)
  have hdataSize := @store_zeros UInt64 _ (toBytes req.accessId ++ toBytes req.rvalue ++
    toBytes req.size) req.dataSize (0 + sizeof Int32 + sizeof Int32 + sizeof UInt64) n
    (sizeof UInt64 + n) (by simp; omega) (by omega)
  rw [List.nil_append, List.nil_append] at haccess
  rw [haccess, Mem.bind_ok, hrvalue, Mem.bind_ok, hsize, Mem.bind_ok, hdataSize, Mem.bind_ok]
  rfl

theorem foSerialize (h : req.Holds args payload) :
    foSerialize true req = .ok (some (req.wire args payload)) := by
  have hargs := @memcpy_zeros req.header args headerSize args.length payload.length
    (args.length + payload.length) (req.header_length) le_rfl rfl
  rw [List.take_length] at hargs
  unfold Kernel.foSerialize
  simp only [h.bufflen, zalloc_true, Nat.add_assoc headerSize]
  rw [store_header]
  have hoff : 0 + sizeof Int32 + sizeof Int32 + sizeof UInt64 + sizeof UInt64 = headerSize := rfl
  simp only [h.pointer, hoff, ← h.size]
  rw [hargs, Mem.bind_ok]
  by_cases hzero : req.dataSize = 0
  · rw [if_pos hzero, wire, h.payload_eq_nil hzero]
    simp
  · obtain ⟨rest, hdata⟩ := h.data hzero
    have hpayload := @memcpy_zeros (req.header ++ args) (payload ++ rest)
      (headerSize + args.length) payload.length 0 payload.length (by simp) (by simp) rfl
    rw [List.take_left, List.replicate_zero, List.append_nil] at hpayload
    rw [if_neg hzero, hdata, deref_some, Mem.bind_ok, ← h.dataSize, hpayload]
    rfl

/-- The header is read back from any buffer that begins with it. -/
theorem readHeader_eq (req dst : FoReq) (rest : Bytes) :
    readHeader dst (req.header ++ rest) = .ok { dst with
      accessId := req.accessId, rvalue := req.rvalue, size := req.size, dataSize := req.dataSize } := by
  have haccess := @load_window Int32 _ [] (toBytes req.rvalue ++ toBytes req.size ++
    toBytes req.dataSize ++ rest) req.accessId 0 rfl
  have hrvalue := @load_window Int32 _ (toBytes req.accessId) (toBytes req.size ++
    toBytes req.dataSize ++ rest) req.rvalue (0 + sizeof Int32) (by simp)
  have hsize := @load_window UInt64 _ (toBytes req.accessId ++ toBytes req.rvalue)
    (toBytes req.dataSize ++ rest) req.size (0 + sizeof Int32 + sizeof Int32) (by simp)
  have hdataSize := @load_window UInt64 _ (toBytes req.accessId ++ toBytes req.rvalue ++
    toBytes req.size) rest req.dataSize (0 + sizeof Int32 + sizeof Int32 + sizeof UInt64)
    (by simp; omega)
  simp only [List.append_assoc, List.nil_append] at haccess hrvalue hsize hdataSize
  simp only [readHeader, header, List.append_assoc, haccess, hrvalue, hsize, hdataSize, Mem.bind_ok,
    Mem.pure_eq_ok]

/-- Decoding into a request whose buffers are large enough: the args are replaced,
and the front of the data buffer. -/
theorem foDeserializeToreq {dst : FoReq} {old buf rest : Bytes} {argsOk dataOk : Bool}
    (h : req.Holds args payload) (hargs : dst.args.or (zalloc argsOk args.length) = some old)
    (hold : old.length = args.length)
    (hdata : req.dataSize ≠ 0 → dst.data.or (zalloc dataOk payload.length) = some buf ∧
      payload.length ≤ buf.length) :
    foDeserializeToreq argsOk dataOk dst (req.wire args payload ++ rest) = .ok (true,
      { dst with
        accessId := req.accessId, rvalue := req.rvalue, size := req.size, dataSize := req.dataSize
        args := some args
        data := if req.dataSize = 0 then dst.data else some (payload ++ buf.drop payload.length) }) := by
  have hcopy := @memcpy_part old req.header args (payload ++ rest) headerSize args.length
    req.header_length rfl hold.ge
  rw [← hold, List.drop_length, List.append_nil, hold] at hcopy
  rw [wire, List.append_assoc, List.append_assoc]
  unfold Kernel.foDeserializeToreq
  rw [readHeader_eq, Mem.bind_ok]
  simp only [if_neg h.nonempty, ← h.size, hargs]
  rw [List.append_assoc] at hcopy
  rw [hcopy, Mem.bind_ok]
  by_cases hzero : req.dataSize = 0
  · simp only [if_pos hzero, Mem.pure_eq_ok]
  · obtain ⟨hbuf, hroom⟩ := hdata hzero
    have hpayload := @memcpy_part buf (req.header ++ args) payload rest (headerSize + args.length)
      payload.length (by simp) rfl hroom
    simp only [List.append_assoc] at hpayload
    simp only [if_neg hzero, ← h.dataSize, hbuf, hpayload, Mem.bind_ok, Mem.pure_eq_ok]

/-- Decoding into fresh buffers. -/
theorem foDeserialize (h : req.Holds args payload) (fresh : FoReq) (rest : Bytes) :
    foDeserialize true true true fresh (req.wire args payload ++ rest) = .ok (some { fresh with
      accessId := req.accessId, rvalue := req.rvalue, size := req.size, dataSize := req.dataSize
      args := some args
      data := if req.dataSize = 0 then none else some payload }) := by
  have hdecode := @foDeserializeToreq req args payload { fresh with args := none, data := none }
    (List.replicate args.length 0) (List.replicate payload.length 0) rest true true h rfl
    List.length_replicate (fun _ => ⟨rfl, List.length_replicate.ge⟩)
  rw [foDeserialize_eq, hdecode, Mem.bind_ok]
  simp

end FoReq.Holds

end Netdev.Kernel
