-- SUMMARY: The kernel's byte ring: `kfifo_in` and `kfifo_out` on counters that wrap, refining a bounded byte fifo.
import Netdev.Base.Fifo
import Netdev.Base.Memory

/-!
# Rings

A `kfifo` is a buffer of `2 ^ order` bytes with two counters modulo 2^32: bytes go in at `in` and
come out at `out`, both taken modulo the size of the buffer. The counters are never set back. It
refines the fifo of the bytes between them, whatever the counters have come to.
-/

namespace Base

/-- `struct __kfifo` with elements of one byte. -/
structure Kfifo where
  data : Bytes
  inn : UInt32
  out : UInt32
  mask : UInt32
  deriving DecidableEq

namespace Kfifo

/-- `kfifo_alloc` with memory of this size, whatever is in it. -/
def alloc (data : Bytes) : Kfifo := ⟨data, 0, 0, UInt32.ofNat data.length - 1⟩

def len (f : Kfifo) : UInt32 := f.inn - f.out

/-- `kfifo_unused`. -/
def unused (f : Kfifo) : UInt32 := f.mask + 1 - f.len

/-- `kfifo_is_empty`. -/
def isEmpty (f : Kfifo) : Bool := f.inn == f.out

/-- What of `len` bytes fits up to the end of the buffer. -/
def toEnd (f : Kfifo) (len off : UInt32) : UInt32 :=
  let size := f.mask + 1
  if size - off < len then size - off else len

/-- `kfifo_copy_in`: up to the end of the buffer, and the rest from its start on. -/
def copyIn (f : Kfifo) (src : Bytes) (len off : UInt32) : Mem Bytes := do
  let off := off &&& f.mask
  let l := f.toEnd len off
  let data ← memcpy f.data off.toNat src 0 l.toNat
  memcpy data 0 src l.toNat (len - l).toNat

/-- `kfifo_copy_out`. -/
def copyOut (f : Kfifo) (dst : Bytes) (len off : UInt32) : Mem Bytes := do
  let off := off &&& f.mask
  let l := f.toEnd len off
  let dst ← memcpy dst 0 f.data off.toNat l.toNat
  memcpy dst l.toNat f.data 0 (len - l).toNat

/-- `kfifo_in`: as much of `src` as there is room for. -/
def put (f : Kfifo) (src : Bytes) (len : UInt32) : Mem (UInt32 × Kfifo) := do
  let l := f.unused
  let len := if len > l then l else len
  let data ← f.copyIn src len f.inn
  return (len, { f with data, inn := f.inn + len })

/-- `kfifo_out`: as much as there is, to the front of `dst`. -/
def get (f : Kfifo) (dst : Bytes) (len : UInt32) : Mem (UInt32 × Bytes × Kfifo) := do
  let l := f.len
  let len := if len > l then l else len
  let dst ← f.copyOut dst len f.out
  return (len, dst, { f with out := f.out + len })

/-- A buffer of `2 ^ order` bytes. -/
structure Sized (f : Kfifo) (order : Nat) : Prop where
  small : order < 32
  data : f.data.length = 2 ^ order
  mask : f.mask.toNat = 2 ^ order - 1

/-- The ring holds the bytes of the fifo, one after the other from `out` on. -/
structure Refines {order : Nat} (f : Kfifo) (q : Fifo (2 ^ order)) : Prop extends f.Sized order where
  len : f.len.toNat = q.bytes.length
  cells : ∀ i < q.bytes.length, f.data[(f.out.toNat + i) % 2 ^ order]? = q.bytes[i]?

/-! ## Places in the buffer -/

/-- A place below the size and a distance of at most the size. -/
theorem add_mod_size {size off i : Nat} (hoff : off < size) (hi : i < size) :
    (off + i) % size = if off + i < size then off + i else off + i - size := by
  by_cases hend : off + i < size
  · rw [if_pos hend, Nat.mod_eq_of_lt hend]
  · rw [if_neg hend, Nat.mod_eq_sub_mod (Nat.le_of_not_lt hend), Nat.mod_eq_of_lt (by omega)]

namespace Sized
variable {f : Kfifo} {order : Nat}

theorem size_le (h : f.Sized order) : 2 ^ order ≤ 2 ^ 31 :=
  Nat.pow_le_pow_right (by decide) (Nat.le_of_lt_succ h.small)

theorem size_toNat (h : f.Sized order) : (f.mask + 1).toNat = 2 ^ order := by
  have hle := h.size_le
  have hpos := Nat.two_pow_pos order
  have hone : (1 : UInt32).toNat = 1 := rfl
  rw [UInt32.toNat_add, h.mask, hone]
  omega

/-- `off & mask`. -/
theorem and_mask (h : f.Sized order) (off : UInt32) : (off &&& f.mask).toNat = off.toNat % 2 ^ order := by
  rw [UInt32.toNat_and, h.mask, Nat.and_two_pow_sub_one_eq_mod]

/-- The counters wrap at a multiple of the size. -/
theorem add_mod (h : f.Sized order) (a b : UInt32) :
    (a + b).toNat % 2 ^ order = (a.toNat + b.toNat) % 2 ^ order := by
  rw [UInt32.toNat_add, Nat.mod_mod_of_dvd _ (Nat.pow_dvd_pow 2 (Nat.le_of_lt h.small))]

theorem toEnd_toNat (h : f.Sized order) (len off : UInt32) :
    (f.toEnd len (off &&& f.mask)).toNat = min len.toNat (2 ^ order - off.toNat % 2 ^ order) := by
  have hoff := h.and_mask off
  have hlt := Nat.mod_lt off.toNat (Nat.two_pow_pos order)
  have hsub : (f.mask + 1 - (off &&& f.mask)).toNat = 2 ^ order - off.toNat % 2 ^ order := by
    rw [UInt32.toNat_sub_of_le, h.size_toNat, hoff]
    rw [UInt32.le_iff_toNat_le, h.size_toNat, hoff]
    exact Nat.le_of_lt hlt
  simp only [toEnd, UInt32.lt_iff_toNat_lt]
  split
  · omega
  · omega

theorem rest_toNat (h : f.Sized order) (len off : UInt32) :
    (len - f.toEnd len (off &&& f.mask)).toNat = len.toNat - min len.toNat (2 ^ order - off.toNat % 2 ^ order) := by
  have hfirst := h.toEnd_toNat len off
  rw [UInt32.toNat_sub_of_le, hfirst]
  rw [UInt32.le_iff_toNat_le, hfirst]
  exact Nat.min_le_left ..

/-- A copy into the ring fills `len` places from `off` on, and no other. -/
theorem copyIn (h : f.Sized order) {src : Bytes} {len : UInt32} (off : UInt32) (hlen : len.toNat ≤ 2 ^ order)
    (hsrc : len.toNat ≤ src.length) : ∃ data, f.copyIn src len off = .ok data ∧ data.length = 2 ^ order ∧
      ∀ i < 2 ^ order, data[(off.toNat + i) % 2 ^ order]? =
        if i < len.toNat then src[i]? else f.data[(off.toNat + i) % 2 ^ order]? := by
  have hlt := Nat.mod_lt off.toNat (Nat.two_pow_pos order)
  have hdata := h.data
  have hfirst := h.toEnd_toNat len off
  have hrest := h.rest_toNat len off
  obtain ⟨part, hpart⟩ := @memcpy_ok f.data src (off.toNat % 2 ^ order) 0
    (min len.toNat (2 ^ order - off.toNat % 2 ^ order)) (by omega) (by omega)
  have hpartlen := memcpy_length hpart
  obtain ⟨data, hwhole⟩ := @memcpy_ok part src 0 (min len.toNat (2 ^ order - off.toNat % 2 ^ order))
    (len.toNat - min len.toNat (2 ^ order - off.toNat % 2 ^ order)) (by omega) (by omega)
  refine ⟨data, ?_, (memcpy_length hwhole).trans (hpartlen.trans hdata), fun i hi => ?_⟩
  · simp only [Kfifo.copyIn, h.and_mask, hfirst, hrest, hpart, Mem.bind_ok, hwhole]
  · have hplace : (off.toNat + i) % 2 ^ order = (off.toNat % 2 ^ order + i) % 2 ^ order := (Nat.mod_add_mod ..).symm
    rw [hplace, add_mod_size hlt hi, memcpy_getElem? hwhole, memcpy_getElem? hpart]
    grind

/-- A copy out of the ring takes `len` places from `off` on to the front. -/
theorem copyOut (h : f.Sized order) {dst : Bytes} {len : UInt32} (off : UInt32) (hlen : len.toNat ≤ 2 ^ order)
    (hdst : len.toNat ≤ dst.length) : ∃ out, f.copyOut dst len off = .ok out ∧ out.length = dst.length ∧
      ∀ i, out[i]? = if i < len.toNat then f.data[(off.toNat + i) % 2 ^ order]? else dst[i]? := by
  have hlt := Nat.mod_lt off.toNat (Nat.two_pow_pos order)
  have hdata := h.data
  have hfirst := h.toEnd_toNat len off
  have hrest := h.rest_toNat len off
  obtain ⟨part, hpart⟩ := @memcpy_ok dst f.data 0 (off.toNat % 2 ^ order)
    (min len.toNat (2 ^ order - off.toNat % 2 ^ order)) (by omega) (by omega)
  have hpartlen := memcpy_length hpart
  obtain ⟨out, hwhole⟩ := @memcpy_ok part f.data (min len.toNat (2 ^ order - off.toNat % 2 ^ order)) 0
    (len.toNat - min len.toNat (2 ^ order - off.toNat % 2 ^ order)) (by omega) (by omega)
  refine ⟨out, ?_, (memcpy_length hwhole).trans hpartlen, fun i => ?_⟩
  · simp only [Kfifo.copyOut, h.and_mask, hfirst, hrest, hpart, Mem.bind_ok, hwhole]
  · have hplace : (off.toNat + i) % 2 ^ order = (off.toNat % 2 ^ order + i) % 2 ^ order := (Nat.mod_add_mod ..).symm
    rw [hplace, memcpy_getElem? hwhole, memcpy_getElem? hpart]
    by_cases hi : i < len.toNat
    · rw [add_mod_size hlt (by omega)]
      grind
    · grind

end Sized

/-! ## The ring as a fifo -/

/-- `if (len > l) len = l`. -/
theorem clamp_toNat (len l : UInt32) : (if len > l then l else len).toNat = min len.toNat l.toNat := by
  simp only [gt_iff_lt, UInt32.lt_iff_toNat_lt]
  split
  · omega
  · omega

/-- A fresh ring is empty. -/
theorem alloc_refines {order : Nat} (horder : order < 32) {data : Bytes} (hdata : data.length = 2 ^ order) :
    (alloc data).Refines (.empty : Fifo (2 ^ order)) := by
  have hlt : 2 ^ order < UInt32.size := Nat.pow_lt_pow_right (by decide) horder
  have hpos := Nat.two_pow_pos order
  have hone : (1 : UInt32).toNat = 1 := rfl
  have hsize : (UInt32.ofNat (2 ^ order)).toNat = 2 ^ order := UInt32.toNat_ofNat_of_lt' hlt
  refine ⟨⟨horder, hdata, ?_⟩, by simp [Kfifo.len, alloc, Fifo.empty], fun i hi => absurd hi (Nat.not_lt_zero i)⟩
  rw [alloc, hdata, UInt32.toNat_sub_of_le, hsize, hone]
  rw [UInt32.le_iff_toNat_le, hsize, hone]
  exact hpos

namespace Refines
variable {f : Kfifo} {order : Nat} {q : Fifo (2 ^ order)}

theorem isEmpty (h : f.Refines q) : f.isEmpty = q.isEmpty := by
  have hzero : f.len = 0 ↔ q.bytes.length = 0 := by
    rw [← h.len, ← UInt32.toNat_inj]
    rfl
  have hsub : f.len = 0 ↔ f.inn = f.out := by
    unfold Kfifo.len
    grind
  rw [Kfifo.isEmpty, Fifo.isEmpty, Bool.eq_iff_iff, beq_iff_eq, List.isEmpty_iff, ← List.length_eq_zero_iff]
  rw [← hzero, hsub]

theorem unused_toNat (h : f.Refines q) : f.unused.toNat = q.avail := by
  have hle := q.fits
  rw [Kfifo.unused, UInt32.toNat_sub_of_le, h.size_toNat, h.len, Fifo.avail]
  rw [UInt32.le_iff_toNat_le, h.size_toNat, h.len]
  exact hle

/-- The place behind the bytes that are there. -/
theorem inn_mod (h : f.Refines q) : f.inn.toNat % 2 ^ order = (f.out.toNat + q.bytes.length) % 2 ^ order := by
  have hsum : f.out + f.len = f.inn := by
    unfold Kfifo.len
    grind
  rw [← hsum, h.add_mod, h.len]

theorem place (h : f.Refines q) (i : Nat) :
    (f.inn.toNat + i) % 2 ^ order = (f.out.toNat + (q.bytes.length + i)) % 2 ^ order := by
  rw [← Nat.mod_add_mod, h.inn_mod, Nat.mod_add_mod, Nat.add_assoc]

/-- `kfifo_in` puts as much into the ring as the fifo takes. -/
theorem put (h : f.Refines q) {src : Bytes} {len : UInt32} (hsrc : len.toNat ≤ src.length) :
    ∃ stored f', f.put src len = .ok (stored, f') ∧ stored.toNat = (q.put (src.take len.toNat)).1 ∧
      f'.Refines (q.put (src.take len.toNat)).2 := by
  have hfits := q.fits
  have hsize := h.size_le
  have havail : q.avail = 2 ^ order - q.bytes.length := rfl
  have hclamp := clamp_toNat len f.unused
  rw [h.unused_toNat] at hclamp
  generalize hn : (if len > f.unused then f.unused else len) = n at hclamp
  obtain ⟨data, hcopy, hdata, hplaces⟩ := @Sized.copyIn f order h.toSized src n f.inn (by omega) (by omega)
  refine ⟨n, { f with data, inn := f.inn + n }, ?_, ?_, ⟨h.small, hdata, h.mask⟩, ?_, fun i hi => ?_⟩
  · simp only [Kfifo.put, hn, hcopy, Mem.bind_ok]
    rfl
  · rw [hclamp, Fifo.put_fst, List.length_take, Nat.min_eq_left hsrc]
  · have hadd : Kfifo.len { f with data, inn := f.inn + n } = f.len + n := by
      simp only [Kfifo.len]
      grind
    rw [hadd, UInt32.toNat_add, h.len, hclamp, Fifo.put_bytes]
    rw [List.length_append, List.length_take, List.length_take]
    omega
  · rw [Fifo.put_bytes] at hi ⊢
    rw [List.length_append, List.length_take, List.length_take] at hi
    by_cases hold : i < q.bytes.length
    · -- the places in use are those behind the ones that are free
      have hround : q.bytes.length + (2 ^ order - q.bytes.length + i) = i + 2 ^ order := by omega
      have hbehind :
          (f.inn.toNat + (2 ^ order - q.bytes.length + i)) % 2 ^ order = (f.out.toNat + i) % 2 ^ order := by
        rw [h.place, hround, ← Nat.add_assoc, Nat.add_mod_right]
      have hkept := hplaces (2 ^ order - q.bytes.length + i) (by omega)
      rw [if_neg (by omega), hbehind] at hkept
      rw [List.getElem?_append_left hold]
      exact hkept.trans (h.cells i hold)
    · obtain ⟨j, rfl⟩ := Nat.exists_eq_add_of_le (Nat.le_of_not_lt hold)
      have hnew := hplaces j (by omega)
      rw [if_pos (by omega), h.place] at hnew
      rw [List.getElem?_append_right (Nat.le_add_right ..), Nat.add_sub_cancel_left]
      rw [List.getElem?_take_of_lt (by omega), List.getElem?_take_of_lt (by omega)]
      exact hnew

/-- `kfifo_out` takes out of the ring what the fifo gives. -/
theorem get (h : f.Refines q) {dst : Bytes} {len : UInt32} (hdst : len.toNat ≤ dst.length) :
    ∃ taken f', f.get dst len = .ok (taken, (q.get len.toNat).1 ++ dst.drop taken.toNat, f') ∧
      taken.toNat = (q.get len.toNat).1.length ∧ f'.Refines (q.get len.toNat).2 := by
  have hfits := q.fits
  have hsize := h.size_le
  have hclamp := clamp_toNat len f.len
  rw [h.len] at hclamp
  generalize hn : (if len > f.len then f.len else len) = n at hclamp
  obtain ⟨out, hcopy, hlen, hplaces⟩ := @Sized.copyOut f order h.toSized dst n f.out (by omega) (by omega)
  have hout : out = (q.get len.toNat).1 ++ dst.drop n.toNat := by
    refine List.ext_getElem? fun i => ?_
    rw [hplaces i, Fifo.get_fst]
    by_cases hi : i < n.toNat
    · rw [if_pos hi, h.cells i (by omega), List.getElem?_append_left (by rw [List.length_take]; omega),
        List.getElem?_take_of_lt (by omega)]
    · rw [if_neg hi, List.getElem?_append_right (by rw [List.length_take]; omega)]
      rw [List.getElem?_drop, List.length_take]
      congr 1
      omega
  refine ⟨n, { f with out := f.out + n }, ?_, ?_, ⟨h.small, h.data, h.mask⟩, ?_, fun i hi => ?_⟩
  · simp only [Kfifo.get, hn, hcopy, Mem.bind_ok, hout]
    rfl
  · rw [hclamp, Fifo.get_fst, List.length_take]
  · have hsub : Kfifo.len { f with out := f.out + n } = f.len - n := by
      simp only [Kfifo.len]
      grind
    rw [hsub, UInt32.toNat_sub_of_le, h.len, hclamp, Fifo.get_bytes, List.length_drop]
    · omega
    · rw [UInt32.le_iff_toNat_le, h.len, hclamp]
      exact Nat.min_le_right ..
  · rw [Fifo.get_bytes] at hi ⊢
    rw [List.length_drop] at hi
    rw [List.getElem?_drop, ← Nat.mod_add_mod, h.add_mod, Nat.mod_add_mod, Nat.add_assoc]
    have hcell := h.cells (n.toNat + i) (by omega)
    rw [hcell]
    congr 1
    omega

end Refines

/-- Counters that wrap while the bytes go behind the end of the buffer. -/
example : (do
    let (_, f) ← (⟨List.replicate 8 0, -2, -2, 7⟩ : Kfifo).put [1, 2, 3, 4] 4
    let (_, out, f) ← f.get (List.replicate 4 0) 4
    return (out, f.inn, f.out)) = (.ok ([1, 2, 3, 4], 2, 2) : Mem (Bytes × UInt32 × UInt32)) := rfl

/-! ## Records -/

/-- A ring of `2 ^ order` bytes with these records in it, oldest first. -/
def Holds {α : Type} [Layout α] (f : Kfifo) (order : Nat) (xs : List α) : Prop :=
  ∃ q : Fifo (2 ^ order), f.Refines q ∧ q.Holds xs

namespace Holds
variable {α : Type} [Layout α] {f : Kfifo} {order : Nat} {xs : List α} {x : α}

theorem length_le (h : f.Holds order xs) : xs.length * sizeof α ≤ 2 ^ order := by
  obtain ⟨q, -, hq⟩ := h
  rw [← Fifo.length_flatMap_toBytes, ← show q.bytes = xs.flatMap toBytes from hq]
  exact q.fits

theorem len_toNat (h : f.Holds order xs) : f.len.toNat = xs.length * sizeof α := by
  obtain ⟨q, hf, hq⟩ := h
  rw [hf.len, show q.bytes = xs.flatMap toBytes from hq, Fifo.length_flatMap_toBytes]

theorem isEmpty_iff (h : f.Holds order xs) (hpos : 0 < sizeof α) : f.isEmpty ↔ xs = [] := by
  obtain ⟨q, hf, hq⟩ := h
  rw [hf.isEmpty]
  exact hq.isEmpty_iff hpos

theorem size_toNat (h : f.Holds order xs) (hle : sizeof α ≤ 2 ^ order) :
    (UInt32.ofNat (sizeof α)).toNat = sizeof α := by
  obtain ⟨q, hf, -⟩ := h
  have hsize := hf.size_le
  refine UInt32.toNat_ofNat_of_lt' (Nat.lt_of_le_of_lt (hle.trans hsize) (by decide))

/-- What a record is cut to by `take`: nothing. -/
theorem take_toBytes (h : f.Holds order xs) (hle : sizeof α ≤ 2 ^ order) (x : α) :
    (toBytes x).take (UInt32.ofNat (sizeof α)).toNat = toBytes x := by
  rw [h.size_toNat hle]
  exact List.take_of_length_le (Nat.le_of_eq (Layout.length_toBytes x))

/-- A record that fits is stored whole. -/
theorem put_room (h : f.Holds order xs) (x : α) (hroom : (xs.length + 1) * sizeof α ≤ 2 ^ order) :
    ∃ f', f.put (toBytes x) (UInt32.ofNat (sizeof α)) = .ok (UInt32.ofNat (sizeof α), f') ∧
      f'.Holds order (xs ++ [x]) := by
  have hle : sizeof α ≤ 2 ^ order := (Nat.le_mul_of_pos_left _ (Nat.succ_pos _)).trans hroom
  have hsize := h.size_toNat hle
  have htake := h.take_toBytes hle x
  have hlen : (toBytes x).length = sizeof α := Layout.length_toBytes x
  obtain ⟨q, hf, hq⟩ := h
  obtain ⟨stored, f', hput, hstored, hf'⟩ :=
    @Refines.put f order q hf (toBytes x) (UInt32.ofNat (sizeof α)) (Nat.le_of_eq (hsize.trans hlen.symm))
  rw [htake] at hstored hf'
  have hall : (q.put (toBytes x)).1 = sizeof α := by
    have hbytes : q.bytes.length = xs.length * sizeof α := hq ▸ Fifo.length_flatMap_toBytes xs
    rw [Nat.succ_mul] at hroom
    rw [Fifo.put_fst, hlen, Fifo.avail]
    omega
  obtain rfl : stored = UInt32.ofNat (sizeof α) := UInt32.toNat_inj.mp (by rw [hstored, hall, hsize])
  exact ⟨f', hput, _, hf', hq.put_room hroom⟩

/-- A full ring takes nothing of a record. -/
theorem put_full (h : f.Holds order xs) (x : α) (hfull : 2 ^ order ≤ xs.length * sizeof α) :
    ∃ f', f.put (toBytes x) (UInt32.ofNat (sizeof α)) = .ok (0, f') ∧ f'.Holds order xs := by
  have hpos := Nat.two_pow_pos order
  have hnonempty : 0 < xs.length := Nat.pos_of_mul_pos_right (Nat.lt_of_lt_of_le hpos hfull)
  have hle : sizeof α ≤ 2 ^ order := (Nat.le_mul_of_pos_left _ hnonempty).trans h.length_le
  have hsize := h.size_toNat hle
  have htake := h.take_toBytes hle x
  have hlen : (toBytes x).length = sizeof α := Layout.length_toBytes x
  obtain ⟨q, hf, hq⟩ := h
  obtain ⟨stored, f', hput, hstored, hf'⟩ :=
    @Refines.put f order q hf (toBytes x) (UInt32.ofNat (sizeof α)) (Nat.le_of_eq (hsize.trans hlen.symm))
  rw [htake] at hstored hf'
  have hnone : (q.put (toBytes x)).1 = 0 := by
    have hbytes : q.bytes.length = xs.length * sizeof α := hq ▸ Fifo.length_flatMap_toBytes xs
    rw [Fifo.put_fst, Fifo.avail]
    omega
  obtain rfl : stored = 0 := UInt32.toNat_inj.mp (by rw [hstored, hnone]; rfl)
  exact ⟨f', hput, _, hf', hq.put_full hfull⟩

/-- The oldest record comes out whole, whatever was in the place it goes to. -/
theorem get (h : f.Holds order (x :: xs)) {dst : Bytes} (hdst : dst.length = sizeof α) :
    ∃ f', f.get dst (UInt32.ofNat (sizeof α)) = .ok (UInt32.ofNat (sizeof α), toBytes x, f') ∧
      f'.Holds order xs := by
  have hle : sizeof α ≤ 2 ^ order := (Nat.le_mul_of_pos_left _ (Nat.succ_pos _)).trans h.length_le
  have hsize := h.size_toNat hle
  have hlen : (toBytes x).length = sizeof α := Layout.length_toBytes x
  obtain ⟨q, hf, hq⟩ := h
  obtain ⟨taken, f', hget, htaken, hf'⟩ :=
    @Refines.get f order q hf dst (UInt32.ofNat (sizeof α)) (Nat.le_of_eq (hsize.trans hdst.symm))
  rw [hsize, hq.get.1] at hget htaken
  rw [hsize] at hf'
  obtain rfl : taken = UInt32.ofNat (sizeof α) := UInt32.toNat_inj.mp (by rw [htaken, hlen, hsize])
  have hrest : dst.drop (UInt32.ofNat (sizeof α)).toNat = [] := List.drop_eq_nil_of_le (by rw [hsize, hdst])
  rw [hrest, List.append_nil] at hget
  exact ⟨f', hget, _, hf', hq.get.2⟩

end Holds

end Kfifo

end Base
