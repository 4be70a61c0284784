-- SUMMARY: Bounded byte fifos, and fifos of fixed-size records kept in one.
import Netdev.Base.Layout

/-!
# Byte fifos

A fifo of bytes with a fixed capacity takes as much of its input as there is room
for. When everything put into it is a record of one size that divides the capacity,
it is a bounded fifo of records: a record goes in whole or not at all.
-/

namespace Base

structure Fifo (size : Nat) where
  bytes : Bytes
  fits : bytes.length ≤ size

namespace Fifo
variable {size : Nat}

def empty : Fifo size := ⟨[], Nat.zero_le _⟩

def isEmpty (f : Fifo size) : Bool := f.bytes.isEmpty

/-- Room that is left. -/
def avail (f : Fifo size) : Nat := size - f.bytes.length

/-- Append what fits of `src`; the number says how much that is. -/
def put (f : Fifo size) (src : Bytes) : Nat × Fifo size :=
  (min src.length f.avail,
    { bytes := f.bytes ++ src.take f.avail
      fits := by
        have hfits := f.fits
        simp only [List.length_append, List.length_take, avail]
        omega })

/-- Take up to `n` bytes from the front. -/
def get (f : Fifo size) (n : Nat) : Bytes × Fifo size :=
  (f.bytes.take n,
    { bytes := f.bytes.drop n
      fits := by
        have hfits := f.fits
        rw [List.length_drop]
        omega })

@[simp] theorem put_fst (f : Fifo size) (src : Bytes) : (f.put src).1 = min src.length f.avail := rfl

@[simp] theorem put_bytes (f : Fifo size) (src : Bytes) :
    (f.put src).2.bytes = f.bytes ++ src.take f.avail := rfl

@[simp] theorem get_fst (f : Fifo size) (n : Nat) : (f.get n).1 = f.bytes.take n := rfl

@[simp] theorem get_bytes (f : Fifo size) (n : Nat) : (f.get n).2.bytes = f.bytes.drop n := rfl

/-! ## Records -/

/-- `n` values of type `α`, one after the other. -/
def readRecords (α : Type) [Layout α] : Nat → Bytes → List α
  | 0, _ => []
  | n + 1, bs => ofBytes (bs.take (sizeof α)) :: readRecords α n (bs.drop (sizeof α))

section Records
variable {α : Type} [Layout α]

/-- The fifo holds exactly these records. -/
def Holds (f : Fifo size) (xs : List α) : Prop := f.bytes = xs.flatMap toBytes

/-- The records in a fifo. -/
def records (α : Type) [Layout α] (f : Fifo size) : List α :=
  readRecords α (f.bytes.length / sizeof α) f.bytes

theorem length_flatMap_toBytes (xs : List α) : (xs.flatMap toBytes).length = xs.length * sizeof α := by
  induction xs with
  | nil => simp
  | cons x xs ih => simp [ih, Nat.succ_mul, Nat.add_comm]

theorem readRecords_flatMap (xs : List α) : readRecords α xs.length (xs.flatMap toBytes) = xs := by
  induction xs with
  | nil => rfl
  | cons x xs ih =>
      have hlen : (toBytes x).length = sizeof α := Layout.length_toBytes x
      rw [List.length_cons, List.flatMap_cons, readRecords, List.take_left' hlen,
        List.drop_left' hlen, Layout.ofBytes_toBytes, ih]

namespace Holds
variable {f : Fifo size} {xs : List α} {x : α}

theorem records (h : f.Holds xs) (hpos : 0 < sizeof α) : f.records α = xs := by
  rw [Fifo.records, h, length_flatMap_toBytes, Nat.mul_div_cancel _ hpos, readRecords_flatMap]

theorem isEmpty_iff (h : f.Holds xs) (hpos : 0 < sizeof α) : f.isEmpty ↔ xs = [] := by
  have hlen := length_flatMap_toBytes xs
  rw [Fifo.isEmpty, h, List.isEmpty_iff, ← List.length_eq_zero_iff, hlen,
    ← List.length_eq_zero_iff, Nat.mul_eq_zero]
  omega

/-- The oldest record comes out whole. -/
theorem get (h : f.Holds (x :: xs)) :
    (f.get (sizeof α)).1 = toBytes x ∧ (f.get (sizeof α)).2.Holds xs := by
  have hlen : (toBytes x).length = sizeof α := Layout.length_toBytes x
  have hbytes : f.bytes = toBytes x ++ xs.flatMap toBytes := h
  refine ⟨?_, ?_⟩
  · rw [get_fst, hbytes, List.take_left' hlen]
  · rw [Holds, get_bytes, hbytes, List.drop_left' hlen]

/-- A record that fits goes behind the others. -/
theorem put_room (h : f.Holds xs) (hroom : (xs.length + 1) * sizeof α ≤ size) :
    (f.put (toBytes x)).2.Holds (xs ++ [x]) := by
  have hbytes : f.bytes = xs.flatMap toBytes := h
  have havail : (toBytes x).length ≤ f.avail := by
    rw [avail, hbytes, length_flatMap_toBytes, Layout.length_toBytes]
    rw [Nat.succ_mul] at hroom
    omega
  rw [Holds, put_bytes, List.take_of_length_le havail, List.flatMap_append, ← hbytes,
    List.flatMap_singleton]

/-- A full fifo takes nothing. -/
theorem put_full (h : f.Holds xs) (hfull : size ≤ xs.length * sizeof α) :
    (f.put (toBytes x)).2.Holds xs := by
  have hbytes : f.bytes = xs.flatMap toBytes := h
  have havail : f.avail = 0 := by
    rw [avail, hbytes, length_flatMap_toBytes]
    omega
  rw [Holds, put_bytes, havail, List.take_zero, List.append_nil, hbytes]

/-- What came out can be put back. -/
theorem put_get (h : f.Holds (x :: xs)) :
    ((f.get (sizeof α)).2.put (toBytes x)).2.Holds (xs ++ [x]) := by
  refine h.get.2.put_room ?_
  have hfits := f.fits
  rw [show f.bytes = (x :: xs).flatMap toBytes from h, length_flatMap_toBytes] at hfits
  exact hfits

end Holds

end Records

end Fifo

end Base
