-- SUMMARY: C integers, and byte layouts of fixed-size C values: little-endian scalars, products, and structs read as products.
import Mathlib.Data.Nat.Digits.Defs
import Mathlib.Logic.Equiv.Defs

/-!
# Byte layouts

How a C value of a fixed size lies in memory. A layout packages the two
directions with the three laws that make them inverse to each other, so that a
codec built from layouts never re-proves a round trip.
-/

namespace Base

abbrev Bytes := List UInt8

/-! ## C integers -/

/-- Conversion to `int`. -/
def cInt (n : Int) : Int := Int.bmod n (2 ^ 32)

/-- Conversion to `size_t`. -/
def cSize (n : Int) : Nat := (n % 2 ^ 64).toNat

def INT_MAX : Nat := 2 ^ 31 - 1

theorem cInt_of_le_INT_MAX {n : Nat} (h : n ≤ INT_MAX) : cInt n = n := by
  unfold cInt INT_MAX at *
  exact Int.bmod_eq_of_le (by omega) (by omega)

theorem cInt_add {m n : Nat} (h : m + n ≤ INT_MAX) : cInt ((m : Int) + n) = (m + n : Nat) := by
  rw [← Int.natCast_add]
  exact cInt_of_le_INT_MAX h

theorem cSize_of_le_INT_MAX {n : Nat} (h : n ≤ INT_MAX) : cSize n = n := by
  unfold cSize INT_MAX at *
  omega

/-! ## Little-endian numbers -/

/-- The `w` low bytes of `n`, least significant first. -/
def leBytes : Nat → Nat → Bytes
  | 0, _ => []
  | w + 1, n => UInt8.ofNat n :: leBytes w (n / 256)

/-- The number whose little-endian bytes are `bs`. -/
def leNat (bs : Bytes) : Nat := Nat.ofDigits 256 (bs.map UInt8.toNat)

@[simp] theorem leNat_nil : leNat [] = 0 := rfl

@[simp] theorem leNat_cons (b : UInt8) (bs : Bytes) :
    leNat (b :: bs) = b.toNat + 256 * leNat bs := by
  simp [leNat, Nat.ofDigits_cons]

@[simp] theorem leBytes_length (w n : Nat) : (leBytes w n).length = w := by
  induction w generalizing n with
  | zero => rfl
  | succ w ih => simp [leBytes, ih]

theorem leNat_leBytes (w n : Nat) : leNat (leBytes w n) = n % 256 ^ w := by
  induction w generalizing n with
  | zero => simp [leBytes, Nat.mod_one]
  | succ w ih =>
      have hsplit : n % 256 ^ (w + 1) = n % 256 + 256 * (n / 256 % 256 ^ w) := by
        rw [Nat.pow_succ', Nat.mod_mul]
      simp [leBytes, ih, hsplit]

theorem leBytes_leNat (bs : Bytes) : leBytes bs.length (leNat bs) = bs := by
  induction bs with
  | nil => rfl
  | cons b bs ih =>
      have hb : b.toNat < 256 := b.toNat_lt
      have hhead : UInt8.ofNat (b.toNat + 256 * leNat bs) = b := by
        apply UInt8.toNat_inj.mp
        simp
      have htail : (b.toNat + 256 * leNat bs) / 256 = leNat bs := by omega
      simp [leBytes, hhead, htail, ih]

theorem leNat_lt (bs : Bytes) : leNat bs < 256 ^ bs.length := by
  have h := leNat_leBytes bs.length (leNat bs)
  rw [leBytes_leNat] at h
  rw [h]
  exact Nat.mod_lt _ (Nat.pow_pos (by decide))

/-! ## Layouts -/

/-- A value of type `α` occupies `sizeof α` bytes. Reading is total: on a byte string
of another length it returns some value that no law speaks about. -/
class Layout (α : Type) where
  sizeof : Nat
  toBytes : α → Bytes
  ofBytes : Bytes → α
  length_toBytes : ∀ a, (toBytes a).length = sizeof
  ofBytes_toBytes : ∀ a, ofBytes (toBytes a) = a
  toBytes_ofBytes : ∀ bs, bs.length = sizeof → toBytes (ofBytes bs) = bs

export Layout (sizeof toBytes ofBytes)

namespace Layout

attribute [simp] length_toBytes ofBytes_toBytes

theorem toBytes_injective {α : Type} [Layout α] {a b : α} (h : toBytes a = toBytes b) : a = b := by
  rw [← ofBytes_toBytes a, h, ofBytes_toBytes]

/-- Carry a layout over to a type with the same values. -/
@[reducible] def ofEquiv {α β : Type} [Layout β] (e : α ≃ β) : Layout α where
  sizeof := sizeof β
  toBytes a := toBytes (e a)
  ofBytes bs := e.symm (ofBytes bs)
  length_toBytes a := length_toBytes (e a)
  ofBytes_toBytes a := by simp
  toBytes_ofBytes bs h := by simp [toBytes_ofBytes bs h]

/-- A number type that is read from and written to `w` bytes. -/
@[reducible] def ofNatLike {α : Type} (w : Nat) (toNat : α → Nat) (ofNat : Nat → α)
    (hlt : ∀ a, toNat a < 256 ^ w) (hleft : ∀ a, ofNat (toNat a) = a)
    (hright : ∀ n, n < 256 ^ w → toNat (ofNat n) = n) : Layout α where
  sizeof := w
  toBytes a := leBytes w (toNat a)
  ofBytes bs := ofNat (leNat bs)
  length_toBytes a := leBytes_length w _
  ofBytes_toBytes a := by rw [leNat_leBytes, Nat.mod_eq_of_lt (hlt a), hleft]
  toBytes_ofBytes bs h := by
    subst h
    rw [hright _ (leNat_lt bs), leBytes_leNat]

instance : Layout UInt16 :=
  ofNatLike 2 UInt16.toNat UInt16.ofNat (fun a => by simpa using a.toNat_lt)
    (fun _ => UInt16.ofNat_toNat) (fun n h => UInt16.toNat_ofNat_of_lt' (by simpa using h))

instance : Layout UInt32 :=
  ofNatLike 4 UInt32.toNat UInt32.ofNat (fun a => by simpa using a.toNat_lt)
    (fun _ => UInt32.ofNat_toNat) (fun n h => UInt32.toNat_ofNat_of_lt' (by simpa using h))

instance : Layout UInt64 :=
  ofNatLike 8 UInt64.toNat UInt64.ofNat (fun a => by simpa using a.toNat_lt)
    (fun _ => UInt64.ofNat_toNat) (fun n h => UInt64.toNat_ofNat_of_lt' (by simpa using h))

instance : Layout Int32 :=
  ofEquiv ⟨Int32.toUInt32, UInt32.toInt32, fun _ => rfl, fun _ => rfl⟩

instance : Layout Int64 :=
  ofEquiv ⟨Int64.toUInt64, UInt64.toInt64, fun _ => rfl, fun _ => rfl⟩

/-- Two values one after the other. -/
instance {α β : Type} [Layout α] [Layout β] : Layout (α × β) where
  sizeof := sizeof α + sizeof β
  toBytes p := toBytes p.1 ++ toBytes p.2
  ofBytes bs := (ofBytes (bs.take (sizeof α)), ofBytes (bs.drop (sizeof α)))
  length_toBytes p := by simp
  ofBytes_toBytes p := by
    have htake : (toBytes p.1 ++ toBytes p.2).take (sizeof α) = toBytes p.1 := by
      simp
    have hdrop : (toBytes p.1 ++ toBytes p.2).drop (sizeof α) = toBytes p.2 := by
      simp
    rw [htake, hdrop, ofBytes_toBytes, ofBytes_toBytes]
  toBytes_ofBytes bs h := by
    have htake : (bs.take (sizeof α)).length = sizeof α := by simp [h]
    have hdrop : (bs.drop (sizeof α)).length = sizeof β := by simp [h]
    simp only [toBytes_ofBytes _ htake, toBytes_ofBytes _ hdrop, List.take_append_drop]

end Layout

end Base
