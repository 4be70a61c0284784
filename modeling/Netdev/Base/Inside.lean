-- SUMMARY: Computations that stay inside their buffers: one equivalence for each access, and what a load reads.
import Netdev.Base.Memory

/-!
# Staying inside buffers

A computation may stop at a null pointer and still be inside all of its buffers. The
equivalences peel off one access after the other: what is left are bounds on lengths.
-/

namespace Base

/-- The value of type `α` at `buf + off`. A buffer that ends before it has none. -/
def peek (α : Type) [Layout α] (off : Nat) (buf : Bytes) : α := ofBytes ((buf.drop off).take (sizeof α))

/-- No access has left its buffer. -/
def Mem.Inside {α : Type} (m : Mem α) : Prop := m ≠ .error .outOfBounds

section Accesses
variable {α β σ : Type} [Layout α] [Layout σ] {buf : Bytes} {off : Nat}

theorem load_of_le (h : off + sizeof α ≤ buf.length) : load α buf off = .ok (peek α off buf) := if_pos h

theorem load_of_lt (h : buf.length < off + sizeof α) : load α buf off = .error .outOfBounds :=
  if_neg (by omega)

/-- A copy from the start of a source that is all copied. -/
theorem store_of_le {a : α} (h : off + sizeof α ≤ buf.length) : ∃ out, store buf off a = .ok out := by
  apply Exists.intro
  apply if_pos
  simp [h]

theorem store_of_lt {a : α} (h : buf.length < off + sizeof α) : store buf off a = .error .outOfBounds := by
  apply if_neg
  simp [h]

namespace Mem

@[simp] theorem inside_ok (b : β) : Inside (.ok b) := by simp [Inside]

@[simp] theorem inside_null : Inside (.error .nullDeref : Mem β) := by simp [Inside]

@[simp] theorem not_inside : ¬ Inside (.error .outOfBounds : Mem β) := by simp [Inside]

theorem inside_load {k : α → Mem β} :
    Inside (load α buf off >>= k) ↔ off + sizeof α ≤ buf.length ∧ Inside (k (peek α off buf)) := by
  by_cases h : off + sizeof α ≤ buf.length
  · simp [load_of_le h, h]
  · simp [load_of_lt (Nat.lt_of_not_le h), h]

theorem inside_store {a : α} {k : Bytes → Mem β} : Inside (store buf off a >>= k) ↔
    off + sizeof α ≤ buf.length ∧ ∀ out, store buf off a = .ok out → Inside (k out) := by
  by_cases h : off + sizeof α ≤ buf.length
  · obtain ⟨out, hout⟩ := store_of_le (a := a) h
    simp [hout, h]
  · simp [store_of_lt (Nat.lt_of_not_le h), h]

/-- Whether a store is followed by others does not depend on what it has written. -/
theorem inside_store_length {a : α} {k : Bytes → Mem β} {P : Prop}
    (hk : ∀ out, out.length = buf.length → (Inside (k out) ↔ P)) :
    Inside (store buf off a >>= k) ↔ off + sizeof α ≤ buf.length ∧ P := by
  rw [inside_store]
  constructor
  · intro ⟨hle, hall⟩
    obtain ⟨out, hout⟩ := store_of_le (a := a) hle
    exact ⟨hle, (hk out (memcpy_length hout)).mp (hall out hout)⟩
  · intro ⟨hle, hP⟩
    refine ⟨hle, ?_⟩
    intro out hout
    exact (hk out (memcpy_length hout)).mpr hP

end Mem

namespace Field
variable {f : Field σ α}

theorem inside_load {k : α → Mem β} :
    (f.load buf >>= k).Inside ↔ f.off + sizeof α ≤ buf.length ∧ (k (peek α f.off buf)).Inside :=
  Mem.inside_load

theorem inside_store {a : α} {k : Bytes → Mem β} {P : Prop}
    (hk : ∀ out, out.length = buf.length → ((k out).Inside ↔ P)) :
    (f.store buf a >>= k).Inside ↔ f.off + sizeof α ≤ buf.length ∧ P :=
  Mem.inside_store_length hk

end Field

end Accesses

end Base
