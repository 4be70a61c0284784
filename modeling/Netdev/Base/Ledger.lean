-- SUMMARY: Ledgers of acquisitions and releases, and what it means that everything is released exactly once.

/-!
# Ledgers

A ledger lists what a computation has acquired and released, in order. A resource that
is never released is leaked, one that is released twice is corrupted.
-/

namespace Base

/-- An entry about a resource of type `ρ`. -/
inductive Use (ρ : Type) where
  | acquire (r : ρ)
  | release (r : ρ)
  deriving DecidableEq

/-- Entries in order. -/
abbrev Ledger (ρ : Type) := List (Use ρ)

namespace Ledger
variable {ρ : Type} [DecidableEq ρ] {l : Ledger ρ} {r : ρ}

/-- All that was acquired has been released exactly once. -/
def Settled (l : Ledger ρ) : Prop := ∀ r, .acquire r ∈ l → l.count (.release r) = 1

/-- The resource of an acquisition has been released exactly once. -/
def settles (l : Ledger ρ) : Use ρ → Bool
  | .acquire r => l.count (.release r) = 1
  | .release _ => true

theorem settled_iff : l.Settled ↔ l.all l.settles = true := by
  rw [List.all_eq_true]
  refine ⟨fun h u hu => ?_, fun h r hr => of_decide_eq_true (h _ hr)⟩
  cases u with
  | acquire r => exact decide_eq_true (h r hu)
  | release r => rfl

instance (l : Ledger ρ) : Decidable l.Settled := decidable_of_iff _ settled_iff.symm

theorem settled_nil : Settled ([] : Ledger ρ) := fun _ h => nomatch h

/-- A resource that occurs in no release is leaked. -/
theorem not_settled_of_leak (hacq : .acquire r ∈ l) (hrel : .release r ∉ l) : ¬ l.Settled := by
  intro h
  have hone := h r hacq
  rw [List.count_eq_zero.mpr hrel] at hone
  exact nomatch hone

/-- One resource, which is used and then released. -/
theorem settled_singleton (r : ρ) : Settled [.acquire r, .release r] := by
  intro s hs
  obtain rfl : s = r := by simpa using hs
  simp

end Ledger

end Base
