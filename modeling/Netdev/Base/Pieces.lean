-- SUMMARY: Cutting a sequence of piece lengths into consecutive groups with prescribed totals.
import Mathlib.Algebra.BigOperators.Group.List.Basic
import Mathlib.Algebra.GroupWithZero.Nat

/-!
# Pieces and parts

Data of known part sizes that arrives in pieces: the pieces respect the parts when
they split into consecutive groups, one for each part, whose lengths add up to
it. `cut` decides this one part at a time.
-/

namespace Base

/-- The pieces fall into consecutive groups with the sums `parts`. -/
def Respects (parts pieces : List Nat) : Prop :=
  ∃ groups : List (List Nat), groups.flatten = pieces ∧ groups.map List.sum = parts

/-- Take pieces off the front until they add up to exactly `n`. -/
def cut (n : Nat) : List Nat → Option (List Nat)
  | [] => none
  | p :: ps => if p < n then cut (n - p) ps else if p = n then some ps else none

theorem cut_eq_some {n : Nat} {ps rest : List Nat} (h : cut n ps = some rest) :
    ∃ group, ps = group ++ rest ∧ group.sum = n := by
  induction ps generalizing n with
  | nil => cases h
  | cons p ps ih =>
      simp only [cut] at h
      split at h
      · obtain ⟨group, rfl, hsum⟩ := ih h
        exact ⟨p :: group, rfl, by simp only [List.sum_cons]; omega⟩
      · split at h
        · rename_i heq
          cases h
          exact ⟨[p], rfl, by simp [heq]⟩
        · cases h

theorem cut_append {group rest : List Nat} (hpos : ∀ p ∈ group, 0 < p) (hne : 0 < group.sum) :
    cut group.sum (group ++ rest) = some rest := by
  induction group with
  | nil => simp at hne
  | cons p ps ih =>
      have hps : ∀ q ∈ ps, 0 < q := fun q hq => hpos q (List.mem_cons_of_mem _ hq)
      simp only [List.sum_cons, List.cons_append, cut]
      by_cases hzero : ps.sum = 0
      · have hnil : ps = [] := by
          cases ps with
          | nil => rfl
          | cons q qs =>
              have := hps q List.mem_cons_self
              simp only [List.sum_cons] at hzero
              omega
        subst hnil
        simp
      · have hlt : p < p + ps.sum := by omega
        rw [if_pos hlt, Nat.add_sub_cancel_left]
        exact ih hps (by omega)

theorem cut_sum {n : Nat} {ps rest : List Nat} (h : cut n ps = some rest) :
    ps.sum = n + rest.sum := by
  obtain ⟨group, rfl, hsum⟩ := cut_eq_some h
  simp [hsum]

theorem respects_nil {ps : List Nat} (hpos : ∀ p ∈ ps, 0 < p) (hsum : ps.sum = 0) :
    Respects [] ps := by
  cases ps with
  | nil => exact ⟨[], rfl, rfl⟩
  | cons p ps =>
      have := hpos p List.mem_cons_self
      simp only [List.sum_cons] at hsum
      omega

/-- A non-empty first part is filled by what `cut` takes off, or the pieces do not
respect the parts at all. -/
theorem respects_cons_iff {n : Nat} {parts ps : List Nat} (hn : 0 < n) (hpos : ∀ p ∈ ps, 0 < p) :
    Respects (n :: parts) ps ↔ ∃ rest, cut n ps = some rest ∧ Respects parts rest := by
  constructor
  · rintro ⟨groups, rfl, hsums⟩
    cases groups with
    | nil => cases hsums
    | cons group groups =>
        simp only [List.map_cons, List.cons.injEq] at hsums
        obtain ⟨rfl, hsums⟩ := hsums
        refine ⟨groups.flatten, ?_, groups, rfl, hsums⟩
        exact cut_append (fun p hp => hpos p (by simp [hp])) hn
  · rintro ⟨rest, hcut, groups, rfl, hsums⟩
    obtain ⟨group, rfl, hsum⟩ := cut_eq_some hcut
    exact ⟨group :: groups, rfl, by simp [hsum, hsums]⟩

end Base
