-- SUMMARY: Labelled transition systems: runs, restricted runs, and the invariant rule.
import Mathlib.Algebra.BigOperators.Group.List.Basic
import Mathlib.Algebra.GroupWithZero.Nat

/-!
# Transition systems

A system that is used by several parties is a step relation on states; the label
says who does what. A statement about "every run whose steps meet a condition" is one
about the runs of the restricted system.
-/

namespace Base

structure System (σ ℓ : Type) where
  init : σ → Prop
  step : σ → ℓ → σ → Prop

namespace System
variable {σ ℓ : Type} {S : System σ ℓ}

/-- The states reached from an initial state, with the labels of the steps in
order. -/
inductive Run (S : System σ ℓ) : List ℓ → σ → Prop where
  | init {s : σ} : S.init s → Run S [] s
  | step {ls : List ℓ} {l : ℓ} {s s' : σ} : Run S ls s → S.step s l s' → Run S (ls ++ [l]) s'

/-- Only the steps that meet `C` in the state in which they are taken. -/
def restrict (S : System σ ℓ) (C : σ → ℓ → Prop) : System σ ℓ where
  init := S.init
  step s l s' := S.step s l s' ∧ C s l

/-- An invariant holds initially and is preserved by every step. -/
structure Invariant (S : System σ ℓ) (I : σ → Prop) : Prop where
  init : ∀ s, S.init s → I s
  step : ∀ s l s', I s → S.step s l s' → I s'

theorem Run.invariant {I : σ → Prop} {ls : List ℓ} {s : σ} (h : S.Run ls s)
    (hI : S.Invariant I) : I s := by
  induction h with
  | init hs => exact hI.init _ hs
  | step _ hstep ih => exact hI.step _ _ _ ih hstep

/-- A run of the restricted system is a run. -/
theorem Run.of_restrict {C : σ → ℓ → Prop} {ls : List ℓ} {s : σ} (h : (S.restrict C).Run ls s) :
    S.Run ls s := by
  induction h with
  | init hs => exact .init hs
  | step _ hstep ih => exact .step ih hstep.1

/-- The system from a state on. -/
def restart (S : System σ ℓ) (s₀ : σ) : System σ ℓ where
  init s := s = s₀
  step := S.step

/-- A run goes on with steps that a system with fewer of them takes. -/
theorem Run.append {T : System σ ℓ} {ls ls' : List ℓ} {s s' : σ} (h : S.Run ls s) (h' : (T.restart s).Run ls' s')
    (hstep : ∀ s l s', T.step s l s' → S.step s l s') : S.Run (ls ++ ls') s' := by
  induction h' with
  | init hs =>
      subst hs
      simpa using h
  | step _ hl ih =>
      rw [← List.append_assoc]
      exact ih.step (hstep _ _ _ hl)

/-- A system of which every step is matched from related states has all runs of the first. -/
theorem Run.simulated {τ : Type} {T : System τ ℓ} {R : σ → τ → Prop} {ls : List ℓ} {s : σ} (h : S.Run ls s)
    (hinit : ∀ s, S.init s → ∃ t, T.init t ∧ R s t)
    (hstep : ∀ s t l s', R s t → S.step s l s' → ∃ t', T.step t l t' ∧ R s' t') : ∃ t, T.Run ls t ∧ R s t := by
  induction h with
  | init hs =>
      obtain ⟨t, ht, hrel⟩ := hinit _ hs
      exact ⟨t, .init ht, hrel⟩
  | step _ hl ih =>
      obtain ⟨t, hrun, hrel⟩ := ih
      obtain ⟨t', hl', hrel'⟩ := hstep _ _ _ _ hrel hl
      exact ⟨t', .step hrun hl', hrel'⟩

/-! ## What the labels add up to -/

/-- An invariant of the state and of the weight of the steps so far. -/
theorem Run.weighed {w : ℓ → Nat} {I : Nat → σ → Prop} {ls : List ℓ} {s : σ} (h : S.Run ls s)
    (hinit : ∀ s, S.init s → I 0 s) (hstep : ∀ n s l s', I n s → S.step s l s' → I (n + w l) s') :
    I (ls.map w).sum s := by
  induction h with
  | init hs => exact hinit _ hs
  | step _ hl ih =>
      rw [List.map_append, List.sum_append]
      exact hstep _ _ _ _ ih hl

/-! ## Runs that end -/

/-- A measure that every step decreases bounds the length of the runs. -/
theorem Run.length_le {I : σ → Prop} {μ : σ → Nat} {n : Nat} (hI : S.Invariant I) (hinit : ∀ s, S.init s → μ s ≤ n)
    (hstep : ∀ s l s', I s → S.step s l s' → μ s' < μ s) {ls : List ℓ} {s : σ} (h : S.Run ls s) :
    ls.length + μ s ≤ n := by
  induction h with
  | init hs => simpa using hinit _ hs
  | step hrun hl ih =>
      have hlt := hstep _ _ _ (hrun.invariant hI) hl
      rw [List.length_append, List.length_singleton]
      omega

/-- Such a run goes on to a state in which no step is left. -/
theorem Run.ends {I : σ → Prop} {μ : σ → Nat} (hI : S.Invariant I)
    (hstep : ∀ s l s', I s → S.step s l s' → μ s' < μ s) {ls : List ℓ} {s : σ} (h : S.Run ls s) :
    ∃ ls' s', S.Run (ls ++ ls') s' ∧ ∀ l s'', ¬ S.step s' l s'' := by
  induction hn : μ s using Nat.strongRecOn generalizing ls s with
  | ind n ih =>
      by_cases hlast : ∃ l s', S.step s l s'
      · obtain ⟨l, s', hl⟩ := hlast
        have hlt := hstep _ _ _ (h.invariant hI) hl
        obtain ⟨ls', s'', hrun, hend⟩ := ih _ (hn ▸ hlt) (.step h hl) rfl
        refine ⟨l :: ls', s'', ?_, hend⟩
        simpa using hrun
      · exact ⟨[], s, by simpa using h, fun l s' hl => hlast ⟨l, s', hl⟩⟩

end System

end Base
