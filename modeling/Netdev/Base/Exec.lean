-- SUMMARY: Computations on a state that may stop early, and keep the state in which they stop.

/-!
# Computations that may stop

A kernel call that never returns has still changed the kernel. `Exec` is a state
monad in which stopping is an outcome like returning, with a state of its own.
-/

namespace Base

/-- A computation on `σ` that returns an `α` or stops with an `ε`. -/
def Exec (σ ε α : Type) := σ → Except ε α × σ

namespace Exec
variable {σ ε α β : Type}

instance : Monad (Exec σ ε) where
  pure a := fun s => (.ok a, s)
  bind m f := fun s =>
    match m s with
    | (.ok a, s') => f a s'
    | (.error e, s') => (.error e, s')

def get : Exec σ ε σ := fun s => (.ok s, s)

def modify (f : σ → σ) : Exec σ ε Unit := fun s => (.ok (), f s)

def stop (e : ε) : Exec σ ε α := fun s => (.error e, s)

@[simp] theorem pure_apply (a : α) (s : σ) : (pure a : Exec σ ε α) s = (.ok a, s) := rfl

@[simp] theorem get_apply (s : σ) : (get : Exec σ ε σ) s = (.ok s, s) := rfl

@[simp] theorem modify_apply (f : σ → σ) (s : σ) : (modify f : Exec σ ε Unit) s = (.ok (), f s) := rfl

@[simp] theorem stop_apply (e : ε) (s : σ) : (stop e : Exec σ ε α) s = (.error e, s) := rfl

theorem bind_ok {m : Exec σ ε α} {f : α → Exec σ ε β} {s s' : σ} {a : α} (h : m s = (.ok a, s')) :
    (m >>= f) s = f a s' := by
  change (match m s with | (.ok a, s') => f a s' | (.error e, s') => (.error e, s')) = _
  rw [h]

theorem bind_error {m : Exec σ ε α} {f : α → Exec σ ε β} {s s' : σ} {e : ε} (h : m s = (.error e, s')) :
    (m >>= f) s = (.error e, s') := by
  change (match m s with | (.ok a, s') => f a s' | (.error e, s') => (.error e, s')) = _
  rw [h]

theorem bind_apply (m : Exec σ ε α) (f : α → Exec σ ε β) (s : σ) :
    (m >>= f) s = match m s with
      | (.ok a, s') => f a s'
      | (.error e, s') => (.error e, s') := rfl

instance : LawfulMonad (Exec σ ε) := by
  refine LawfulMonad.mk' _ (fun m => ?_) (fun _ _ => rfl) (fun m f g => ?_)
  · funext s
    change (m >>= pure) s = m s
    rw [bind_apply]
    cases m s with
    | mk r s' =>
        cases r with
        | ok a => rfl
        | error e => rfl
  · funext s
    rw [bind_apply, bind_apply, bind_apply]
    cases m s with
    | mk r s' =>
        cases r with
        | ok a => rfl
        | error e => rfl

/-! ## Weakest preconditions -/

/-- `Q` holds of the outcome and of the state that is left. -/
def wp (m : Exec σ ε α) (Q : Except ε α → σ → Prop) (s : σ) : Prop := Q (m s).1 (m s).2

variable {m : Exec σ ε α} {f : α → Exec σ ε β} {Q : Except ε β → σ → Prop} {s : σ}

theorem wp_bind_ok {s' : σ} {a : α} (h : m s = (.ok a, s')) (hf : wp (f a) Q s') :
    wp (m >>= f) Q s := by
  rw [wp, bind_ok h]
  exact hf

theorem wp_bind_error {s' : σ} {e : ε} (h : m s = (.error e, s')) (hQ : Q (.error e) s') :
    wp (m >>= f) Q s := by
  rw [wp, bind_error h]
  exact hQ

/-- `R` is what is known of the first computation. -/
theorem wp_bind {R : Except ε α → σ → Prop} (h : wp m R s)
    (hok : ∀ a s', R (.ok a) s' → wp (f a) Q s') (herror : ∀ e s', R (.error e) s' → Q (.error e) s') :
    wp (m >>= f) Q s := by
  cases hm : m s with
  | mk r s' =>
      rw [wp, hm] at h
      cases r with
      | ok a => exact wp_bind_ok hm (hok a s' h)
      | error e => exact wp_bind_error hm (herror e s' h)

theorem wp_ite {p : Prop} [Decidable p] {m m' : Exec σ ε β} (hpos : p → wp m Q s)
    (hneg : ¬ p → wp m' Q s) : wp (if p then m else m') Q s := by
  by_cases h : p
  · rw [if_pos h]
    exact hpos h
  · rw [if_neg h]
    exact hneg h

section Post
variable {Q Q' : Except ε α → σ → Prop}

theorem wp.mono (h : wp m Q s)
    (hQ : ∀ r s', Q r s' → Q' r s') : wp m Q' s :=
  hQ _ _ h

/-- What is known of a computation, together with its outcome itself. -/
theorem wp.outcome (h : wp m Q s) : wp m (fun r s' => Q r s' ∧ m s = (r, s')) s := ⟨h, rfl⟩

end Post

/-! ## Quantities that only grow -/

/-- `f` gets no smaller, whether the computation returns or stops. -/
def Grows (f : σ → Nat) (m : Exec σ ε α) : Prop := ∀ s, f s ≤ f (m s).2

namespace Grows
variable {q : σ → Nat} {m m' : Exec σ ε α} {k : α → Exec σ ε β}

theorem pure (a : α) : Grows q (Pure.pure a : Exec σ ε α) := fun _ => Nat.le_refl _

theorem get : Grows q (Exec.get : Exec σ ε σ) := fun _ => Nat.le_refl _

theorem stop (e : ε) : Grows q (Exec.stop e : Exec σ ε α) := fun _ => Nat.le_refl _

theorem modify {g : σ → σ} (h : ∀ s, q s ≤ q (g s)) : Grows q (Exec.modify g : Exec σ ε Unit) := h

theorem bind (h : Grows q m) (hk : ∀ a, Grows q (k a)) : Grows q (m >>= k) := by
  intro s
  change q s ≤ q (match m s with | (.ok a, s') => k a s' | (.error e, s') => (.error e, s')).2
  have hm := h s
  cases hrun : m s with
  | mk r s' =>
      rw [hrun] at hm
      cases r with
      | ok a => exact Nat.le_trans hm (hk a s')
      | error e => exact hm

theorem ite {p : Prop} [Decidable p] (h : Grows q m) (h' : Grows q m') :
    Grows q (if p then m else m') := by
  by_cases hp : p
  · rw [if_pos hp]
    exact h
  · rw [if_neg hp]
    exact h'

end Grows

end Exec

end Base
