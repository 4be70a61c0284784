-- SUMMARY: Refinement between programs over different interfaces: what one of them returns the other may return.
import Netdev.Base.Prog

/-!
# Refinement of programs

A program refines another one when each of its runs that returns is matched by a run of the
other with a related result. The two may use different operations: an operation of one side
alone is passed over, whatever it answers on the left, and with an answer of our choice on the
right.
-/

namespace Base.Prog
variable {I J : Interface} {α β γ δ : Type}

/-! ## Results -/

/-- The program may return `b` when its operations are answered as `A` admits. -/
def Returns (A : Event I → Prop) : Prog I α → α → Prop
  | .ret a, b => a = b
  | .call op k, b => ∃ r, A ⟨op, r⟩ ∧ (k r).Returns A b

section Returns
variable {A : Event I → Prop} {p q : Prog I α} {f : α → Prog I β} {a : α} {b : β} {σ : Type} {E : Env I σ}
  {s s' : σ}

@[simp] theorem returns_ret (a b : α) : (.ret a : Prog I α).Returns A b ↔ a = b := Iff.rfl

theorem Returns.bind (hp : p.Returns A a) (hf : (f a).Returns A b) : (p >>= f).Returns A b := by
  induction p with
  | ret a' =>
      cases hp
      exact hf
  | call op k ih =>
      obtain ⟨r, hr, hk⟩ := hp
      exact ⟨r, hr, ih r hk⟩

theorem Returns.split (h : (p >>= f).Returns A b) : ∃ a, p.Returns A a ∧ (f a).Returns A b := by
  induction p with
  | ret a => exact ⟨a, rfl, h⟩
  | call op k ih =>
      obtain ⟨r, hr, hk⟩ := h
      obtain ⟨a, hp, hf⟩ := ih r hk
      exact ⟨a, ⟨r, hr, hp⟩, hf⟩

/-- An execution that ends. -/
theorem Reaches.returns (hr : Reaches E p s q s') (hA : ∀ s e s', E s e s' → A e) (hq : q.Returns A a) :
    p.Returns A a := by
  induction hr with
  | start => exact hq
  | step _ he ih => exact ih ⟨_, hA _ _ _ he, hq⟩

/-- An environment that gives every answer of `A`, in each of its states. -/
theorem Returns.reaches (h : p.Returns A a) (hE : ∀ s e, A e → ∃ s', E s e s') {s₀ : σ}
    (hr : Reaches E q s₀ p s) : ∃ s', Reaches E q s₀ (.ret a) s' := by
  induction p generalizing s with
  | ret b =>
      cases h
      exact ⟨s, hr⟩
  | call op k ih =>
      obtain ⟨r, hop, hk⟩ := h
      obtain ⟨s', he⟩ := hE s _ hop
      exact ih r hk (.step hr he)

end Returns

/-! ## Refinement -/

/-- What `p` returns is matched by something that `q` may return. -/
def Refines (A : Event I → Prop) (B : Event J → Prop) (R : α → β → Prop) (p : Prog I α) (q : Prog J β) : Prop :=
  ∀ a, p.Returns A a → ∃ b, q.Returns B b ∧ R a b

section Refines
variable {A : Event I → Prop} {B : Event J → Prop} {R : α → β → Prop} {S : γ → δ → Prop} {p p' : Prog I α}
  {q : Prog J β} {f : α → Prog I γ} {g : β → Prog J δ}

theorem refines_ret {a : α} {b : β} (h : R a b) : Refines A B R (.ret a) (.ret b) := by
  rintro a' rfl
  exact ⟨b, rfl, h⟩

theorem Refines.bind (h : Refines A B R p q) (hf : ∀ a b, R a b → Refines A B S (f a) (g b)) :
    Refines A B S (p >>= f) (q >>= g) := by
  intro c hc
  obtain ⟨a, hp, hfa⟩ := hc.split
  obtain ⟨b, hq, hab⟩ := h a hp
  obtain ⟨d, hgb, hcd⟩ := hf a b hab c hfa
  exact ⟨d, hq.bind hgb, hcd⟩

/-- An operation of the left program alone. -/
theorem refines_left {op : I.Op} {k : I.Res op → Prog I α} (h : ∀ r, A ⟨op, r⟩ → Refines A B R (k r) q) :
    Refines A B R (.call op k) q := by
  rintro a ⟨r, hr, hk⟩
  exact h r hr a hk

/-- One of the right program alone. -/
theorem refines_right {op : J.Op} {k : J.Res op → Prog J β} (r : J.Res op) (hr : B ⟨op, r⟩)
    (h : Refines A B R p (k r)) : Refines A B R p (.call op k) := by
  intro a ha
  obtain ⟨b, hk, hab⟩ := h a ha
  exact ⟨b, ⟨r, hr, hk⟩, hab⟩

/-- A part of the left program alone of which only this is known. -/
theorem refines_left_bind {P : α → Prop} {q : Prog J δ} (hp : ∀ a, p.Returns A a → P a)
    (h : ∀ a, P a → Refines A B S (f a) q) : Refines A B S (p >>= f) q := by
  intro c hc
  obtain ⟨a, ha, hfa⟩ := hc.split
  exact h a (hp a ha) c hfa

/-- A part of the right program alone. -/
theorem refines_right_bind {p : Prog I γ} {b : β} (hq : q.Returns B b) (h : Refines A B S p (g b)) :
    Refines A B S p (q >>= g) := by
  intro c hc
  obtain ⟨d, hd, hcd⟩ := h c hc
  exact ⟨d, hq.bind hd, hcd⟩

theorem refines_ite {c : Prop} [Decidable c] (hp : c → Refines A B R p q) (hp' : ¬ c → Refines A B R p' q) :
    Refines A B R (if c then p else p') q := by
  split
  · rename_i hc
    exact hp hc
  · rename_i hc
    exact hp' hc

/-- The two decide alike. -/
theorem refines_ite_ite {c : Prop} [Decidable c] {q' : Prog J β} (h : c → Refines A B R p q)
    (h' : ¬ c → Refines A B R p' q') : Refines A B R (if c then p else p') (if c then q else q') := by
  split
  · rename_i hc
    exact h hc
  · rename_i hc
    exact h' hc

/-- The executions of the two programs. -/
theorem Refines.reaches {σ τ : Type} {E : Env I σ} {F : Env J τ} {s s' : σ} {a : α} (h : Refines A B R p q)
    (hA : ∀ s e s', E s e s' → A e) (hB : ∀ t e, B e → ∃ t', F t e t') (hr : Reaches E p s (.ret a) s') (t : τ) :
    ∃ b t', Reaches F q t (.ret b) t' ∧ R a b := by
  obtain ⟨b, hq, hab⟩ := h a (hr.returns hA rfl)
  obtain ⟨t', ht⟩ := hq.reaches hB (@Reaches.start _ _ _ F q t)
  exact ⟨b, t', ht, hab⟩

end Refines

end Base.Prog
