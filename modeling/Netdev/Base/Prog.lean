-- SUMMARY: Programs as trees of operations: sequencing, handlers, execution against a stateful environment, and a wp calculus with an invariant.
import Netdev.Base.Exec

/-!
# Programs over an interface

A program that talks to its environment is a tree: each node is an operation, and
the branch taken is the answer. The environment is a relation on a state, so the
same program can be run against a recorded history, a shared queue, or a set of
resources that the thread holds.
-/

namespace Base

/-- The operations of a program and what each of them answers. -/
structure Interface where
  Op : Type
  Res : Op → Type

/-- An operation together with its answer. -/
abbrev Event (I : Interface) := (op : I.Op) × I.Res op

inductive Prog (I : Interface) (α : Type) where
  | ret (a : α)
  | call (op : I.Op) (k : I.Res op → Prog I α)

namespace Prog
variable {I : Interface} {α β γ : Type}

/-! ## Sequencing -/

def bind : Prog I α → (α → Prog I β) → Prog I β
  | .ret a, f => f a
  | .call op k, f => .call op fun r => (k r).bind f

/-- One operation. -/
abbrev perform (op : I.Op) : Prog I (I.Res op) := .call op .ret

instance : Monad (Prog I) where
  pure := .ret
  bind := bind

@[simp] theorem pure_eq_ret (a : α) : (pure a : Prog I α) = .ret a := rfl

@[simp] theorem ret_bind (a : α) (f : α → Prog I β) : ((.ret a : Prog I α) >>= f) = f a := rfl

@[simp] theorem call_bind (op : I.Op) (k : I.Res op → Prog I α) (f : α → Prog I β) :
    (.call op k >>= f) = .call op fun r => k r >>= f := rfl

theorem bind_assoc' (p : Prog I α) (f : α → Prog I β) (g : β → Prog I γ) :
    p >>= f >>= g = p >>= fun a => f a >>= g := by
  induction p with
  | ret a => rfl
  | call op k ih =>
      simp only [call_bind]
      congr 1
      funext r
      exact ih r

/-! ## The operations of a program -/

/-- Every operation that the program may perform satisfies `P`. -/
def Only (P : I.Op → Prop) : Prog I α → Prop
  | .ret _ => True
  | .call op k => P op ∧ ∀ r, (k r).Only P

@[simp] theorem only_ret (P : I.Op → Prop) (a : α) : (.ret a : Prog I α).Only P ↔ True := Iff.rfl

@[simp] theorem only_call (P : I.Op → Prop) (op : I.Op) (k : I.Res op → Prog I α) :
    (.call op k : Prog I α).Only P ↔ P op ∧ ∀ r, (k r).Only P := Iff.rfl

theorem Only.bind {P : I.Op → Prop} {p : Prog I α} {f : α → Prog I β} (h : p.Only P)
    (hf : ∀ a, (f a).Only P) : (p >>= f).Only P := by
  induction p with
  | ret a => exact hf a
  | call op k ih => exact ⟨h.1, fun r => ih r (h.2 r)⟩

/-- Every operation that the program may perform satisfies `P`, as long as the answers meet
`A`. -/
def Within (A : Event I → Prop) (P : I.Op → Prop) : Prog I α → Prop
  | .ret _ => True
  | .call op k => P op ∧ ∀ r, A ⟨op, r⟩ → (k r).Within A P

theorem Within.bind {A : Event I → Prop} {P : I.Op → Prop} {p : Prog I α} {f : α → Prog I β}
    (h : p.Within A P) (hf : ∀ a, (f a).Within A P) : (p >>= f).Within A P := by
  induction p with
  | ret a => exact hf a
  | call op k ih => exact ⟨h.1, fun r hr => ih r (h.2 r hr)⟩

theorem Within.ite {A : Event I → Prop} {P : I.Op → Prop} {c : Prop} [Decidable c] {p q : Prog I α}
    (hp : p.Within A P) (hq : q.Within A P) : (if c then p else q).Within A P := by
  split
  · exact hp
  · exact hq

/-- Every operation replaced by a program over another interface. -/
def translate {J : Interface} (t : (op : I.Op) → Prog J (I.Res op)) : Prog I α → Prog J α
  | .ret a => .ret a
  | .call op k => t op >>= fun r => (k r).translate t

/-- What the replacements only do, the translated program only does. -/
theorem Only.translate {J : Interface} {P : J.Op → Prop} {t : (op : I.Op) → Prog J (I.Res op)}
    (ht : ∀ op, (t op).Only P) (p : Prog I α) : (p.translate t).Only P := by
  induction p with
  | ret a => trivial
  | call op k ih => exact (ht op).bind ih

/-! ## Handlers -/

section Handlers
variable {σ ε : Type} {h : (op : I.Op) → Exec σ ε (I.Res op)} {Q : Except ε β → σ → Prop} {s s' : σ}

/-- The program with a handler for its operations. -/
def exec (h : (op : I.Op) → Exec σ ε (I.Res op)) : Prog I α → Exec σ ε α
  | .ret a => pure a
  | .call op k => h op >>= fun r => (k r).exec h

/-- An operation that the handler lets return. -/
theorem wp_exec_call {op : I.Op} {k : I.Res op → Prog I β} {r : I.Res op} (hop : h op s = (.ok r, s'))
    (hk : Exec.wp ((k r).exec h) Q s') : Exec.wp ((.call op k : Prog I β).exec h) Q s :=
  Exec.wp_bind_ok hop hk

/-- `R` is what is known of the handler. -/
theorem wp_exec_op {op : I.Op} {k : I.Res op → Prog I β} {R : Except ε (I.Res op) → σ → Prop}
    (hop : Exec.wp (h op) R s) (hok : ∀ r s', R (.ok r) s' → Exec.wp ((k r).exec h) Q s')
    (herror : ∀ e s', R (.error e) s' → Q (.error e) s') : Exec.wp ((.call op k : Prog I β).exec h) Q s :=
  Exec.wp_bind hop hok herror

/-- One at which the program stops. -/
theorem wp_exec_stop {op : I.Op} {k : I.Res op → Prog I β} {e : ε} (hop : h op s = (.error e, s'))
    (hQ : Q (.error e) s') : Exec.wp ((.call op k : Prog I β).exec h) Q s :=
  Exec.wp_bind_error hop hQ

theorem wp_exec_ite {c : Prop} [Decidable c] {p q : Prog I β} (hpos : c → Exec.wp (p.exec h) Q s)
    (hneg : ¬ c → Exec.wp (q.exec h) Q s) : Exec.wp ((if c then p else q).exec h) Q s := by
  by_cases hc : c
  · rw [if_pos hc]
    exact hpos hc
  · rw [if_neg hc]
    exact hneg hc

/-- What follows a program starts in the state that the program leaves. -/
theorem wp_exec_bind {p : Prog I α} {f : α → Prog I β} {R : Except ε α → σ → Prop}
    (hp : Exec.wp (p.exec h) R s) (hok : ∀ a s', R (.ok a) s' → Exec.wp ((f a).exec h) Q s')
    (herror : ∀ e s', R (.error e) s' → Q (.error e) s') : Exec.wp ((p >>= f).exec h) Q s := by
  induction p generalizing s with
  | ret a => exact hok a s hp
  | call op k ih =>
      rw [call_bind]
      cases hop : h op s with
      | mk r s' =>
          cases r with
          | ok r =>
              refine wp_exec_call hop (ih r ?_)
              rw [exec, Exec.wp, Exec.bind_ok hop] at hp
              exact hp
          | error e =>
              refine wp_exec_stop hop (herror e s' ?_)
              rw [exec, Exec.wp, Exec.bind_error hop] at hp
              exact hp

/-- What the operations of a program keep holds in the state that it leaves. -/
theorem Only.exec_keeps {P : I.Op → Prop} {K : σ → Prop} {p : Prog I α} (hp : p.Only P)
    (hK : ∀ op s, P op → K s → K (h op s).2) (hs : K s) : K (p.exec h s).2 := by
  induction p generalizing s with
  | ret a => exact hs
  | call op k ih =>
      have hop := hK op s hp.1 hs
      rw [exec]
      cases hstep : h op s with
      | mk r s' =>
          rw [hstep] at hop
          cases r with
          | ok r =>
              rw [Exec.bind_ok hstep]
              exact ih r (hp.2 r) hop
          | error e =>
              rw [Exec.bind_error hstep]
              exact hop

end Handlers

/-! ## Execution -/

variable {σ : Type}

/-- How the environment answers: from state `s` the event `e` leads to `s'`. -/
abbrev Env (I : Interface) (σ : Type) := σ → Event I → σ → Prop

/-- The points reached by executing a program from its start. -/
inductive Reaches (E : Env I σ) (p : Prog I α) (s : σ) : Prog I α → σ → Prop where
  | start : Reaches E p s p s
  | step {op : I.Op} {k : I.Res op → Prog I α} {s₁ s₂ : σ} {r : I.Res op} :
      Reaches E p s (.call op k) s₁ → E s₁ ⟨op, r⟩ s₂ → Reaches E p s (k r) s₂

/-! ## Weakest preconditions -/

/-- `J` holds at every operation on the way, and `Q` when the program returns. -/
def wp (E : Env I σ) (J : σ → Prop) (Q : α → σ → Prop) : Prog I α → σ → Prop
  | .ret a, s => Q a s
  | .call op k, s => J s ∧ ∀ r s', E s ⟨op, r⟩ s' → wp E J Q (k r) s'

variable {E : Env I σ} {J J' : σ → Prop} {Q Q' : α → σ → Prop}

@[simp] theorem wp_ret (a : α) (s : σ) : wp E J Q (.ret a) s ↔ Q a s := Iff.rfl

theorem wp.mono {p : Prog I α} {s : σ} (h : wp E J Q p s) (hJ : ∀ s, J s → J' s)
    (hQ : ∀ a s, Q a s → Q' a s) : wp E J' Q' p s := by
  induction p generalizing s with
  | ret a => exact hQ a s h
  | call op k ih => exact ⟨hJ s h.1, fun r s' he => ih r (h.2 r s' he)⟩

theorem wp_bind {p : Prog I α} {f : α → Prog I β} {R : β → σ → Prop} {s : σ}
    (h : wp E J (fun a s => wp E J R (f a) s) p s) : wp E J R (p >>= f) s := by
  induction p generalizing s with
  | ret a => exact h
  | call op k ih => exact ⟨h.1, fun r s' he => ih r (h.2 r s' he)⟩

/-- Whatever comes before it, the last part alone decides. -/
theorem wp_bind_last {p : Prog I α} {f : α → Prog I β} {R : β → σ → Prop}
    (h : ∀ a s, wp E (fun _ => True) R (f a) s) (s : σ) : wp E (fun _ => True) R (p >>= f) s := by
  induction p generalizing s with
  | ret a => exact h a s
  | call op k ih => exact ⟨trivial, fun r s' _ => ih r s'⟩

/-- Like `wp`, with a condition on each operation in the state in which it is performed. -/
def meets (E : Env I σ) (P : σ → I.Op → Prop) (Q : α → σ → Prop) : Prog I α → σ → Prop
  | .ret a, s => Q a s
  | .call op k, s => P s op ∧ ∀ r s', E s ⟨op, r⟩ s' → meets E P Q (k r) s'

section Meets
variable {P P' : σ → I.Op → Prop}

theorem meets.mono {p : Prog I α} {s : σ} (h : meets E P Q p s) (hP : ∀ s op, P s op → P' s op)
    (hQ : ∀ a s, Q a s → Q' a s) : meets E P' Q' p s := by
  induction p generalizing s with
  | ret a => exact hQ a s h
  | call op k ih => exact ⟨hP s op h.1, fun r s' he => ih r (h.2 r s' he)⟩

theorem meets_bind {p : Prog I α} {f : α → Prog I β} {R : β → σ → Prop} {s : σ} (h : meets E P Q p s)
    (hf : ∀ a s, Q a s → meets E P R (f a) s) : meets E P R (p >>= f) s := by
  induction p generalizing s with
  | ret a => exact hf a s h
  | call op k ih => exact ⟨h.1, fun r s' he => ih r (h.2 r s' he)⟩

theorem meets_ite {c : Prop} [Decidable c] {p q : Prog I α} {s : σ} (hp : c → meets E P Q p s)
    (hq : ¬ c → meets E P Q q s) : meets E P Q (if c then p else q) s := by
  by_cases hc : c
  · rw [if_pos hc]
    exact hp hc
  · rw [if_neg hc]
    exact hq hc

/-- A program of operations that keep `K`, in states in which `K` is all that they need. -/
theorem Only.meets {R : I.Op → Prop} {K : σ → Prop} {p : Prog I α} {s : σ} (hp : p.Only R) (hs : K s)
    (hR : ∀ s op, R op → K s → P s op ∧ ∀ r s', E s ⟨op, r⟩ s' → K s') : meets E P (fun _ s => K s) p s := by
  induction p generalizing s with
  | ret a => exact hs
  | call op k ih =>
      obtain ⟨hop, hkeeps⟩ := hR s op hp.1 hs
      exact ⟨hop, fun r s' he => ih r (hp.2 r) (hkeeps r s' he)⟩

/-- What holds of a program holds at every point of an execution. -/
theorem Reaches.meets {p p' : Prog I α} {s s' : σ} (hr : Reaches E p s p' s') (h : meets E P Q p s) :
    Prog.meets E P Q p' s' := by
  induction hr with
  | start => exact h
  | step _ he ih => exact ih.2 _ _ he

end Meets

/-- A precondition is stable under steps of others that the environment may take
before each operation. -/
theorem wp.stable {R : σ → σ → Prop} {p : Prog I α} {s s' : σ} (h : wp E J Q p s) (hR : R s s')
    (hE : ∀ s s' e s'', R s s' → E s' e s'' → E s e s'') (hJ : ∀ s s', R s s' → J s → J s')
    (hQ : ∀ a s s', R s s' → Q a s → Q a s') : wp E J Q p s' := by
  cases p with
  | ret a => exact hQ a s s' hR h
  | call op k => exact ⟨hJ s s' hR h.1, fun r s'' he => h.2 r s'' (hE s s' _ s'' hR he)⟩

/-- Executing a program keeps its precondition. -/
theorem Reaches.wp {p q : Prog I α} {s s' : σ} (h : Reaches E p s q s') (hp : wp E J Q p s) :
    wp E J Q q s' := by
  induction h with
  | start => exact hp
  | step _ he ih => exact ih.2 _ _ he

/-- The point that an execution has reached, as the start of the rest. -/
theorem Reaches.here {p q : Prog I α} {s s' : σ} (_ : Reaches E p s q s') : Reaches E q s' q s' := .start

/-- What every operation keeps holds at every point of an execution. -/
theorem Reaches.invariant {K : σ → Prop} {p q : Prog I α} {s s' : σ} (h : Reaches E p s q s')
    (hK : ∀ s e s', K s → E s e s' → K s') (hs : K s) : K s' := by
  induction h with
  | start => exact hs
  | step _ he ih => exact hK _ _ _ ih he

/-- What holds at every point of an execution. -/
theorem Reaches.always {p q : Prog I α} {s s' : σ} (h : Reaches E p s q s')
    (hp : Prog.wp E J (fun _ s => J s) p s) : J s' := by
  have hq := h.wp hp
  cases q with
  | ret a => exact hq
  | call op k => exact hq.1

end Prog

end Base
