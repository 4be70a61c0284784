-- SUMMARY: Processes that fork: what each of them meets on its own, and that what is handed over is held once.
import Mathlib.Data.List.Perm.Subperm
import Netdev.Base.Prog
import Netdev.Base.System

/-!
# Processes

A program may fork: it goes on twice, as the parent and as the child, each with a state of
its own, and both share the rest of the machine. A program on its own cannot tell which
of the two it is, so what holds of it for every result of `fork` holds of all processes.
-/

namespace Base

/-! ## Programs that fork -/

inductive ProcOp (C : Interface) where
  | fork
  | exit
  | call (op : C.Op)

/-- `fork` gives the pid of the child, 0 in the child, and -1 when it fails. -/
abbrev ProcOp.Res {C : Interface} : ProcOp C → Type
  | .fork => Int
  | .exit => Empty
  | .call op => C.Res op

abbrev ProcI (C : Interface) : Interface := ⟨ProcOp C, ProcOp.Res⟩

abbrev ProcM (C : Interface) := Prog (ProcI C)

/-- One operation. -/
abbrev proc {C : Interface} (op : ProcOp C) : ProcM C op.Res := Prog.perform (I := ProcI C) op

/-- What a process has for itself, what all share, how calls are answered, and what a parent
and its child keep of the state before the fork. -/
structure Machine (C : Interface) where
  Own : Type
  Shared : Type
  call : Prog.Env C (Own × Shared)
  parent : Own → Own
  child : Own → Own

namespace Machine
variable {C : Interface} {M : Machine C}

/-! ## Processes -/

structure Process (M : Machine C) where
  pid : Nat
  parent : Nat
  own : M.Own
  prog : ProcM C Unit

/-- The processes that have not exited. -/
structure State (M : Machine C) where
  shared : M.Shared
  procs : List (Process M)

/-- The process with this pid takes a step. -/
inductive Step (M : Machine C) : State M → Nat → State M → Prop where
  | call {g g' : M.Shared} {pre post : List (Process M)} {p : Process M} {op : C.Op}
      {k : C.Res op → ProcM C Unit} {r : C.Res op} {own : M.Own} :
      p.prog = .call (.call op) k → M.call (p.own, g) ⟨op, r⟩ (own, g') →
      Step M ⟨g, pre ++ p :: post⟩ p.pid ⟨g', pre ++ { p with own, prog := k r } :: post⟩
  | fork {g : M.Shared} {pre post : List (Process M)} {p : Process M} {k : Int → ProcM C Unit} {pid : Nat} :
      p.prog = .call .fork k → 0 < pid → (∀ q ∈ pre ++ p :: post, q.pid ≠ pid) →
      Step M ⟨g, pre ++ p :: post⟩ p.pid
        ⟨g, pre ++ { p with own := M.parent p.own, prog := k pid } ::
          (post ++ [⟨pid, p.pid, M.child p.own, k 0⟩])⟩
  | noFork {g : M.Shared} {pre post : List (Process M)} {p : Process M} {k : Int → ProcM C Unit} :
      p.prog = .call .fork k →
      Step M ⟨g, pre ++ p :: post⟩ p.pid ⟨g, pre ++ { p with prog := k (-1) } :: post⟩
  | exit {g : M.Shared} {pre post : List (Process M)} {p : Process M} {k : Empty → ProcM C Unit} :
      p.prog = .call .exit k → Step M ⟨g, pre ++ p :: post⟩ p.pid ⟨g, pre ++ post⟩
  | finish {g : M.Shared} {pre post : List (Process M)} {p : Process M} :
      p.prog = .ret () → Step M ⟨g, pre ++ p :: post⟩ p.pid ⟨g, pre ++ post⟩
  | killed {g : M.Shared} {pre post : List (Process M)} {p : Process M} :
      Step M ⟨g, pre ++ p :: post⟩ p.pid ⟨g, pre ++ post⟩

/-- One process starts. -/
def system (M : Machine C) (g : M.Shared) (p : Process M) : System (State M) Nat where
  init s := s = ⟨g, [p]⟩
  step := Step M

/-! ## A program on its own -/

/-- What a process sees of its own steps. -/
def Alone (M : Machine C) : Prog.Env (ProcI C) M.Own
  | own, ⟨.call op, r⟩, own' => ∃ g g', M.call (own, g) ⟨op, r⟩ (own', g')
  | own, ⟨.fork, pid⟩, own' =>
      pid = 0 ∧ own' = M.child own ∨ 0 < (pid : Int) ∧ own' = M.parent own ∨ pid = -1 ∧ own' = own
  | _, ⟨.exit, _⟩, _ => False

section
variable {α : Type} {P : M.Own → ProcOp C → Prop} {Q : α → M.Own → Prop} {own : M.Own}

/-- The program goes on as the child and as the parent. -/
theorem meets_fork {k : Int → ProcM C α} (hop : P own .fork)
    (hchild : Prog.meets (Alone M) P Q (k 0) (M.child own))
    (hparent : ∀ pid : Int, 0 < pid → Prog.meets (Alone M) P Q (k pid) (M.parent own))
    (hfailed : Prog.meets (Alone M) P Q (k (-1)) own) : Prog.meets (Alone M) P Q (proc .fork >>= k) own := by
  refine ⟨hop, ?_⟩
  rintro pid own' (⟨rfl, rfl⟩ | ⟨hpid, rfl⟩ | ⟨rfl, rfl⟩)
  · exact hchild
  · exact hparent pid hpid
  · exact hfailed

theorem meets_call {op : C.Op} {k : C.Res op → ProcM C α} (hop : P own (.call op))
    (hk : ∀ g r own' g', M.call (own, g) ⟨op, r⟩ (own', g') → Prog.meets (Alone M) P Q (k r) own') :
    Prog.meets (Alone M) P Q (proc (.call op) >>= k) own := by
  refine ⟨hop, ?_⟩
  rintro r own' ⟨g, g', hcall⟩
  exact hk g r own' g' hcall

/-- Nothing follows. -/
theorem meets_exit {k : Empty → ProcM C α} (hop : P own .exit) : Prog.meets (Alone M) P Q (.call .exit k) own :=
  ⟨hop, fun r => r.elim⟩

end

/-- A program that does only what `P` admits. When it returns the process exits. -/
def Admitted (P : M.Own → ProcOp C → Prop) (prog : ProcM C Unit) (own : M.Own) : Prop :=
  Prog.meets (Alone M) P (fun _ own => P own .exit) prog own

/-- The rest of the process does only what `P` admits. -/
def Process.Meets (P : M.Own → ProcOp C → Prop) (p : Process M) : Prop := Admitted P p.prog p.own

section
variable {P : M.Own → ProcOp C → Prop} {g : M.Shared} {p₀ : Process M} {s s' : State M} {pid : Nat}

/-- The next operation of a process is admitted. -/
theorem Process.Meets.op {p : Process M} {op : ProcOp C} {k : op.Res → ProcM C Unit} (h : p.Meets P)
    (hp : p.prog = .call op k) : P p.own op := by
  rw [Process.Meets, Admitted, hp] at h
  exact h.1

/-- What a process does next. -/
theorem Process.Meets.next {p : Process M} (h : p.Meets P) :
    p.prog = .ret () ∧ P p.own .exit ∨ ∃ op k, p.prog = .call op k ∧ P p.own op := by
  rw [Process.Meets, Admitted] at h
  cases hp : p.prog with
  | ret a =>
      rw [hp] at h
      exact .inl ⟨rfl, h⟩
  | call op k =>
      rw [hp] at h
      exact .inr ⟨op, k, rfl, h.1⟩

/-- What holds of every process holds after a step, if what the one process does keeps it. -/
theorem step_forall {R : Process M → Prop} (hstep : Step M s pid s') (h : ∀ p ∈ s.procs, R p)
    (hcall : ∀ p ∈ s.procs, ∀ op k g g' r own, p.prog = .call (.call op) k →
      M.call (p.own, g) ⟨op, r⟩ (own, g') → R { p with own, prog := k r })
    (hfork : ∀ p ∈ s.procs, ∀ k pid, p.prog = .call .fork k → 0 < pid →
      R { p with own := M.parent p.own, prog := k (pid : Nat) } ∧ R ⟨pid, p.pid, M.child p.own, k 0⟩)
    (hfailed : ∀ p ∈ s.procs, ∀ k, p.prog = .call .fork k → R { p with prog := k (-1) }) :
    ∀ p ∈ s'.procs, R p := by
  have hmiddle {pre post : List (Process M)} {p p' : Process M} (rest : List (Process M))
      (h : ∀ q ∈ pre ++ p :: post, R q) (hp : R p') (hrest : ∀ q ∈ rest, R q) :
      ∀ q ∈ pre ++ p' :: (post ++ rest), R q := by
    intro q hq
    simp only [List.mem_append, List.mem_cons] at hq h
    rcases hq with hq | rfl | hq | hq
    · exact h q (.inl hq)
    · exact hp
    · exact h q (.inr (.inr hq))
    · exact hrest q hq
  cases hstep with
  | @call g g' pre post p op k r own hprog hop =>
      simpa using hmiddle [] h (hcall p (by simp) op k g g' r own hprog hop) (by simp)
  | @fork g pre post p k pid hprog hpid _ =>
      obtain ⟨hparent, hchild⟩ := hfork p (by simp) k pid hprog hpid
      exact hmiddle _ h hparent (by simpa using hchild)
  | @noFork g pre post p k hprog =>
      simpa using hmiddle [] h (hfailed p (by simp) k hprog) (by simp)
  | _ =>
      intro q hq
      refine h q ?_
      simp only [List.mem_append, List.mem_cons] at hq ⊢
      exact hq.imp_right .inr

theorem step_meets (hstep : Step M s pid s') (h : ∀ p ∈ s.procs, p.Meets P) : ∀ p ∈ s'.procs, p.Meets P := by
  refine step_forall hstep h ?_ ?_ ?_
  · intro p hp op k g g' r own hprog hcall
    have hmeets := h p hp
    rw [Process.Meets, Admitted, hprog] at hmeets
    exact hmeets.2 r own ⟨g, g', hcall⟩
  · intro p hp k pid hprog hpid
    have hmeets := h p hp
    rw [Process.Meets, Admitted, hprog] at hmeets
    exact ⟨hmeets.2 _ _ (.inr (.inl ⟨Int.natCast_pos.mpr hpid, rfl⟩)), hmeets.2 _ _ (.inl ⟨rfl, rfl⟩)⟩
  · intro p hp k hprog
    have hmeets := h p hp
    rw [Process.Meets, Admitted, hprog] at hmeets
    exact hmeets.2 _ _ (.inr (.inr ⟨rfl, rfl⟩))

/-- What holds of the program on its own holds of every process of every run. -/
theorem run_meets (h : p₀.Meets P) {pids : List Nat} (hrun : (system M g p₀).Run pids s) :
    ∀ p ∈ s.procs, p.Meets P := by
  refine hrun.invariant (I := fun s => ∀ p ∈ s.procs, p.Meets P) ⟨?_, fun s l s' hs hstep => step_meets hstep hs⟩
  rintro s rfl p hp
  rw [List.mem_singleton.mp hp]
  exact h

end

/-! ## What is handed over -/

/-- A process is responsible for what it holds; new things are counted from `next` on. A child
takes over what its parent was responsible for. -/
structure HandsOver (P : M.Own → ProcOp C → Prop) (held : M.Own → List Nat) (next : M.Shared → Nat) : Prop where
  parent : ∀ own, held (M.parent own) = []
  child : ∀ own, held (M.child own) = held own
  call : ∀ own g op r own' g', P own (.call op) → M.call (own, g) ⟨op, r⟩ (own', g') →
    next g ≤ next g' ∧ ∃ new : List Nat, new.Nodup ∧ (∀ i ∈ new, next g ≤ i ∧ i < next g') ∧
      (held own').Subperm (new ++ held own)

/-- All that some process is responsible for. -/
def State.holdings (held : M.Own → List Nat) (s : State M) : List Nat := s.procs.flatMap fun p => held p.own

/-- Nothing is held twice, and what is new is held by nobody. -/
structure Once (held : M.Own → List Nat) (next : M.Shared → Nat) (s : State M) : Prop where
  nodup : (s.holdings held).Nodup
  lt : ∀ i ∈ s.holdings held, i < next s.shared

section
variable {P : M.Own → ProcOp C → Prop} {held : M.Own → List Nat} {next : M.Shared → Nat} {g : M.Shared}
  {p₀ : Process M} {s s' : State M} {pid : Nat}

theorem Once.subperm {new : List Nat} (h : Once held next s) (hle : next s.shared ≤ next s'.shared)
    (hnew : new.Nodup) (hbounds : ∀ i ∈ new, next s.shared ≤ i ∧ i < next s'.shared)
    (hsub : (s'.holdings held).Subperm (new ++ s.holdings held)) : Once held next s' := by
  have hall : (new ++ s.holdings held).Nodup := by
    refine List.nodup_append.mpr ⟨hnew, h.nodup, ?_⟩
    rintro i hi j hj rfl
    exact absurd (h.lt i hj) (Nat.not_lt.mpr (hbounds i hi).1)
  have hlt : ∀ i ∈ new ++ s.holdings held, i < next s'.shared := by
    intro i hi
    rcases List.mem_append.mp hi with hi | hi
    · exact (hbounds i hi).2
    · exact Nat.lt_of_lt_of_le (h.lt i hi) hle
  obtain ⟨l, hperm, hl⟩ := hsub
  exact ⟨hperm.nodup_iff.mp (hall.sublist hl), fun i hi => hlt i (hl.subset (hperm.mem_iff.mpr hi))⟩

theorem step_once (hover : HandsOver P held next) (hstep : Step M s pid s') (hmeets : ∀ p ∈ s.procs, p.Meets P)
    (h : Once held next s) : Once held next s' := by
  have hrest {g' : M.Shared} {procs : List (Process M)}
      (hg : next s.shared = next g') (hsub : (State.holdings held ⟨g', procs⟩).Subperm (s.holdings held)) :
      Once held next (⟨g', procs⟩ : State M) :=
    @Once.subperm C M held next s ⟨g', procs⟩ [] h (Nat.le_of_eq hg) .nil (by simp) hsub
  cases hstep with
  | @call g g' pre post p op k r own hprog hcall =>
      have hP : P p.own (.call op) := (hmeets p (by simp)).op hprog
      obtain ⟨hle, new, hnew, hbounds, hsub⟩ := hover.call _ _ _ _ _ _ hP hcall
      refine @Once.subperm C M held next _ ⟨g', pre ++ { p with own, prog := k r } :: post⟩ new h hle hnew
        hbounds ?_
      simp only [State.holdings, List.flatMap_append, List.flatMap_cons]
      generalize pre.flatMap (fun p => held p.own) = xs
      generalize post.flatMap (fun p => held p.own) = ys
      have hmoved : (xs ++ (new ++ held p.own ++ ys)).Perm (new ++ (xs ++ (held p.own ++ ys))) := by
        simpa only [List.append_assoc] using List.perm_append_comm_assoc xs new (held p.own ++ ys)
      exact ((List.subperm_append_left xs).mpr ((List.subperm_append_right ys).mpr hsub)).trans hmoved.subperm
  | @fork g pre post p k pid hprog hpid _ =>
      refine hrest rfl (List.Perm.subperm ?_)
      simp only [State.holdings, List.flatMap_append, List.flatMap_cons, List.flatMap_nil, hover.parent,
        hover.child, List.nil_append, List.append_nil]
      exact List.perm_append_comm.append_left _
  | noFork hprog =>
      refine hrest rfl (List.Perm.subperm ?_)
      simp [State.holdings]
  | _ =>
      refine hrest rfl (List.Sublist.subperm ?_)
      simp [State.holdings]

/-- In every run, each thing has at most one process that is responsible for it. -/
theorem run_once (hover : HandsOver P held next) (h : p₀.Meets P) (hnone : held p₀.own = []) {pids : List Nat}
    (hrun : (system M g p₀).Run pids s) : Once held next s := by
  have hinv := hrun.invariant (I := fun s => (∀ p ∈ s.procs, p.Meets P) ∧ Once held next s) ⟨?_, ?_⟩
  · exact hinv.2
  · rintro s rfl
    refine ⟨by simpa using h, ?_, ?_⟩
    · simp [State.holdings, hnone]
    · simp [State.holdings, hnone]
  · rintro s pid s' ⟨hmeets, honce⟩ hstep
    exact ⟨step_meets hstep hmeets, step_once hover hstep hmeets honce⟩

end

end Machine

end Base
