-- SUMMARY: Programs that allocate: the heap as an environment, ownership, and one rule for each call of the allocator.
import Netdev.Base.Prog

/-!
# Heaps

A program over an interface is given `malloc`, `realloc` and `free`, and says which blocks it
uses. The allocator hands out a block that is not in use, or the null pointer. A block in
use belongs to the program, to its surroundings, or to nobody since a `realloc` has failed
whose result was taken for the block.
-/

namespace Base

/-- A pointer: null, to the beginning of a block, or never set. -/
inductive Pointer where
  | null
  | block (b : Nat)
  | unset
  deriving DecidableEq

namespace Pointer

/-- The blocks that somebody with this pointer can free. -/
def blocks : Pointer → List Nat
  | .block b => [b]
  | _ => []

@[simp] theorem blocks_null : null.blocks = [] := rfl
@[simp] theorem blocks_unset : unset.blocks = [] := rfl
@[simp] theorem blocks_block (b : Nat) : (block b).blocks = [b] := rfl

theorem length_blocks (p : Pointer) : p.blocks.length ≤ 1 := by
  cases p <;> simp

/-- The pointer was set, and its block is one of `ps`. -/
def Within (ps : List Nat) : Pointer → Prop
  | .null => True
  | .block b => b ∈ ps
  | .unset => False

/-- The pointer is to one of the blocks `ps`. -/
def Points (ps : List Nat) : Pointer → Prop
  | .block b => b ∈ ps
  | _ => False

@[simp] theorem within_null (ps : List Nat) : null.Within ps := trivial
@[simp] theorem within_block (ps : List Nat) (b : Nat) : (block b).Within ps ↔ b ∈ ps := Iff.rfl
@[simp] theorem points_block (ps : List Nat) (b : Nat) : (block b).Points ps ↔ b ∈ ps := Iff.rfl

section
variable {ps qs : List Nat} {p : Pointer}

theorem Points.within (h : p.Points ps) : p.Within ps := by
  cases p with
  | block b => exact h
  | null => exact h.elim
  | unset => exact h.elim

theorem Points.eq_block (h : p.Points ps) : ∃ b, p = .block b := by
  cases p with
  | block b => exact ⟨b, rfl⟩
  | null => exact h.elim
  | unset => exact h.elim

theorem Points.ne_null (h : p.Points ps) : p ≠ .null := by
  rintro rfl
  exact h

theorem Within.points (h : p.Within ps) (hne : p ≠ .null) : p.Points ps := by
  cases p with
  | block b => exact h
  | null => exact absurd rfl hne
  | unset => exact h.elim

theorem Within.mono (h : p.Within ps) (hsub : ∀ b ∈ ps, b ∈ qs) : p.Within qs := by
  cases p with
  | block b => exact hsub b h
  | null => trivial
  | unset => exact h

theorem Points.mono (h : p.Points ps) (hsub : ∀ b ∈ ps, b ∈ qs) : p.Points qs := by
  cases p with
  | block b => exact hsub b h
  | null => exact h
  | unset => exact h

theorem within_blocks (hset : p ≠ .unset) (ps : List Nat) : p.Within (p.blocks ++ ps) := by
  cases p with
  | block b => exact List.mem_cons_self
  | null => trivial
  | unset => exact absurd rfl hset

/-- An allocation that has not failed. -/
theorem eq_block (hset : p ≠ .unset) (hne : p ≠ .null) : ∃ b, p = .block b := by
  cases p with
  | block b => exact ⟨b, rfl⟩
  | null => exact absurd rfl hne
  | unset => exact absurd rfl hset

theorem points_blocks (hset : p ≠ .unset) (hne : p ≠ .null) (ps : List Nat) : p.Points (p.blocks ++ ps) :=
  (within_blocks hset ps).points hne

end

end Pointer

/-! ## Operations -/

/-- The calls of a program to its surroundings: the buffer that a call reads or fills, and the
answers that it may get. -/
structure Calls where
  interface : Interface
  buffer : interface.Op → Pointer
  Answers : Event interface → Prop

inductive HeapOp (C : Calls) where
  | malloc (n : Nat)
  | realloc (p : Pointer) (n : Nat)
  | free (p : Pointer)
  /-- The program follows the pointer. -/
  | use (p : Pointer)
  | call (op : C.interface.Op)

abbrev HeapOp.Res {C : Calls} : HeapOp C → Type
  | .malloc _ => Pointer
  | .realloc _ _ => Pointer
  | .free _ => Unit
  | .use _ => Unit
  | .call op => C.interface.Res op

/-- The pointer of an operation. -/
def HeapOp.pointer {C : Calls} : HeapOp C → Pointer
  | .malloc _ => .null
  | .realloc p _ => p
  | .free p => p
  | .use p => p
  | .call op => C.buffer op

abbrev HeapI (C : Calls) : Interface := ⟨HeapOp C, HeapOp.Res⟩

abbrev HeapM (C : Calls) := Prog (HeapI C)

/-- One operation. -/
abbrev heap {C : Calls} (op : HeapOp C) : HeapM C op.Res := Prog.perform (I := HeapI C) op

/-! ## The heap -/

/-- The blocks in use. `lost` are those of failed calls of `realloc`; no program looks at it. -/
structure Heap where
  live : List Nat
  lost : List Nat
  deriving DecidableEq

namespace Heap
variable {C : Calls}

/-- The pointer can be freed, and followed unless it is null. -/
def Valid (h : Heap) : Pointer → Prop
  | .null => True
  | .block b => b ∈ h.live
  | .unset => False

/-- The operation is done with a valid pointer. -/
def Admits (h : Heap) (op : HeapOp C) : Prop := h.Valid op.pointer

/-- How the allocator and the surroundings answer. A program that follows the null pointer
stops there. An unset pointer may be null or that of any block when it is freed, and nothing is
known of a program that uses an invalid pointer otherwise. -/
inductive Serves (C : Calls) : Prog.Env (HeapI C) Heap where
  | malloc {h : Heap} {n b : Nat} (hb : b ∉ h.live) : Serves C h ⟨.malloc n, .block b⟩ ⟨b :: h.live, h.lost⟩
  | noMemory {h : Heap} {n : Nat} : Serves C h ⟨.malloc n, .null⟩ h
  | realloc {h : Heap} {n b b' : Nat} (hb : b ∈ h.live) (hb' : b' ∉ h.live.erase b) :
      Serves C h ⟨.realloc (.block b) n, .block b'⟩ ⟨b' :: h.live.erase b, h.lost⟩
  | noRoom {h : Heap} {n b : Nat} (hb : b ∈ h.live) (hn : n ≠ 0) :
      Serves C h ⟨.realloc (.block b) n, .null⟩ ⟨h.live, b :: h.lost⟩
  | reallocZero {h : Heap} {b : Nat} (hb : b ∈ h.live) :
      Serves C h ⟨.realloc (.block b) 0, .null⟩ ⟨h.live.erase b, h.lost⟩
  | reallocNull {h : Heap} {n b : Nat} (hb : b ∉ h.live) :
      Serves C h ⟨.realloc .null n, .block b⟩ ⟨b :: h.live, h.lost⟩
  | reallocNothing {h : Heap} {n : Nat} : Serves C h ⟨.realloc .null n, .null⟩ h
  | free {h : Heap} {b : Nat} (hb : b ∈ h.live) : Serves C h ⟨.free (.block b), ()⟩ ⟨h.live.erase b, h.lost⟩
  | freeNull {h : Heap} : Serves C h ⟨.free .null, ()⟩ h
  | freeUnset {h : Heap} : Serves C h ⟨.free .unset, ()⟩ h
  | freeStray {h : Heap} {b : Nat} (hb : b ∈ h.live) :
      Serves C h ⟨.free .unset, ()⟩ ⟨h.live.erase b, h.lost⟩
  | use {h : Heap} {b : Nat} (hb : b ∈ h.live) : Serves C h ⟨.use (.block b), ()⟩ h
  | call {h : Heap} {op : C.interface.Op} {r : C.interface.Res op} (hr : C.Answers ⟨op, r⟩) :
      Serves C h ⟨.call op, r⟩ h

/-- The program owns the blocks `ps`, and its surroundings own `rest`. -/
def Owns (rest ps : List Nat) (h : Heap) : Prop := h.live.Perm (ps ++ (rest ++ h.lost))

/-- At most `n` blocks besides `ps` are owned by nobody who knows of them. -/
def Leaks (rest : List Nat) (n : Nat) (ps : List Nat) (h : Heap) : Prop :=
  ∃ l : List Nat, l.length ≤ n ∧ h.Owns rest (l ++ ps)

section Owns
variable {rest ps qs : List Nat} {h : Heap} {p : Pointer} {b n : Nat}

theorem Owns.perm (ho : h.Owns rest ps) (hperm : ps.Perm qs) : h.Owns rest qs :=
  List.Perm.trans ho (hperm.append_right _)

theorem Owns.mem (ho : h.Owns rest ps) (hb : b ∈ ps) : b ∈ h.live :=
  (List.Perm.mem_iff ho).mpr (List.mem_append_left _ hb)

/-- Only what is owned counts, not in which order. -/
theorem Owns.count (ho : h.Owns rest ps) (hcount : ∀ b, ps.count b = qs.count b) : h.Owns rest qs :=
  ho.perm (List.perm_iff_count.mpr hcount)

theorem Owns.valid (ho : h.Owns rest ps) (hp : p.Within ps) : h.Valid p := by
  cases p with
  | null => trivial
  | block b => exact ho.mem hp
  | unset => exact hp

theorem Owns.leaks (ho : h.Owns rest ps) : h.Leaks rest n ps := ⟨[], Nat.zero_le n, ho⟩

/-- Without a leak. -/
theorem Leaks.owns (hl : h.Leaks rest 0 ps) : h.Owns rest ps := by
  obtain ⟨l, hlen, ho⟩ := hl
  rw [List.length_eq_zero_iff.mp (Nat.le_zero.mp hlen)] at ho
  exact ho

theorem Leaks.mono {m : Nat} (hl : h.Leaks rest n ps) (hle : n ≤ m) : h.Leaks rest m ps := by
  obtain ⟨l, hlen, ho⟩ := hl
  exact ⟨l, Nat.le_trans hlen hle, ho⟩

/-- Nobody frees the blocks `l`. -/
theorem Owns.leak {l : List Nat} (ho : h.Owns rest (l ++ ps)) : h.Leaks rest l.length ps := ⟨l, Nat.le_refl _, ho⟩

/-- Leaks add up. -/
theorem Leaks.leak {l : List Nat} (hl : h.Leaks rest n (l ++ ps)) : h.Leaks rest (n + l.length) ps := by
  obtain ⟨l', hlen, ho⟩ := hl
  refine ⟨l' ++ l, ?_, ?_⟩
  · rw [List.length_append]
    exact Nat.add_le_add_right hlen _
  · rw [List.append_assoc]
    exact ho

end Owns

/-! ## Rules -/

section Rules
variable {rest ps qs : List Nat} {h : Heap} {p : Pointer} {b n : Nat} {α : Type} {Q : α → Heap → Prop}
  {P : Heap → HeapOp C → Prop}

/-- The condition on operations asks for no more than valid pointers, and for blocks where
they are followed. -/
def Allows (P : Heap → HeapOp C → Prop) : Prop := ∀ h op, h.Admits op → op ≠ .use .null → P h op

/-- The operation is valid, and the program goes on after it. -/
def Proceeds (h : Heap) (op : HeapOp C) : Prop := h.Admits op ∧ ∃ r h', Serves C h ⟨op, r⟩ h'

/-- Only following a null pointer stops a program. -/
theorem allows_proceeds (hanswers : ∀ op, ∃ r, C.Answers ⟨op, r⟩) : Allows (C := C) Proceeds := by
  intro h op hadmits hnull
  refine ⟨hadmits, ?_⟩
  cases op with
  | malloc n => exact ⟨_, _, .noMemory⟩
  | realloc p n =>
      cases p with
      | null => exact ⟨_, _, .reallocNothing⟩
      | unset => exact hadmits.elim
      | block b =>
          cases n with
          | zero => exact ⟨_, _, .reallocZero hadmits⟩
          | succ n => exact ⟨_, _, .noRoom hadmits (Nat.succ_ne_zero n)⟩
  | free p =>
      cases p with
      | null => exact ⟨_, _, .freeNull⟩
      | block b => exact ⟨_, _, .free hadmits⟩
      | unset => exact hadmits.elim
  | use p =>
      cases p with
      | null => exact absurd rfl hnull
      | block b => exact ⟨_, _, .use hadmits⟩
      | unset => exact hadmits.elim
  | call op =>
      obtain ⟨r, hr⟩ := hanswers op
      exact ⟨r, h, .call hr⟩

variable (hP : Allows P)
include hP

theorem meets_malloc {k : Pointer → HeapM C α} (ho : h.Owns rest ps)
    (hk : ∀ p h', p ≠ .unset → h'.Owns rest (p.blocks ++ ps) → Prog.meets (Serves C) P Q (k p) h') :
    Prog.meets (Serves C) P Q (heap (.malloc n) >>= k) h := by
  refine ⟨hP _ _ trivial (by simp), ?_⟩
  rintro r h' he
  cases he with
  | malloc => exact hk _ _ (by simp) (List.Perm.cons _ ho)
  | noMemory => exact hk _ _ (by simp) ho

/-- The pointer that `realloc` is given is not used afterwards. -/
theorem meets_realloc {k : Pointer → HeapM C α} (ho : h.Owns rest (b :: ps))
    (hk : ∀ p h', p ≠ .unset → h'.Owns rest (p.blocks ++ ps) → Prog.meets (Serves C) P Q (k p) h') :
    Prog.meets (Serves C) P Q (heap (.realloc (.block b) n) >>= k) h := by
  have hgone : (h.live.erase b).Perm (ps ++ (rest ++ h.lost)) := by
    simpa using List.Perm.erase b ho
  refine ⟨hP _ _ (ho.mem List.mem_cons_self) (by simp), ?_⟩
  rintro r h' he
  cases he with
  | realloc => exact hk _ _ (by simp) (List.Perm.cons _ hgone)
  | noRoom =>
      refine hk _ _ (by simp) (List.Perm.trans ho ?_)
      simpa using (@List.perm_middle _ b (ps ++ rest) h.lost).symm
  | reallocZero => exact hk _ _ (by simp) hgone

/-- A pointer that was set can be freed; the null pointer owns nothing. -/
theorem meets_free {k : Unit → HeapM C α} (ho : h.Owns rest (p.blocks ++ ps)) (hset : p ≠ .unset)
    (hk : ∀ h', h'.Owns rest ps → Prog.meets (Serves C) P Q (k ()) h') :
    Prog.meets (Serves C) P Q (heap (.free p) >>= k) h := by
  cases p with
  | unset => exact absurd rfl hset
  | null =>
      refine ⟨hP _ _ trivial (by simp), ?_⟩
      rintro r h' he
      cases he with
      | freeNull => exact hk _ ho
  | block b =>
      refine ⟨hP _ _ (ho.mem List.mem_cons_self) (by simp), ?_⟩
      rintro r h' he
      cases he with
      | free =>
          refine hk _ ?_
          simpa [Owns] using List.Perm.erase b ho

theorem meets_use {k : Unit → HeapM C α} (ho : h.Owns rest ps) (hp : p.Points ps)
    (hk : Prog.meets (Serves C) P Q (k ()) h) : Prog.meets (Serves C) P Q (heap (.use p) >>= k) h := by
  cases p with
  | block b =>
      refine ⟨hP _ _ (ho.mem hp) (by simp), ?_⟩
      rintro r h' he
      cases he with
      | use => exact hk
  | null => exact hp.elim
  | unset => exact hp.elim

/-- A program that follows a null pointer does not go on. -/
theorem meets_follow {k : Unit → HeapM C α} (ho : h.Owns rest ps) (hp : p.Within ps) (hnull : P h (.use .null))
    (hk : p.Points ps → Prog.meets (Serves C) P Q (k ()) h) :
    Prog.meets (Serves C) P Q (heap (.use p) >>= k) h := by
  cases p with
  | block b => exact meets_use hP ho hp (hk hp)
  | null =>
      refine ⟨hnull, ?_⟩
      rintro r h' he
      cases he
  | unset => exact hp.elim

theorem meets_call {op : C.interface.Op} {k : C.interface.Res op → HeapM C α} (hvalid : h.Valid (C.buffer op))
    (hk : ∀ r, C.Answers ⟨op, r⟩ → Prog.meets (Serves C) P Q (k r) h) :
    Prog.meets (Serves C) P Q (heap (.call op) >>= k) h := by
  refine ⟨hP _ _ hvalid (by simp), ?_⟩
  rintro r h' he
  cases he with
  | call hr => exact hk r hr

end Rules

/-! ## Up to the free of an unset pointer -/

/-- The steps of a program before it frees a pointer that nobody has set. -/
def BeforeUnset (C : Calls) : Prog.Env (HeapI C) Heap := fun h e h' => Serves C h e h' ∧ e.1 ≠ .free .unset

section BeforeUnset
variable {h : Heap} {α : Type} {P : Heap → HeapOp C → Prop} {Q : α → Heap → Prop}

/-- What holds of whole runs holds up to there. -/
theorem meets_before {p : HeapM C α} (hp : Prog.meets (Serves C) P Q p h) : Prog.meets (BeforeUnset C) P Q p h := by
  induction p generalizing h with
  | ret a => exact hp
  | call op k ih => exact ⟨hp.1, fun r h' he => ih r (hp.2 r h' he.1)⟩

theorem meets_freeUnset {k : Unit → HeapM C α} (hP : P h (.free .unset)) :
    Prog.meets (BeforeUnset C) P Q (heap (.free .unset) >>= k) h :=
  ⟨hP, fun _ _ he => absurd rfl he.2⟩

end BeforeUnset

/-! ## Runs without a failed allocation -/

section Run
variable {answer : (op : C.interface.Op) → C.interface.Res op} {α : Type} {p q : HeapM C α} {h h' : Heap} {a : α}

/-- A block that is not in use. -/
def fresh (h : Heap) : Nat := h.live.foldr max 0 + 1

/-- An operation when no allocation fails; `none` where the program stops. -/
def serve (answer : (op : C.interface.Op) → C.interface.Res op) (h : Heap) :
    (op : HeapOp C) → Option (op.Res × Heap)
  | .malloc _ => some (.block h.fresh, ⟨h.fresh :: h.live, h.lost⟩)
  | .realloc (.block b) _ => 
      if b ∈ h.live then some (.block h.fresh, ⟨h.fresh :: h.live.erase b, h.lost⟩) else none
  | .free (.block b) => if b ∈ h.live then some ((), ⟨h.live.erase b, h.lost⟩) else none
  | .free .null => some ((), h)
  | .use (.block b) => if b ∈ h.live then some ((), h) else none
  | .call op => some (answer op, h)
  | _ => none

/-- The whole program. -/
def run (answer : (op : C.interface.Op) → C.interface.Res op) : HeapM C α → Heap → Option (α × Heap)
  | .ret a, h => some (a, h)
  | .call op k, h =>
      match serve answer h op with
      | none => none
      | some (r, h') => run answer (k r) h'

theorem fresh_not_mem (h : Heap) : h.fresh ∉ h.live := by
  have hle : ∀ (bs : List Nat), ∀ b ∈ bs, b ≤ bs.foldr max 0 := by
    intro bs
    induction bs with
    | nil => simp
    | cons c bs ih =>
        intro b hb
        rw [List.foldr_cons]
        rcases List.mem_cons.mp hb with rfl | hb
        · exact Nat.le_max_left _ _
        · exact Nat.le_trans (ih b hb) (Nat.le_max_right _ _)
  intro hmem
  exact absurd (hle h.live _ hmem) (Nat.not_succ_le_self _)

theorem serve_serves (hanswers : ∀ op, C.Answers ⟨op, answer op⟩) {op : HeapOp C} {r : op.Res}
    (hserve : serve answer h op = some (r, h')) : Serves C h ⟨op, r⟩ h' := by
  unfold serve at hserve
  split at hserve
  · cases hserve
    exact .malloc h.fresh_not_mem
  · split at hserve
    · rename_i hb
      cases hserve
      exact .realloc hb fun hmem => h.fresh_not_mem (List.mem_of_mem_erase hmem)
    · cases hserve
  · split at hserve
    · rename_i hb
      cases hserve
      exact .free hb
    · cases hserve
  · cases hserve
    exact .freeNull
  · split at hserve
    · rename_i hb
      cases hserve
      exact .use hb
    · cases hserve
  · cases hserve
    exact .call (hanswers _)
  · cases hserve

/-- What is computed is an execution. -/
theorem reaches_of_run (hanswers : ∀ op, C.Answers ⟨op, answer op⟩) {h₀ : Heap}
    (hr : Prog.Reaches (Serves C) q h₀ p h) (hrun : run answer p h = some (a, h')) :
    Prog.Reaches (Serves C) q h₀ (.ret a) h' := by
  induction p generalizing h with
  | ret b =>
      cases hrun
      exact hr
  | call op k ih =>
      rw [run] at hrun
      split at hrun
      · cases hrun
      · rename_i r h₁ hserve
        exact ih r (.step hr (serve_serves hanswers hserve)) hrun

end Run

end Heap

end Base
