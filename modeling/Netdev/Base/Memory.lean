-- SUMMARY: Bounds-checked buffers: null pointers, allocation, memcpy, and typed fields of a struct in memory.
import Netdev.Base.Layout

/-!
# Buffers in memory

A buffer is a byte string that knows its own length, and every access checks it.
An access through a null pointer or outside its buffer is a `Fault`, so "stays in
bounds" is the statement that a computation returns `.ok`.
-/

namespace Base

inductive Fault where
  | nullDeref
  | outOfBounds
  deriving DecidableEq, Repr

/-- A computation that touches memory. -/
abbrev Mem := Except Fault

/-- A pointer to a whole buffer; `none` is NULL. -/
abbrev Ptr := Option Bytes

/-- A buffer of zeros. -/
def zeros (n : Nat) : { bytes : Bytes // bytes.length = n } := ⟨List.replicate n 0, List.length_replicate⟩

namespace Mem

@[simp] theorem bind_ok {α β : Type} (a : α) (f : α → Mem β) :
    ((Except.ok a : Mem α) >>= f) = f a := rfl

@[simp] theorem bind_error {α β : Type} (e : Fault) (f : α → Mem β) :
    ((Except.error e : Mem α) >>= f) = .error e := rfl

@[simp] theorem pure_eq_ok {α : Type} (a : α) : (pure a : Mem α) = .ok a := rfl

theorem bind_eq_ok {α β : Type} {x : Mem α} {f : α → Mem β} {b : β} (h : x >>= f = .ok b) :
    ∃ a, x = .ok a ∧ f a = .ok b := by
  cases x with
  | error e => cases h
  | ok a => exact ⟨a, rfl, h⟩

end Mem

/-! ## Pointers and allocation -/

def deref : Ptr → Mem Bytes
  | some buf => .ok buf
  | none => .error .nullDeref

@[simp] theorem deref_some (buf : Bytes) : deref (some buf) = .ok buf := rfl
@[simp] theorem deref_none : deref none = .error .nullDeref := rfl

/-- A zeroed buffer of `n` bytes, or NULL when the allocator refuses. -/
def zalloc (ok : Bool) (n : Nat) : Ptr :=
  if ok then some (List.replicate n 0) else none

@[simp] theorem zalloc_true (n : Nat) : zalloc true n = some (List.replicate n 0) := rfl
@[simp] theorem zalloc_false (n : Nat) : zalloc false n = none := rfl

theorem zalloc_eq_none {ok : Bool} {n : Nat} : zalloc ok n = none ↔ ok = false := by
  cases ok with
  | false => simp
  | true => simp

/-! ## Copies -/

/-- Copy `n` bytes from `src + soff` to `dst + off`. -/
def memcpy (dst : Bytes) (off : Nat) (src : Bytes) (soff n : Nat) : Mem Bytes :=
  if soff + n ≤ src.length ∧ off + n ≤ dst.length then
    .ok (dst.take off ++ (src.drop soff).take n ++ dst.drop (off + n))
  else
    .error .outOfBounds

/-- A copy never changes the size of its destination. -/
theorem memcpy_length {dst src out : Bytes} {off soff n : Nat}
    (h : memcpy dst off src soff n = .ok out) : out.length = dst.length := by
  unfold memcpy at h
  split at h
  · rename_i hb
    cases h
    simp only [List.length_append, List.length_take, List.length_drop]
    omega
  · cases h

theorem memcpy_ok {dst src : Bytes} {off soff n : Nat} (hsrc : soff + n ≤ src.length) (hdst : off + n ≤ dst.length) :
    ∃ out, memcpy dst off src soff n = .ok out :=
  ⟨_, if_pos ⟨hsrc, hdst⟩⟩

/-- Every byte of the destination after a copy. -/
theorem memcpy_getElem? {dst src out : Bytes} {off soff n : Nat} (h : memcpy dst off src soff n = .ok out) (j : Nat) :
    out[j]? = if off ≤ j ∧ j < off + n then src[soff + (j - off)]? else dst[j]? := by
  unfold memcpy at h
  split at h
  · rename_i hb
    cases h
    simp only [List.getElem?_append, List.getElem?_take, List.getElem?_drop, List.length_append,
      List.length_take, List.length_drop]
    grind
  · cases h

theorem memcpy_window {pre mid post src : Bytes} {off soff n : Nat}
    (hoff : pre.length = off) (hmid : mid.length = n) (hsrc : soff + n ≤ src.length) :
    memcpy (pre ++ mid ++ post) off src soff n
      = .ok (pre ++ (src.drop soff).take n ++ post) := by
  subst hoff hmid
  have hb : soff + mid.length ≤ src.length ∧
      pre.length + mid.length ≤ (pre ++ mid ++ post).length := by
    simp only [List.length_append]
    omega
  simp only [memcpy, hb, and_self, if_true]
  simp [List.drop_append]

/-- Going on behind what has been filled. -/
theorem memcpy_behind {pre mid src : Bytes} {n : Nat} (hmid : n ≤ mid.length) (hsrc : n ≤ src.length) :
    memcpy (pre ++ mid) pre.length src 0 n = .ok (pre ++ src.take n ++ mid.drop n) := by
  have h := @memcpy_window pre (mid.take n) (mid.drop n) src _ 0 n rfl (by simp [hmid]) (by simpa using hsrc)
  simpa using h

/-- A copy that runs past the end of its destination. -/
theorem memcpy_past {pre mid src : Bytes} {soff n : Nat} (h : mid.length < n) :
    memcpy (pre ++ mid) pre.length src soff n = .error .outOfBounds := by
  unfold memcpy
  rw [if_neg]
  simp [h]

/-- Filling a zeroed buffer from the front. -/
theorem memcpy_zeros {pre src : Bytes} {off n k m : Nat} (hoff : pre.length = off)
    (hsrc : n ≤ src.length) (hm : m = n + k) :
    memcpy (pre ++ List.replicate m 0) off src 0 n
      = .ok (pre ++ src.take n ++ List.replicate k 0) := by
  rw [hm, ← List.replicate_append_replicate, ← List.append_assoc]
  have h := @memcpy_window pre (List.replicate n 0) (List.replicate k 0) src off 0 n hoff
    (by simp) (by omega)
  simpa using h

/-- Taking a known part of the source to the front of the destination. -/
theorem memcpy_part {dst pre part post : Bytes} {soff n : Nat} (hpre : pre.length = soff)
    (hpart : part.length = n) (hdst : n ≤ dst.length) :
    memcpy dst 0 (pre ++ part ++ post) soff n = .ok (part ++ dst.drop n) := by
  have hmid : (dst.take n).length = n := by
    rw [List.length_take, Nat.min_eq_left hdst]
  have hsrc : soff + n ≤ (pre ++ part ++ post).length := by
    simp only [List.length_append]
    omega
  have hread : ((pre ++ part ++ post).drop soff).take n = part := by
    rw [List.append_assoc, List.drop_left' hpre, List.take_left' hpart]
  have h := @memcpy_window [] (dst.take n) (dst.drop n) (pre ++ part ++ post) 0 soff n rfl hmid hsrc
  rw [hread, List.nil_append, List.nil_append, List.take_append_drop] at h
  exact h

/-! ## Typed accesses -/

/-- Read a value of type `α` at `buf + off`. -/
def load (α : Type) [Layout α] (buf : Bytes) (off : Nat) : Mem α :=
  if off + sizeof α ≤ buf.length then
    .ok (ofBytes ((buf.drop off).take (sizeof α)))
  else
    .error .outOfBounds

/-- Write a value at `buf + off`. -/
def store {α : Type} [Layout α] (buf : Bytes) (off : Nat) (a : α) : Mem Bytes :=
  memcpy buf off (toBytes a) 0 (sizeof α)

section Typed
variable {α : Type} [Layout α]

theorem load_window {pre post : Bytes} {a : α} {off : Nat} (hoff : pre.length = off) :
    load α (pre ++ toBytes a ++ post) off = .ok a := by
  subst hoff
  have hb : pre.length + sizeof α ≤ (pre ++ toBytes a ++ post).length := by
    simp only [List.length_append, Layout.length_toBytes]
    omega
  have htake : (toBytes a ++ post).take (sizeof α) = toBytes a := by
    rw [← Layout.length_toBytes a]
    simp
  rw [load, if_pos hb]
  simp [htake]

theorem store_window {pre mid post : Bytes} {a : α} {off : Nat} (hoff : pre.length = off)
    (hmid : mid.length = sizeof α) :
    store (pre ++ mid ++ post) off a = .ok (pre ++ toBytes a ++ post) := by
  have h := @memcpy_window pre mid post (toBytes a) off 0 (sizeof α) hoff hmid (by simp)
  simpa [store, List.take_of_length_le] using h

/-- Writing a value at the front of a zeroed buffer. -/
theorem store_zeros {pre : Bytes} {a : α} {off k m : Nat} (hoff : pre.length = off)
    (hm : m = sizeof α + k) :
    store (pre ++ List.replicate m 0) off a
      = .ok (pre ++ toBytes a ++ List.replicate k 0) := by
  rw [hm, ← List.replicate_append_replicate, ← List.append_assoc]
  exact store_window hoff (List.length_replicate ..)

end Typed

/-! ## Struct fields -/

/-- A field of type `α` at a fixed offset in a struct `σ`: the bytes of the struct
are the bytes of the field between two parts that do not depend on it. -/
structure Field (σ α : Type) [Layout σ] [Layout α] where
  off : Nat
  get : σ → α
  set : σ → α → σ
  window : ∀ s, ∃ pre post, pre.length = off ∧ toBytes s = pre ++ toBytes (get s) ++ post ∧
    ∀ a, toBytes (set s a) = pre ++ toBytes a ++ post

namespace Field
variable {σ τ α β : Type} [Layout σ] [Layout τ] [Layout α] [Layout β]

def load (f : Field σ α) (buf : Bytes) : Mem α := Base.load α buf f.off

def store (f : Field σ α) (buf : Bytes) (a : α) : Mem Bytes := Base.store buf f.off a

@[simp] theorem load_toBytes (f : Field σ α) (s : σ) : f.load (toBytes s) = .ok (f.get s) := by
  obtain ⟨pre, post, hoff, hbytes, -⟩ := f.window s
  rw [load, hbytes]
  exact load_window hoff

@[simp] theorem store_toBytes (f : Field σ α) (s : σ) (a : α) :
    f.store (toBytes s) a = .ok (toBytes (f.set s a)) := by
  obtain ⟨pre, post, hoff, hbytes, hset⟩ := f.window s
  rw [store, hbytes, hset]
  exact store_window hoff (Layout.length_toBytes _)

/-- The whole value as its own only field. -/
def whole : Field α α where
  off := 0
  get := id
  set _ a := a
  window s := ⟨[], [], rfl, by simp, fun a => by simp⟩

/-- A field of the first component. -/
def inFst (f : Field σ α) : Field (σ × τ) α where
  off := f.off
  get p := f.get p.1
  set p a := (f.set p.1 a, p.2)
  window p := by
    obtain ⟨pre, post, hoff, hbytes, hset⟩ := f.window p.1
    refine ⟨pre, post ++ toBytes p.2, hoff, ?_, fun a => ?_⟩
    · change toBytes p.1 ++ toBytes p.2 = _
      simp [hbytes]
    · change toBytes (f.set p.1 a) ++ toBytes p.2 = _
      simp [hset]

/-- A field of the second component. -/
def inSnd (f : Field τ α) : Field (σ × τ) α where
  off := sizeof σ + f.off
  get p := f.get p.2
  set p a := (p.1, f.set p.2 a)
  window p := by
    obtain ⟨pre, post, hoff, hbytes, hset⟩ := f.window p.2
    refine ⟨toBytes p.1 ++ pre, post, by simp [hoff], ?_, fun a => ?_⟩
    · change toBytes p.1 ++ toBytes p.2 = _
      simp [hbytes]
    · change toBytes p.1 ++ toBytes (f.set p.2 a) = _
      simp [hset]

/-- A field of a struct that is laid out like another type. -/
def ofEquiv {ρ : Type} (e : ρ ≃ σ) (f : Field σ α) : @Field ρ α (Layout.ofEquiv e) _ :=
  letI : Layout ρ := Layout.ofEquiv e
  { off := f.off
    get := fun s => f.get (e s)
    set := fun s a => e.symm (f.set (e s) a)
    window := by
      intro s
      obtain ⟨pre, post, hoff, hbytes, hset⟩ := f.window (e s)
      refine ⟨pre, post, hoff, hbytes, fun a => ?_⟩
      change toBytes (e (e.symm (f.set (e s) a))) = _
      rw [Equiv.apply_symm_apply, hset] }

end Field

end Base
