-- SUMMARY: Chained hash tables as lists of keyed entries, with lookups that see one bucket and a traversal bucket by bucket.
import Mathlib.Data.List.FinRange
import Mathlib.Data.List.Nodup

/-!
# Hash tables

A table is the list of its entries, newest first. Since new entries go to the head
of their bucket, a bucket is a filter of that list.
-/

namespace Base

structure Hashtable (κ α : Type) where
  entries : List (κ × α)

namespace Hashtable
variable {κ α : Type} {n : Nat}

def empty : Hashtable κ α := ⟨[]⟩

/-- The entries without their keys, newest first. -/
def values (t : Hashtable κ α) : List α := t.entries.map Prod.snd

/-- `hash_add`. -/
def add (t : Hashtable κ α) (k : κ) (a : α) : Hashtable κ α := ⟨(k, a) :: t.entries⟩

/-- `hash_del` of the node embedded in `a`; nothing happens to a node that is in no
table. -/
def del [DecidableEq α] (t : Hashtable κ α) (a : α) : Hashtable κ α :=
  ⟨t.entries.filter fun e => e.2 ≠ a⟩

/-- The bucket with index `b`. -/
def bucket (t : Hashtable κ α) (hash : κ → Fin n) (b : Fin n) : List α :=
  (t.entries.filter fun e => hash e.1 = b).map Prod.snd

/-- `hash_for_each_possible`. -/
def possible (t : Hashtable κ α) (hash : κ → Fin n) (k : κ) : List α := t.bucket hash (hash k)

/-- `hash_for_each`. -/
def forEach (t : Hashtable κ α) (hash : κ → Fin n) : List α :=
  (List.finRange n).flatMap (t.bucket hash)

@[simp] theorem values_empty : (empty : Hashtable κ α).values = [] := rfl

@[simp] theorem values_add (t : Hashtable κ α) (k : κ) (a : α) :
    (t.add k a).values = a :: t.values := rfl

@[simp] theorem values_del [DecidableEq α] (t : Hashtable κ α) (a : α) :
    (t.del a).values = t.values.filter (· ≠ a) := by
  simp only [values, del, List.filter_map]
  rfl

theorem mem_values_del [DecidableEq α] {t : Hashtable κ α} {a b : α} :
    b ∈ (t.del a).values ↔ b ∈ t.values ∧ b ≠ a := by
  rw [values_del, List.mem_filter, decide_eq_true_eq]

/-- An entry that is there once is gone. -/
theorem length_values_del [DecidableEq α] {t : Hashtable κ α} {a : α} (h : t.values.Nodup)
    (ha : a ∈ t.values) : (t.del a).values.length + 1 = t.values.length := by
  have hfilter : t.values.filter (· ≠ a) = t.values.erase a := by
    rw [List.Nodup.erase_eq_filter h]
    exact List.filter_congr fun b _ => by by_cases hb : b = a <;> simp [hb]
  have hpos := List.length_pos_of_mem ha
  rw [values_del, hfilter, List.length_erase_of_mem ha]
  omega

theorem mem_of_mem_bucket {t : Hashtable κ α} {hash : κ → Fin n} {b : Fin n} {a : α}
    (h : a ∈ t.bucket hash b) : a ∈ t.values := by
  obtain ⟨e, he, rfl⟩ := List.mem_map.mp h
  exact List.mem_map_of_mem (List.mem_of_mem_filter he)

theorem mem_of_mem_possible {t : Hashtable κ α} {hash : κ → Fin n} {k : κ} {a : α}
    (h : a ∈ t.possible hash k) : a ∈ t.values :=
  mem_of_mem_bucket h

/-- A traversal meets every entry. -/
theorem mem_forEach {t : Hashtable κ α} {hash : κ → Fin n} {a : α} :
    a ∈ t.forEach hash ↔ a ∈ t.values := by
  refine ⟨fun h => ?_, fun h => ?_⟩
  · obtain ⟨b, -, hb⟩ := List.mem_flatMap.mp h
    exact mem_of_mem_bucket hb
  · obtain ⟨e, he, rfl⟩ := List.mem_map.mp h
    refine List.mem_flatMap.mpr ⟨hash e.1, List.mem_finRange _, ?_⟩
    exact List.mem_map_of_mem (List.mem_filter.mpr ⟨he, decide_eq_true rfl⟩)

theorem forEach_eq_nil {t : Hashtable κ α} {hash : κ → Fin n} :
    t.forEach hash = [] ↔ t.values = [] := by
  rw [List.eq_nil_iff_forall_not_mem, List.eq_nil_iff_forall_not_mem]
  exact forall_congr' fun a => not_congr mem_forEach

/-- A traversal meets every entry once. -/
theorem nodup_forEach {t : Hashtable κ α} {hash : κ → Fin n} (h : t.values.Nodup) :
    (t.forEach hash).Nodup := by
  have hsub : ∀ b, (t.bucket hash b).Nodup := fun b =>
    h.sublist (List.filter_sublist.map Prod.snd)
  refine List.nodup_flatMap.mpr ⟨fun b _ => hsub b, ?_⟩
  refine (List.nodup_finRange n).imp fun {b c} hbc => ?_
  intro a hb hc
  obtain ⟨e, he, rfl⟩ := List.mem_map.mp hb
  obtain ⟨e', he', hsame⟩ := List.mem_map.mp hc
  have hentry : e' = e := List.inj_on_of_nodup_map h (List.mem_of_mem_filter he')
    (List.mem_of_mem_filter he) hsame
  have hhb := decide_eq_true_eq.mp (List.mem_filter.mp he).2
  have hhc := decide_eq_true_eq.mp (List.mem_filter.mp he').2
  rw [hentry, hhb] at hhc
  exact hbc hhc

end Hashtable

end Base
