-- SUMMARY: The replies to queued requests are found when they arrive in the order of the queue, and in no other order.
import Netdev.Kernel.FoAccess

/-!
# The order of replies

A reply is looked up by its sequence number. `fo_acc_foreq_find` is meant to search the
whole queue; its stopper is the first element, with which it compares every element that
it puts back, and so it never gets to the second.
-/

namespace Netdev.Kernel
open Base

variable {reqs : Requests} {acc acc' : FoAccess} {ps : List Addr} {seq : Int32} {seqs : List Int32}

/-- The sequence number of a request. -/
def Requests.seqOf (reqs : Requests) (p : Addr) : Int64 := (reqs p).req.seq

/-- The right answer to a reply: the request that it is for, and the others stay; nothing
when it is for no request in the queue. -/
def Answers (reqs : Requests) (seq : Int32) (ps : List Addr) : Option Addr → List Addr → Prop
  | some p, ps' => p ∈ ps ∧ reqs.seqOf p = seq.toInt64 ∧ ps'.Perm (ps.erase p)
  | none, ps' => (∀ p ∈ ps, reqs.seqOf p ≠ seq.toInt64) ∧ ps'.Perm ps

/-- Each of the replies gets the right answer. -/
def AllFound (reqs : Requests) : FoAccess → List Int32 → Prop
  | _, [] => True
  | acc, seq :: seqs => ∃ tmp acc', foAccForeqFind true reqs acc seq = some (tmp, acc') ∧
      Answers reqs seq acc.pending tmp acc'.pending ∧ AllFound reqs acc' seqs

/-- Each reply is for the request at the front, or for none in the queue. One that is for
none moves the front to the end. -/
def InTurn (reqs : Requests) : List Addr → List Int32 → Prop
  | _, [] => True
  | [], _ :: seqs => InTurn reqs [] seqs
  | p :: ps, seq :: seqs =>
      if reqs.seqOf p = seq.toInt64 then
        InTurn reqs ps seqs
      else
        (∀ q ∈ ps, reqs.seqOf q ≠ seq.toInt64) ∧ InTurn reqs (ps ++ [p]) seqs

/-! ## One reply -/

theorem allFound_cons {tmp : Option Addr} (hfind : foAccForeqFind true reqs acc seq = some (tmp, acc')) :
    AllFound reqs acc (seq :: seqs) ↔
      Answers reqs seq acc.pending tmp acc'.pending ∧ AllFound reqs acc' seqs := by
  constructor
  · rintro ⟨tmp', acc'', hfind', hanswers, hrest⟩
    obtain ⟨rfl, rfl⟩ := Prod.mk.inj (Option.some.inj (hfind.symm.trans hfind'))
    exact ⟨hanswers, hrest⟩
  · intro h
    exact ⟨tmp, acc', hfind, h.1, h.2⟩

/-- The front of the queue is the request of the reply. -/
theorem answers_front {p : Addr} (hseq : reqs.seqOf p = seq.toInt64) :
    Answers reqs seq (p :: ps) (some p) ps := by
  refine ⟨List.mem_cons_self, hseq, ?_⟩
  rw [List.erase_cons_head]

/-- It is not: the answer is right if no other one is. -/
theorem answers_none {p : Addr} (hseq : reqs.seqOf p ≠ seq.toInt64) :
    Answers reqs seq (p :: ps) none (ps ++ [p]) ↔ ∀ q ∈ ps, reqs.seqOf q ≠ seq.toInt64 := by
  constructor
  · intro h q hq
    exact h.1 q (List.mem_cons_of_mem p hq)
  · intro h
    refine ⟨fun q hq => ?_, List.perm_append_singleton p ps⟩
    rcases List.mem_cons.mp hq with rfl | hq
    · exact hseq
    · exact h q hq

theorem allFound_iff_inTurn (h : acc.Queued ps) : AllFound reqs acc seqs ↔ InTurn reqs ps seqs := by
  induction seqs generalizing acc ps with
  | nil => simp [AllFound, InTurn]
  | cons seq seqs ih =>
      cases ps with
      | nil =>
          obtain ⟨acc', hfind, hqueued⟩ := h.foAccForeqFind_nil reqs seq
          rw [allFound_cons hfind, h.pending, hqueued.pending, ih hqueued]
          simp [Answers, InTurn]
      | cons p ps =>
          obtain ⟨acc', hfind, hqueued⟩ := h.foAccForeqFind_cons reqs seq
          rw [allFound_cons hfind, h.pending, hqueued.pending, ih hqueued, InTurn]
          by_cases hseq : reqs.seqOf p = seq.toInt64
          · have hseq' : (reqs p).req.seq = seq.toInt64 := hseq
            simp only [if_pos hseq', if_pos hseq]
            exact and_iff_right (answers_front hseq)
          · have hseq' : ¬ (reqs p).req.seq = seq.toInt64 := hseq
            simp only [if_neg hseq', if_neg hseq, answers_none hseq]

/-! ## One reply for each request -/

/-- When there is one reply for each request, the order is that of the queue. -/
theorem inTurn_iff_eq (hperm : (seqs.map Int32.toInt64).Perm (ps.map reqs.seqOf)) :
    InTurn reqs ps seqs ↔ seqs.map Int32.toInt64 = ps.map reqs.seqOf := by
  induction ps generalizing seqs with
  | nil =>
      obtain rfl : seqs = [] := List.map_eq_nil_iff.mp hperm.eq_nil
      simp [InTurn]
  | cons p ps ih =>
      cases seqs with
      | nil => cases hperm.symm.eq_nil
      | cons seq seqs =>
          rw [List.map_cons, List.map_cons] at hperm ⊢
          rw [InTurn]
          by_cases hseq : reqs.seqOf p = seq.toInt64
          · rw [if_pos hseq, hseq, List.cons_inj_right]
            rw [hseq] at hperm
            exact ih hperm.cons_inv
          · rw [if_neg hseq]
            have hmem : seq.toInt64 ∈ ps.map reqs.seqOf := by
              apply (List.mem_cons.mp (hperm.mem_iff.mp List.mem_cons_self)).resolve_left
              exact fun heq => hseq heq.symm
            obtain ⟨q, hq, hqseq⟩ := List.mem_map.mp hmem
            refine iff_of_false (fun hturn => hturn.1 q hq hqseq) fun heq => ?_
            exact hseq (List.cons.inj heq).1.symm

/-- Every reply is answered right exactly when each is for the front of the queue or for no
queued request; for one reply to each request that is the order of the queue. -/
theorem replies_found_iff (h : acc.Queued ps) :
    (AllFound reqs acc seqs ↔ InTurn reqs ps seqs) ∧
      ((seqs.map Int32.toInt64).Perm (ps.map reqs.seqOf) →
        (AllFound reqs acc seqs ↔ seqs.map Int32.toInt64 = ps.map reqs.seqOf)) := by
  have hturn := @allFound_iff_inTurn reqs acc ps seqs h
  refine ⟨hturn, fun hperm => ?_⟩
  rw [hturn]
  exact inTurn_iff_eq hperm

/-! ## Two requests -/

/-- The request at 4096 has the number 1, every other one the number 2. -/
def twoRequests : Requests := fun p =>
  ⟨{ seq := if p = 4096 then 1 else 2, msgtype := 0, accessId := 3, args := none, data := none, size := 0,
     dataSize := 0, rvalue := -1 }, 0⟩

/-- The queue after both were added. -/
def twoQueued : FoAccess := (foAccForeqAdd true (foAccForeqAdd true .fresh 4096).2 8192).2

theorem twoQueued_queued : twoQueued.Queued [4096, 8192] where
  holds := (by decide +kernel : twoQueued.foQueue.bytes = [4096, 8192].flatMap (toBytes (α := Addr)))
  valid := List.forall_mem_cons.mpr ⟨by decide, List.forall_mem_singleton.mpr (by decide)⟩
  free := by decide

theorem replies_found_iff_two :
    (AllFound twoRequests twoQueued [1, 2] ↔ InTurn twoRequests [4096, 8192] [1, 2]) ∧
      AllFound twoRequests twoQueued [1, 2] := by
  have h := @replies_found_iff twoRequests twoQueued [4096, 8192] [1, 2] twoQueued_queued
  exact ⟨h.1, (h.2 (by decide)).mpr (by decide)⟩

/-- The second request is answered first, and its reply finds nothing. -/
theorem replies_lost : ∃ seqs : List Int32,
    twoQueued.pending.Nodup ∧ (seqs.map Int32.toInt64).Perm (twoQueued.pending.map twoRequests.seqOf) ∧
    (twoQueued.pending.map twoRequests.seqOf).Nodup ∧ ¬ AllFound twoRequests twoQueued seqs := by
  refine ⟨[2, 1], by decide, by decide, by decide, ?_⟩
  rintro ⟨tmp, acc', hfind, hanswers, -⟩
  obtain ⟨rfl, -⟩ := Prod.mk.inj (Option.some.inj hfind)
  exact hanswers.1 8192 (by decide) (by decide)

end Netdev.Kernel
