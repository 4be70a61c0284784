-- SUMMARY: Over any sequence of calls on one open file, a request is handed out for completion at most once.
import Mathlib.Data.List.Nodup
import Netdev.Base.System
import Netdev.Kernel.FoAccess

/-!
# Completion of requests

The queue functions are called in any order, and each of their trylocks may fail.
A request is handed out when a search returns it or when the queue is freed and its
completion signalled.
-/

namespace Netdev.Kernel
open Base

/-! ## Calls -/

structure QueueState where
  acc : FoAccess
  reqs : Requests

/-- A call with its result. An added request lies at an address from the pool, which
is no error pointer. -/
inductive QueueEvent where
  | add (trylock : Bool) (req : { p : Addr // isErr p = false }) (rvalue : Int32)
  | find (trylock : Bool) (seq : Int32) (tmp : Option Addr)
  | freeQueue (rvalue : Int32)

inductive QueueStep : QueueState → QueueEvent → QueueState → Prop where
  | add {s : QueueState} {trylock : Bool} {req : { p : Addr // isErr p = false }} {rvalue : Int32}
      {acc : FoAccess} (h : foAccForeqAdd trylock s.acc req = (rvalue, acc)) :
      QueueStep s (.add trylock req rvalue) { s with acc }
  | find {s : QueueState} {trylock : Bool} {seq : Int32} {tmp : Option Addr} {acc : FoAccess}
      (h : foAccForeqFind trylock s.reqs s.acc seq = some (tmp, acc)) :
      QueueStep s (.find trylock seq tmp) { s with acc }
  | freeQueue {s : QueueState} {rvalue : Int32} {acc : FoAccess} {reqs : Requests}
      (h : foAccFreeQueue s.acc s.reqs = some (rvalue, acc, reqs)) :
      QueueStep s (.freeQueue rvalue) ⟨acc, reqs⟩

/-- An open file that starts with an empty queue. -/
def queueSystem (reqs : Requests) : System QueueState QueueEvent where
  init s := s = ⟨.fresh, reqs⟩
  step := QueueStep

/-- The request that a call adds. -/
def QueueEvent.added : QueueEvent → Option Addr
  | .add _ req _ => some req.val
  | _ => none

/-- The request that a search returns. -/
def QueueEvent.found : QueueEvent → Option Addr
  | .find _ _ tmp => tmp
  | _ => none

def added (es : List QueueEvent) : List Addr := es.filterMap QueueEvent.added

def found (es : List QueueEvent) : List Addr := es.filterMap QueueEvent.found

/-! ## The property -/

/-- How often a request was handed out: found, or signalled. -/
def handedOut (reqs : Requests) (es : List QueueEvent) (s : QueueState) (p : Addr) : Nat :=
  (found es).count p + ((s.reqs p).comp - (reqs p).comp)

/-- What a single call does. -/
def CallSafe (s : QueueState) : QueueEvent → QueueState → Prop
  | .add .., s' => s'.reqs = s.reqs
  | .find _ seq (some p), s' =>
      (s.reqs p).req.seq = seq.toInt64 ∧ s.acc.pending = p :: s'.acc.pending ∧ s'.reqs = s.reqs
  | .find _ _ none, s' => s'.acc.pending.Perm s.acc.pending ∧ s'.reqs = s.reqs
  | .freeQueue rvalue, s' => rvalue = 0 → s'.acc.pending = [] ∧
      (∀ p ∈ s.acc.pending, (s'.reqs p).comp = (s.reqs p).comp + 1 ∧
        (s'.reqs p).req.rvalue = -ENODATA) ∧
      ∀ p, p ∉ s.acc.pending → s'.reqs p = s.reqs p

/-- What holds after a run with the events `es`, and of every call from there. -/
structure CompletesOnce (reqs : Requests) (es : List QueueEvent) (s : QueueState) : Prop where
  once : ∀ p, handedOut reqs es s p ≤ 1
  added : ∀ p, 0 < handedOut reqs es s p → p ∈ added es
  call : ∀ e s', QueueStep s e s' → CallSafe s e s'
  /-- Every call returns. -/
  returns_find : ∀ trylock seq, ∃ tmp s', QueueStep s (.find trylock seq tmp) s'
  returns_freeQueue : ∃ rvalue s', QueueStep s (.freeQueue rvalue) s'

/-! ## The invariant -/

/-- A request that was added is in the queue or handed out, and only one of them. -/
structure Accounted (reqs : Requests) (es : List QueueEvent) (s : QueueState) (ps : List Addr) :
    Prop where
  queued : s.acc.Queued ps
  comp : ∀ p, (reqs p).comp ≤ (s.reqs p).comp
  count : ∀ p, ps.count p + handedOut reqs es s p ≤ (added es).count p

theorem count_filterMap_snoc (f : QueueEvent → Option Addr) (es : List QueueEvent) (e : QueueEvent)
    (p : Addr) : ((es ++ [e]).filterMap f).count p = (es.filterMap f).count p + (f e).toList.count p := by
  rw [List.filterMap_append, List.count_append]
  cases hf : f e with
  | none => rw [List.filterMap_cons_none hf]; rfl
  | some q => rw [List.filterMap_cons_some hf]; rfl

namespace Accounted
variable {reqs : Requests} {es : List QueueEvent} {s s' : QueueState} {e : QueueEvent} {ps : List Addr}

theorem step (h : Accounted reqs es s ps) (hstep : QueueStep s e s') :
    ∃ ps', Accounted reqs (es ++ [e]) s' ps' := by
  have hcount := h.count
  cases hstep with
  | @add trylock req rvalue acc hadd =>
      have hacc : (foAccForeqAdd trylock s.acc req).2 = acc := congrArg Prod.snd hadd
      rcases h.queued.foAccForeqAdd req.property trylock with hqueued | hqueued
      · refine ⟨ps ++ [req.val], hacc ▸ hqueued, h.comp, fun p => ?_⟩
        have hp := hcount p
        simp only [handedOut, added, found, count_filterMap_snoc, QueueEvent.added, QueueEvent.found,
          Option.toList_none, Option.toList_some, List.count_append, List.count_nil] at hp ⊢
        omega
      · refine ⟨ps, hacc ▸ hqueued, h.comp, fun p => ?_⟩
        have hp := hcount p
        simp only [handedOut, added, found, count_filterMap_snoc, QueueEvent.added, QueueEvent.found,
          Option.toList_none, Option.toList_some, List.count_nil] at hp ⊢
        omega
  | @find trylock seq tmp acc hfind =>
      obtain ⟨tmp', acc', ps', hfind', hqueued, hps⟩ := h.queued.foAccForeqFind trylock s.reqs seq
      obtain ⟨rfl, rfl⟩ := Prod.mk.inj (Option.some.inj (hfind.symm.trans hfind'))
      refine ⟨ps', hqueued, h.comp, fun p => ?_⟩
      have hp := hcount p
      simp only [handedOut, added, found, count_filterMap_snoc, QueueEvent.added,
        QueueEvent.found, Option.toList_none, List.count_nil] at hp ⊢
      cases tmp with
      | none =>
          have hsame : ps'.count p = ps.count p := List.Perm.count_eq hps p
          rw [Option.toList_none, List.count_nil]
          omega
      | some q =>
          have hcons : ps.count p = ps'.count p + [q].count p := by
            rw [hps.1, List.count_cons, List.count_singleton]
          rw [Option.toList_some]
          omega
  | @freeQueue rvalue acc reqs' hfree =>
      obtain ⟨acc', hfree', hqueued⟩ := h.queued.foAccFreeQueue s.reqs
      have hresult := Option.some.inj (hfree.symm.trans hfree')
      obtain ⟨rfl, rfl, rfl⟩ : rvalue = 0 ∧ acc = acc' ∧ reqs' = s.reqs.completeAll ps (-ENODATA) :=
        ⟨congrArg Prod.fst hresult, congrArg (·.2.1) hresult, congrArg (·.2.2) hresult⟩
      have hcomp := fun p => s.reqs.completeAll_comp (-ENODATA) ps p
      refine ⟨[], hqueued, fun p => ?_, fun p => ?_⟩
      · have hmono := h.comp p
        have hp := hcomp p
        simp only
        omega
      · have hmono := h.comp p
        have hp := hcount p
        have hc := hcomp p
        simp only [handedOut, added, found, count_filterMap_snoc, QueueEvent.added, QueueEvent.found,
          Option.toList_none, List.count_nil] at hp ⊢
        omega

theorem run (hrun : (queueSystem reqs).Run es s) : ∃ ps, Accounted reqs es s ps := by
  induction hrun with
  | init hs =>
      obtain rfl := hs
      refine ⟨[], FoAccess.Queued.fresh, fun _ => le_rfl, fun p => ?_⟩
      simp [handedOut, found, added]
  | step _ hstep ih =>
      obtain ⟨ps, h⟩ := ih
      exact h.step hstep

theorem callSafe (h : Accounted reqs es s ps) (hnodup : ps.Nodup) (hstep : QueueStep s e s') :
    CallSafe s e s' := by
  have hpending := h.queued.pending
  cases hstep with
  | add hadd => rfl
  | @find trylock seq tmp acc hfind =>
      obtain ⟨tmp', acc', ps', hfind', hqueued, hps⟩ := h.queued.foAccForeqFind trylock s.reqs seq
      obtain ⟨rfl, rfl⟩ := Prod.mk.inj (Option.some.inj (hfind.symm.trans hfind'))
      cases tmp with
      | none =>
          refine ⟨?_, rfl⟩
          rw [hpending, hqueued.pending]
          exact hps
      | some p =>
          refine ⟨hps.2, ?_, rfl⟩
          rw [hpending, hqueued.pending]
          exact hps.1
  | @freeQueue rvalue acc reqs' hfree =>
      obtain ⟨acc', hfree', hqueued⟩ := h.queued.foAccFreeQueue s.reqs
      have hresult := Option.some.inj (hfree.symm.trans hfree')
      obtain ⟨rfl, rfl, rfl⟩ : rvalue = 0 ∧ acc = acc' ∧ reqs' = s.reqs.completeAll ps (-ENODATA) :=
        ⟨congrArg Prod.fst hresult, congrArg (·.2.1) hresult, congrArg (·.2.2) hresult⟩
      rw [CallSafe, hpending]
      refine fun _ => ⟨hqueued.pending, fun p hp => ⟨?_, ?_⟩, fun p hp => ?_⟩
      · have hone : ps.count p = 1 := List.count_eq_one_of_mem hnodup hp
        have hc := s.reqs.completeAll_comp (-ENODATA) ps p
        rw [hone] at hc
        exact hc
      · exact s.reqs.completeAll_rvalue (-ENODATA) hp
      · exact s.reqs.completeAll_of_not_mem (-ENODATA) hp

end Accounted

/-! ## Every run -/

/-- Whatever is called in whatever order: each request is handed out at most once and
only after it was added, a search never returns a wrong one and loses none, and
freeing the queue completes what is in it. -/
theorem completesOnce {reqs : Requests} {es : List QueueEvent} {s : QueueState}
    (hrun : (queueSystem reqs).Run es s) (hadded : (added es).Nodup) : CompletesOnce reqs es s := by
  obtain ⟨ps, h⟩ := Accounted.run hrun
  have hone : ∀ p, (added es).count p ≤ 1 := List.nodup_iff_count_le_one.mp hadded
  have hnodup : ps.Nodup := by
    refine List.nodup_iff_count_le_one.mpr fun p => ?_
    have hp := h.count p
    have hp' := hone p
    omega
  refine ⟨fun p => ?_, fun p hpos => ?_, fun e s' hstep => h.callSafe hnodup hstep,
    fun trylock seq => ?_, ?_⟩
  · have hp := h.count p
    have hp' := hone p
    omega
  · have hp := h.count p
    exact List.count_pos_iff.mp (by omega)
  · obtain ⟨tmp, acc, _, hfind, -, -⟩ := h.queued.foAccForeqFind trylock s.reqs seq
    exact ⟨tmp, _, .find hfind⟩
  · obtain ⟨acc, hfree, -⟩ := h.queued.foAccFreeQueue s.reqs
    exact ⟨0, _, .freeQueue hfree⟩

/-- A request with sequence number 7. -/
def sampleRequests : Requests := fun _ =>
  ⟨{ seq := 7, msgtype := 0, accessId := 1, args := none, data := none, size := 0, dataSize := 0,
     rvalue := -1 }, 0⟩

/-- It is added, a search for another one misses it, a search for it finds it. -/
theorem completesOnce_addFind : ∃ s, (queueSystem sampleRequests).Run
      [.add true ⟨4096, by decide⟩ 0, .find true 8 none, .find true 7 (some 4096)] s ∧
    CompletesOnce sampleRequests
      [.add true ⟨4096, by decide⟩ 0, .find true 8 none, .find true 7 (some 4096)] s := by
  have start : (queueSystem sampleRequests).Run [] ⟨.fresh, sampleRequests⟩ := .init rfl
  have add : (queueSystem sampleRequests).Run [.add true ⟨4096, by decide⟩ 0] _ :=
    start.step (QueueStep.add rfl)
  have miss : (queueSystem sampleRequests).Run
      [.add true ⟨4096, by decide⟩ 0, .find true 8 none] _ := add.step (QueueStep.find rfl)
  have hit : (queueSystem sampleRequests).Run
      [.add true ⟨4096, by decide⟩ 0, .find true 8 none, .find true 7 (some 4096)] _ :=
    miss.step (QueueStep.find rfl)
  exact ⟨_, hit, completesOnce hit (by decide)⟩

end Netdev.Kernel
