-- SUMMARY: The queue of pending requests of an open file: `fo_acc_foreq_add`, `fo_acc_foreq_find` and `fo_acc_free_queue`.
import Netdev.Base.Fifo
import Netdev.Kernel.FoComm

/-!
# Queues of pending requests

Every open file of a dummy device has a fifo with the pointers of the requests that
wait for a reply. The functions of `kernel/fo_access.c` work on it under `acc->sem`.
-/

namespace Netdev.Kernel
open Base

/-- A pointer as it lies in the fifo. -/
abbrev Addr := UInt64

/-- `IS_ERR`: the last page holds no objects. -/
def isErr (p : Addr) : Bool := UInt64.ofNat (2 ^ 64 - 4095) ≤ p

/-- The request at an address, and how often its completion was signalled. -/
structure Pending where
  req : FoReq
  comp : Nat

abbrev Requests := Addr → Pending

/-- `req->rvalue = rvalue; complete(&req->comp)`. -/
def Requests.complete (reqs : Requests) (p : Addr) (rvalue : Int32) : Requests :=
  Function.update reqs p
    { req := { (reqs p).req with rvalue }, comp := (reqs p).comp + 1 }

/-- Complete several requests in order. -/
def Requests.completeAll (reqs : Requests) (ps : List Addr) (rvalue : Int32) : Requests :=
  ps.foldl (fun reqs p => reqs.complete p rvalue) reqs

namespace Requests
variable (reqs : Requests) (rvalue : Int32)

theorem complete_comp (p q : Addr) :
    (reqs.complete p rvalue q).comp = (reqs q).comp + if p = q then 1 else 0 := by
  by_cases h : q = p
  · subst h
    simp [complete]
  · simp [complete, Function.update_of_ne h, Ne.symm h]

theorem completeAll_comp (ps : List Addr) (q : Addr) :
    (reqs.completeAll ps rvalue q).comp = (reqs q).comp + ps.count q := by
  induction ps generalizing reqs with
  | nil => rfl
  | cons p ps ih =>
      have hhead := reqs.complete_comp rvalue p q
      have hrest := ih (reqs.complete p rvalue)
      rw [completeAll, List.foldl_cons, ← completeAll, hrest, hhead, List.count_cons]
      simp only [beq_iff_eq]
      omega

theorem completeAll_of_not_mem {ps : List Addr} {q : Addr} (h : q ∉ ps) :
    reqs.completeAll ps rvalue q = reqs q := by
  induction ps generalizing reqs with
  | nil => rfl
  | cons p ps ih =>
      have hne : q ≠ p := fun hq => h (hq ▸ List.mem_cons_self)
      have hrest := ih (reqs.complete p rvalue) fun hq => h (List.mem_cons_of_mem p hq)
      rw [completeAll, List.foldl_cons, ← completeAll, hrest]
      exact Function.update_of_ne hne _ _

theorem completeAll_rvalue {ps : List Addr} {q : Addr} (h : q ∈ ps) :
    (reqs.completeAll ps rvalue q).req.rvalue = rvalue := by
  induction ps generalizing reqs with
  | nil => exact absurd h List.not_mem_nil
  | cons p ps ih =>
      by_cases hrest : q ∈ ps
      · exact ih (reqs.complete p rvalue) hrest
      · obtain rfl : q = p := (List.mem_cons.mp h).resolve_right hrest
        have hlast := (reqs.complete q rvalue).completeAll_of_not_mem rvalue hrest
        rw [completeAll, List.foldl_cons, ← completeAll, hlast]
        simp [complete]

end Requests

/-- `fo_queue` and `sem` of `struct fo_access`. `held` is a semaphore that nobody
will release: a call returned without `up_write`. -/
structure FoAccess where
  foQueue : Fifo NETDEV_FO_QUEUE_SIZE
  held : Bool

/-- As `fo_acc_start` leaves them. -/
def FoAccess.fresh : FoAccess := ⟨.empty, false⟩

/-! ## The functions -/

/-- `fo_acc_foreq_add`; `trylock` is false when another thread holds the semaphore.
It does not look at what `kfifo_in` returns. -/
def foAccForeqAdd (trylock : Bool) (acc : FoAccess) (req : Addr) : Int32 × FoAccess :=
  if trylock && !acc.held then
    (0, { acc with foQueue := (acc.foQueue.put (toBytes req)).2 })
  else
    (1, acc)

/-- The loop of `fo_acc_foreq_find`: `first` is the stopper, `tmp` what is returned
when the queue is empty. `none` without fuel. -/
def foAccForeqFindLoop (reqs : Requests) (seq : Int32) :
    Nat → Option Addr → Option Addr → Fifo NETDEV_FO_QUEUE_SIZE →
      Option (Option Addr × Fifo NETDEV_FO_QUEUE_SIZE)
  | 0, _, _, _ => none
  | fuel + 1, first, tmp, queue =>
      if queue.isEmpty then
        some (tmp, queue)
      else
        let (out, queue) := queue.get (sizeof Addr)
        let req : Addr := ofBytes out
        if out.length < sizeof Addr ∨ isErr req then
          some (none, queue)
        else if (reqs req).req.seq = seq.toInt64 then
          some (some req, queue)
        else
          -- the wrong element goes back to the end
          let (_, queue) := queue.put (toBytes req)
          if first.getD req = req then
            some (none, queue)
          else
            foAccForeqFindLoop reqs seq fuel (some (first.getD req)) (some req) queue

/-- `fo_acc_foreq_find`. One turn for each byte is more than the loop takes. -/
def foAccForeqFind (trylock : Bool) (reqs : Requests) (acc : FoAccess) (seq : Int32) :
    Option (Option Addr × FoAccess) :=
  if trylock && !acc.held then do
    let (tmp, foQueue) ←
      foAccForeqFindLoop reqs seq (acc.foQueue.bytes.length + 1) none none acc.foQueue
    return (tmp, { acc with foQueue })
  else
    some (none, acc)

/-- The loop of `fo_acc_free_queue`. -/
def foAccFreeQueueLoop : Nat → Fifo NETDEV_FO_QUEUE_SIZE → Requests →
    Option (Int32 × Fifo NETDEV_FO_QUEUE_SIZE × Requests)
  | 0, _, _ => none
  | fuel + 1, queue, reqs =>
      if queue.isEmpty then
        some (0, queue, reqs)
      else
        let (out, queue) := queue.get (sizeof Addr)
        let req : Addr := ofBytes out
        if out.length ≠ sizeof Addr ∨ isErr req then
          some (1, queue, reqs)
        else
          foAccFreeQueueLoop fuel queue (reqs.complete req (-ENODATA))

/-- `fo_acc_free_queue`: `none` when it waits for ever. The failure return keeps the
semaphore. -/
def foAccFreeQueue (acc : FoAccess) (reqs : Requests) : Option (Int32 × FoAccess × Requests) :=
  if acc.held then
    none
  else do
    let (rvalue, foQueue, reqs) ←
      foAccFreeQueueLoop (acc.foQueue.bytes.length + 1) acc.foQueue reqs
    return (rvalue, { foQueue, held := rvalue ≠ 0 }, reqs)

/-! ## What they do to the requests in the queue -/

/-- Pointers that the queue has room for. -/
def FoAccess.capacity : Nat := NETDEV_FO_QUEUE_SIZE / sizeof Addr

/-- The requests that wait in the queue. -/
def FoAccess.pending (acc : FoAccess) : List Addr := acc.foQueue.records Addr

/-- The queue holds these requests, whole, and the semaphore can be taken. -/
structure FoAccess.Queued (acc : FoAccess) (reqs : List Addr) : Prop where
  holds : acc.foQueue.Holds reqs
  valid : ∀ p ∈ reqs, isErr p = false
  free : acc.held = false

/-- A search takes out the first request if it is the one, and otherwise loses none. -/
def Searched (reqs : Requests) (seq : Int32) (ps : List Addr) : Option Addr → List Addr → Prop
  | some p, ps' => ps = p :: ps' ∧ (reqs p).req.seq = seq.toInt64
  | none, ps' => ps'.Perm ps

namespace FoAccess.Queued
variable {acc : FoAccess} {ps : List Addr}

theorem pending (h : acc.Queued ps) : acc.pending = ps := h.holds.records (by decide)

theorem fresh : FoAccess.fresh.Queued [] := ⟨rfl, fun _ h => (List.not_mem_nil h).elim, rfl⟩

/-- The request is queued when the lock is free and there is room; the result is that of
the lock. -/
theorem foAccForeqAdd_eq (h : acc.Queued ps) {req : Addr} (hreq : isErr req = false) (trylock : Bool) :
    (Kernel.foAccForeqAdd trylock acc req).1 = (if trylock then 0 else 1) ∧
      (Kernel.foAccForeqAdd trylock acc req).2.Queued
        (if trylock = true ∧ ps.length < capacity then ps ++ [req] else ps) := by
  unfold Kernel.foAccForeqAdd
  rw [h.free]
  cases trylock with
  | false => exact ⟨rfl, h⟩
  | true =>
      refine ⟨rfl, ?_⟩
      have hlock : (true && !false) = true := rfl
      rw [if_pos hlock]
      by_cases hroom : ps.length < capacity
      · rw [if_pos ⟨rfl, hroom⟩]
        refine ⟨h.holds.put_room (Nat.mul_le_mul_right (sizeof Addr) hroom), fun p hp => ?_, rfl⟩
        rcases List.mem_append.mp hp with hp | hp
        · exact h.valid p hp
        · rw [List.mem_singleton.mp hp, hreq]
      · rw [if_neg fun hadd => hroom hadd.2]
        have hfull := Nat.mul_le_mul_right (sizeof Addr) (Nat.le_of_not_lt hroom)
        exact ⟨h.holds.put_full hfull, h.valid, rfl⟩

theorem foAccForeqAdd (h : acc.Queued ps) {req : Addr} (hreq : isErr req = false)
    (trylock : Bool) :
    (foAccForeqAdd trylock acc req).2.Queued (ps ++ [req]) ∨
      (foAccForeqAdd trylock acc req).2.Queued ps := by
  have hadd := (h.foAccForeqAdd_eq hreq trylock).2
  by_cases hroom : trylock = true ∧ ps.length < capacity
  · rw [if_pos hroom] at hadd
    exact .inl hadd
  · rw [if_neg hroom] at hadd
    exact .inr hadd

/-- An empty queue has nothing to be found. -/
theorem foAccForeqFindLoop_nil {queue : Fifo NETDEV_FO_QUEUE_SIZE} (h : queue.Holds ([] : List Addr))
    (reqs : Requests) (seq : Int32) (fuel : Nat) :
    Kernel.foAccForeqFindLoop reqs seq (fuel + 1) none none queue = some (none, queue) := by
  have hempty : queue.isEmpty = true := (h.isEmpty_iff (by decide)).mpr rfl
  rw [Kernel.foAccForeqFindLoop, if_pos hempty]

/-- The search ends with the first element: it is the one, or it goes to the end. -/
theorem foAccForeqFindLoop_cons {queue : Fifo NETDEV_FO_QUEUE_SIZE} {p : Addr} (h : queue.Holds (p :: ps))
    (hvalid : isErr p = false) (reqs : Requests) (seq : Int32) (fuel : Nat) :
    ∃ queue', Kernel.foAccForeqFindLoop reqs seq (fuel + 1) none none queue
        = some (if (reqs p).req.seq = seq.toInt64 then some p else none, queue') ∧
      queue'.Holds (if (reqs p).req.seq = seq.toInt64 then ps else ps ++ [p]) := by
  have hnonempty : ¬ queue.isEmpty = true := fun hempty =>
    List.cons_ne_nil _ _ ((h.isEmpty_iff (by decide)).mp hempty)
  have hout : (queue.get (sizeof Addr)).1 = toBytes p := h.get.1
  have hgood : ¬ ((toBytes p).length < sizeof Addr ∨ isErr p = true) := by
    rw [Layout.length_toBytes, hvalid]
    simp
  unfold Kernel.foAccForeqFindLoop
  simp only [if_neg hnonempty, hout, Layout.ofBytes_toBytes, if_neg hgood, Option.getD_none, if_true]
  by_cases hseq : (reqs p).req.seq = seq.toInt64
  · simp only [if_pos hseq]
    exact ⟨_, rfl, h.get.2⟩
  · simp only [if_neg hseq]
    exact ⟨_, rfl, h.put_get⟩

theorem foAccForeqFind_nil (h : acc.Queued []) (reqs : Requests) (seq : Int32) :
    ∃ acc', Kernel.foAccForeqFind true reqs acc seq = some (none, acc') ∧ acc'.Queued [] := by
  unfold Kernel.foAccForeqFind
  rw [h.free, foAccForeqFindLoop_nil h.holds]
  exact ⟨_, rfl, h.holds, h.valid, rfl⟩

/-- A search that gets the lock. -/
theorem foAccForeqFind_cons {p : Addr} (h : acc.Queued (p :: ps)) (reqs : Requests) (seq : Int32) :
    ∃ acc', Kernel.foAccForeqFind true reqs acc seq
        = some (if (reqs p).req.seq = seq.toInt64 then some p else none, acc') ∧
      acc'.Queued (if (reqs p).req.seq = seq.toInt64 then ps else ps ++ [p]) := by
  obtain ⟨queue, hloop, hholds⟩ := foAccForeqFindLoop_cons h.holds (h.valid p List.mem_cons_self) reqs seq
    acc.foQueue.bytes.length
  refine ⟨{ acc with foQueue := queue }, ?_, hholds, fun q hq => h.valid q ?_, h.free⟩
  · unfold Kernel.foAccForeqFind
    rw [h.free, hloop]
    rfl
  · by_cases hseq : (reqs p).req.seq = seq.toInt64
    · rw [if_pos hseq] at hq
      exact List.mem_cons_of_mem p hq
    · rw [if_neg hseq] at hq
      exact (List.perm_append_singleton p ps).mem_iff.mp hq

theorem foAccForeqFind (h : acc.Queued ps) (trylock : Bool) (reqs : Requests) (seq : Int32) :
    ∃ tmp acc' ps', foAccForeqFind trylock reqs acc seq = some (tmp, acc') ∧ acc'.Queued ps' ∧
      Searched reqs seq ps tmp ps' := by
  cases trylock with
  | false => exact ⟨none, acc, ps, rfl, h, .refl _⟩
  | true =>
      cases ps with
      | nil =>
          obtain ⟨acc', hfind, hqueued⟩ := h.foAccForeqFind_nil reqs seq
          exact ⟨none, acc', [], hfind, hqueued, .refl _⟩
      | cons p ps =>
          obtain ⟨acc', hfind, hqueued⟩ := h.foAccForeqFind_cons reqs seq
          by_cases hseq : (reqs p).req.seq = seq.toInt64
          · rw [if_pos hseq] at hfind hqueued
            exact ⟨some p, acc', ps, hfind, hqueued, rfl, hseq⟩
          · rw [if_neg hseq] at hfind hqueued
            exact ⟨none, acc', ps ++ [p], hfind, hqueued, List.perm_append_singleton p ps⟩

/-- Every request in the queue is completed, in order, and the queue is empty. -/
theorem foAccFreeQueueLoop {queue : Fifo NETDEV_FO_QUEUE_SIZE} (h : queue.Holds ps)
    (hvalid : ∀ p ∈ ps, isErr p = false) {fuel : Nat} (hfuel : ps.length < fuel)
    (reqs : Requests) :
    ∃ queue', foAccFreeQueueLoop fuel queue reqs
        = some (0, queue', reqs.completeAll ps (-ENODATA)) ∧
      queue'.Holds ([] : List Addr) := by
  induction ps generalizing fuel queue reqs with
  | nil =>
      obtain ⟨fuel, rfl⟩ := Nat.exists_eq_add_of_lt hfuel
      have hempty : queue.isEmpty = true := (h.isEmpty_iff (by decide)).mpr rfl
      refine ⟨queue, ?_, h⟩
      rw [Kernel.foAccFreeQueueLoop, if_pos hempty]
      rfl
  | cons p ps ih =>
      obtain ⟨fuel, rfl⟩ : ∃ n, fuel = n + 1 := ⟨fuel - 1, by omega⟩
      have hnonempty : ¬ queue.isEmpty = true := fun hempty =>
        List.cons_ne_nil _ _ ((h.isEmpty_iff (by decide)).mp hempty)
      have hout : (queue.get (sizeof Addr)).1 = toBytes p := h.get.1
      have hgood : ¬ ((toBytes p).length ≠ sizeof Addr ∨ isErr p = true) := by
        rw [Layout.length_toBytes, hvalid p List.mem_cons_self]
        simp
      obtain ⟨queue', hloop, hholds⟩ := ih h.get.2 (fun q hq => hvalid q (List.mem_cons_of_mem p hq))
        (Nat.lt_of_succ_lt_succ hfuel) (reqs.complete p (-ENODATA))
      refine ⟨queue', ?_, hholds⟩
      unfold Kernel.foAccFreeQueueLoop
      simp only [if_neg hnonempty, hout, Layout.ofBytes_toBytes, if_neg hgood]
      exact hloop

theorem foAccFreeQueue (h : acc.Queued ps) (reqs : Requests) :
    ∃ acc', foAccFreeQueue acc reqs
        = some (0, acc', reqs.completeAll ps (-ENODATA)) ∧
      acc'.Queued [] := by
  have hlen : ps.length ≤ acc.foQueue.bytes.length := by
    rw [show acc.foQueue.bytes = ps.flatMap toBytes from h.holds, Fifo.length_flatMap_toBytes]
    exact Nat.le_mul_of_pos_right _ (by decide)
  obtain ⟨queue', hloop, hholds⟩ :=
    foAccFreeQueueLoop h.holds h.valid (Nat.lt_succ_of_le hlen) reqs
  refine ⟨⟨queue', false⟩, ?_, hholds, fun _ hp => (List.not_mem_nil hp).elim, rfl⟩
  rw [Kernel.foAccFreeQueue, h.free, hloop]
  rfl

end FoAccess.Queued

end Netdev.Kernel
