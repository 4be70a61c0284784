-- SUMMARY: The queue of pending requests in the kernel's byte ring: whole pointers, first in first out.
import Netdev.Base.Kfifo
import Netdev.Base.System
import Netdev.Kernel.FoAccess

/-!
# The queue in its ring

`fo_queue` is a `kfifo` of bytes into which pointers are put. The functions of `kernel/fo_access.c`
are written here on the ring itself, with the variables that its copies go to, and keep a history of
what every call on it has given. The history of every run is one of a list of whole pointers.
-/

namespace Netdev.Kernel
open Base

/-! ## Lists of pointers -/

/-- `sizeof(req)`. -/
def pointerSize : UInt32 := UInt32.ofNat (sizeof Addr)

/-- A call on the ring, with the pointer and the number of bytes; or the message of a fetch that
has failed. -/
inductive FifoEvent where
  | add (req : Addr) (stored : UInt32)
  | putBack (req : Addr) (stored : UInt32)
  | out (size : UInt32) (req : Addr)
  | failed
  deriving DecidableEq

/-- A list of at most `capacity` pointers: one goes in whole behind the others, or not at all when
there is no room, and the oldest comes out. What is put back always has room. -/
inductive PointerStep : List Addr → FifoEvent → List Addr → Prop where
  | add {ps : List Addr} {p : Addr} :
      ps.length < FoAccess.capacity → PointerStep ps (.add p pointerSize) (ps ++ [p])
  | full {ps : List Addr} {p : Addr} : ps.length = FoAccess.capacity → PointerStep ps (.add p 0) ps
  | putBack {ps : List Addr} {p : Addr} :
      ps.length < FoAccess.capacity → PointerStep ps (.putBack p pointerSize) (ps ++ [p])
  | out {ps : List Addr} {p : Addr} : PointerStep (p :: ps) (.out pointerSize p) ps

def pointerQueue : System (List Addr) FifoEvent where
  init ps := ps = []
  step := PointerStep

theorem pointerQueue_length_le : pointerQueue.Invariant fun ps => ps.length ≤ FoAccess.capacity where
  init ps hps := by
    obtain rfl : ps = [] := hps
    exact Nat.zero_le _
  step ps event ps' hle hstep := by
    cases hstep with
    | add hroom => simpa using Nat.succ_le_of_lt hroom
    | full => exact hle
    | putBack hroom => simpa using Nat.succ_le_of_lt hroom
    | out => exact Nat.le_of_succ_le hle

/-! ## The functions on the ring -/

/-- `fo_queue` and `sem` of `struct fo_access`, and the history. -/
structure RingAccess where
  foQueue : Kfifo
  held : Bool
  log : List FifoEvent
  deriving DecidableEq

namespace RingAccess

/-- As `fo_acc_start` leaves them, with memory that may have anything in it. -/
def start (data : Bytes) : RingAccess := ⟨.alloc data, false, []⟩

/-- `kfifo_in(&acc->fo_queue, &req, sizeof(req))`. -/
def kfifoIn (acc : RingAccess) (event : UInt32 → FifoEvent) (req : Addr) : Option RingAccess := do
  let (stored, foQueue) ← (acc.foQueue.put (toBytes req) pointerSize).toOption
  return { acc with foQueue, log := acc.log ++ [event stored] }

/-- `kfifo_out(&acc->fo_queue, &req, sizeof(req))`: what it does not write stays in `req`. -/
def kfifoOut (acc : RingAccess) (req : Addr) : Option (UInt32 × Addr × RingAccess) := do
  let (size, out, foQueue) ← (acc.foQueue.get (toBytes req) pointerSize).toOption
  return (size, ofBytes out, { acc with foQueue, log := acc.log ++ [.out size (ofBytes out)] })

/-- The message of a failed fetch. -/
def printFailed (acc : RingAccess) : RingAccess := { acc with log := acc.log ++ [.failed] }

def foAccForeqAdd (trylock : Bool) (acc : RingAccess) (req : Addr) : Option (Int32 × RingAccess) :=
  if trylock && !acc.held then do
    let acc ← acc.kfifoIn (.add req) req
    return (0, acc)
  else
    some (1, acc)

/-- The loop of `fo_acc_foreq_find`, with 0 for NULL. `none` without fuel. -/
def foAccForeqFindLoop (reqs : Requests) (seq : Int32) :
    Nat → (req tmp : Addr) → RingAccess → Option (Addr × RingAccess)
  | 0, _, _, _ => none
  | fuel + 1, req, tmp, acc =>
      if acc.foQueue.isEmpty then
        some (tmp, acc)
      else do
        let (size, tmp, acc) ← acc.kfifoOut tmp
        if size < pointerSize ∨ isErr tmp then
          return (0, acc.printFailed)
        else
          let req := if req = 0 then tmp else req
          if (reqs tmp).req.seq = seq.toInt64 then
            return (tmp, acc)
          else do
            -- the wrong element goes back to the end; the first one is the stopper
            let acc ← acc.kfifoIn (.putBack tmp) tmp
            if req = tmp then
              return (0, acc)
            else
              foAccForeqFindLoop reqs seq fuel req tmp acc

/-- One turn for each byte is more than the loop takes. -/
def foAccForeqFind (trylock : Bool) (reqs : Requests) (acc : RingAccess) (seq : Int32) :
    Option (Addr × RingAccess) :=
  if trylock && !acc.held then
    foAccForeqFindLoop reqs seq (acc.foQueue.len.toNat + 1) 0 0 acc
  else
    some (0, acc)

/-- The loop of `fo_acc_free_queue`. -/
def foAccFreeQueueLoop : Nat → (req : Addr) → RingAccess → Requests → Option (Int32 × RingAccess × Requests)
  | 0, _, _, _ => none
  | fuel + 1, req, acc, reqs =>
      if acc.foQueue.isEmpty then
        some (0, acc, reqs)
      else do
        let (size, req, acc) ← acc.kfifoOut req
        if size ≠ pointerSize ∨ isErr req then
          return (1, acc.printFailed, reqs)
        else
          foAccFreeQueueLoop fuel req acc (reqs.complete req (-ENODATA))

/-- `none` when it waits for ever. -/
def foAccFreeQueue (acc : RingAccess) (reqs : Requests) : Option (Int32 × RingAccess × Requests) :=
  if acc.held then
    none
  else do
    let (rvalue, acc, reqs) ← foAccFreeQueueLoop (acc.foQueue.len.toNat + 1) 0 acc reqs
    return (rvalue, { acc with held := rvalue ≠ 0 }, reqs)

end RingAccess

/-! ## Runs -/

/-- What `kmem_cache_alloc` returns when it succeeds. -/
structure PoolPtr where
  addr : Addr
  nonnull : addr ≠ 0
  valid : isErr addr = false

/-- A call of one of the functions with what it returns. The requests are as they are at that time,
and `trylock` is what another thread makes it. -/
inductive AccCall where
  | foreqAdd (trylock : Bool) (req : PoolPtr) (rvalue : Int32)
  | foreqFind (trylock : Bool) (reqs : Requests) (seq : Int32) (found : Addr)
  | freeQueue (reqs : Requests) (rvalue : Int32) (reqs' : Requests)

/-- The calls on a queue that `fo_acc_start` has allocated. -/
def rings : System RingAccess AccCall where
  init acc := ∃ data : Bytes, data.length = NETDEV_FO_QUEUE_SIZE ∧ acc = .start data
  step acc call acc' :=
    match call with
    | .foreqAdd trylock req rvalue => acc.foAccForeqAdd trylock req.addr = some (rvalue, acc')
    | .foreqFind trylock reqs seq found => acc.foAccForeqFind trylock reqs seq = some (found, acc')
    | .freeQueue reqs rvalue reqs' => acc.foAccFreeQueue reqs = some (rvalue, acc', reqs')

/-- The same calls on the fifo of bytes. -/
def fifos : System FoAccess AccCall where
  init acc := acc = .fresh
  step acc call acc' :=
    match call with
    | .foreqAdd trylock req rvalue => foAccForeqAdd trylock acc req.addr = (rvalue, acc')
    | .foreqFind trylock reqs seq found =>
        ∃ tmp, foAccForeqFind trylock reqs acc seq = some (tmp, acc') ∧ found = tmp.getD 0
    | .freeQueue reqs rvalue reqs' => foAccFreeQueue acc reqs = some (rvalue, acc', reqs')

/-! ## What holds in every run -/

namespace RingAccess

/-- The history is one of a list of pointers, and the ring holds this list. -/
structure Queued (acc : RingAccess) (ps : List Addr) : Prop where
  run : pointerQueue.Run acc.log ps
  holds : acc.foQueue.Holds 6 ps
  pool : ∀ p ∈ ps, p ≠ 0 ∧ isErr p = false
  free : acc.held = false

namespace Queued
variable {acc : RingAccess} {ps : List Addr} {p : Addr}

theorem start {data : Bytes} (hdata : data.length = NETDEV_FO_QUEUE_SIZE) : (start data).Queued [] :=
  ⟨.init rfl, ⟨_, Kfifo.alloc_refines (by decide) hdata, rfl⟩, fun _ h => absurd h List.not_mem_nil, rfl⟩

theorem isEmpty_iff (h : acc.Queued ps) : acc.foQueue.isEmpty ↔ ps = [] := h.holds.isEmpty_iff (by decide)

theorem kfifoIn_room (h : acc.Queued ps) (hreq : p ≠ 0 ∧ isErr p = false) (hroom : ps.length < FoAccess.capacity)
    {event : UInt32 → FifoEvent} (hevent : PointerStep ps (event pointerSize) (ps ++ [p])) :
    ∃ acc', acc.kfifoIn event p = some acc' ∧ acc'.Queued (ps ++ [p]) := by
  obtain ⟨f, hput, hholds⟩ := h.holds.put_room p (Nat.mul_le_mul_right (sizeof Addr) hroom)
  refine ⟨{ acc with foQueue := f, log := acc.log ++ [event pointerSize] }, ?_, .step h.run hevent, hholds,
    fun q hq => ?_, h.free⟩
  · unfold RingAccess.kfifoIn pointerSize
    rw [hput]
    rfl
  · rcases List.mem_append.mp hq with hq | hq
    · exact h.pool q hq
    · rw [List.mem_singleton.mp hq]
      exact hreq

theorem kfifoIn_full (h : acc.Queued ps) (p : Addr) (hfull : FoAccess.capacity ≤ ps.length)
    {event : UInt32 → FifoEvent} (hevent : PointerStep ps (event 0) ps) :
    ∃ acc', acc.kfifoIn event p = some acc' ∧ acc'.Queued ps := by
  obtain ⟨f, hput, hholds⟩ := h.holds.put_full p (Nat.mul_le_mul_right (sizeof Addr) hfull)
  refine ⟨{ acc with foQueue := f, log := acc.log ++ [event 0] }, ?_, .step h.run hevent, hholds, h.pool, h.free⟩
  unfold RingAccess.kfifoIn pointerSize
  rw [hput]
  rfl

theorem kfifoOut (h : acc.Queued (p :: ps)) (tmp : Addr) :
    ∃ acc', acc.kfifoOut tmp = some (pointerSize, p, acc') ∧ acc'.Queued ps := by
  obtain ⟨f, hget, hholds⟩ := h.holds.get (Layout.length_toBytes tmp)
  refine ⟨{ acc with foQueue := f, log := acc.log ++ [.out pointerSize p] }, ?_, .step h.run .out, hholds,
    fun q hq => h.pool q (List.mem_cons_of_mem p hq), h.free⟩
  unfold RingAccess.kfifoOut pointerSize
  rw [hget]
  simp only [Except.toOption, Option.bind_eq_bind, Option.bind_some, Layout.ofBytes_toBytes]
  rfl

theorem length_le (h : acc.Queued ps) : ps.length ≤ FoAccess.capacity := h.run.invariant pointerQueue_length_le

theorem foAccForeqAdd (h : acc.Queued ps) (trylock : Bool) (req : PoolPtr) :
    ∃ acc', acc.foAccForeqAdd trylock req.addr = some (if trylock then 0 else 1, acc') ∧
      acc'.Queued (if trylock = true ∧ ps.length < FoAccess.capacity then ps ++ [req.addr] else ps) := by
  unfold RingAccess.foAccForeqAdd
  rw [h.free]
  cases trylock with
  | false => exact ⟨acc, rfl, h⟩
  | true =>
      rcases Nat.lt_or_ge ps.length FoAccess.capacity with hroom | hfull
      · obtain ⟨acc', hin, hqueued⟩ := h.kfifoIn_room ⟨req.nonnull, req.valid⟩ hroom (.add hroom)
        exact ⟨acc', by simp [hin], by simpa [hroom] using hqueued⟩
      · have hstep := @PointerStep.full ps req.addr (Nat.le_antisymm h.length_le hfull)
        obtain ⟨acc', hin, hqueued⟩ := h.kfifoIn_full req.addr hfull hstep
        exact ⟨acc', by simp [hin], by simpa [Nat.not_lt.mpr hfull] using hqueued⟩

theorem foAccForeqFind_nil (h : acc.Queued []) (reqs : Requests) (seq : Int32) :
    acc.foAccForeqFind true reqs seq = some (0, acc) := by
  have hempty : acc.foQueue.isEmpty = true := h.isEmpty_iff.mpr rfl
  unfold RingAccess.foAccForeqFind foAccForeqFindLoop
  simp [h.free, hempty]

/-- The first turn is the last: the pointer is the one, or it is put back and is the stopper. -/
theorem foAccForeqFind_cons (h : acc.Queued (p :: ps)) (reqs : Requests) (seq : Int32) :
    ∃ acc', acc.foAccForeqFind true reqs seq = some (if (reqs p).req.seq = seq.toInt64 then p else 0, acc') ∧
      acc'.Queued (if (reqs p).req.seq = seq.toInt64 then ps else ps ++ [p]) := by
  have hnonempty : ¬ acc.foQueue.isEmpty = true := fun hempty => List.cons_ne_nil _ _ (h.isEmpty_iff.mp hempty)
  have hpool := h.pool p List.mem_cons_self
  obtain ⟨acc₁, hout, h₁⟩ := h.kfifoOut 0
  unfold RingAccess.foAccForeqFind foAccForeqFindLoop
  by_cases hseq : (reqs p).req.seq = seq.toInt64
  · exact ⟨acc₁, by simp [h.free, hnonempty, hout, hpool.2, hseq], by simpa [hseq] using h₁⟩
  · have hroom : ps.length < FoAccess.capacity := h.length_le
    obtain ⟨acc₂, hin, h₂⟩ := h₁.kfifoIn_room hpool hroom (.putBack hroom)
    exact ⟨acc₂, by simp [h.free, hnonempty, hout, hpool.2, hseq, hin], by simpa [hseq] using h₂⟩

theorem foAccFreeQueueLoop (h : acc.Queued ps) {fuel : Nat} (hfuel : ps.length < fuel) (req : Addr)
    (reqs : Requests) : ∃ acc',
      foAccFreeQueueLoop fuel req acc reqs = some (0, acc', reqs.completeAll ps (-ENODATA)) ∧ acc'.Queued [] := by
  induction ps generalizing fuel acc req reqs with
  | nil =>
      obtain ⟨fuel, rfl⟩ := Nat.exists_eq_add_of_lt hfuel
      have hempty : acc.foQueue.isEmpty = true := h.isEmpty_iff.mpr rfl
      refine ⟨acc, ?_, h⟩
      rw [RingAccess.foAccFreeQueueLoop, if_pos hempty]
      rfl
  | cons p ps ih =>
      obtain ⟨fuel, rfl⟩ : ∃ n, fuel = n + 1 := ⟨fuel - 1, by omega⟩
      have hnonempty : ¬ acc.foQueue.isEmpty = true := fun hempty => List.cons_ne_nil _ _ (h.isEmpty_iff.mp hempty)
      have hgood : ¬ (pointerSize ≠ pointerSize ∨ isErr p = true) := by
        rw [(h.pool p List.mem_cons_self).2]
        decide
      obtain ⟨acc₁, hout, h₁⟩ := h.kfifoOut req
      obtain ⟨acc', hloop, hqueued⟩ := ih h₁ (Nat.lt_of_succ_lt_succ hfuel) p (reqs.complete p (-ENODATA))
      refine ⟨acc', ?_, hqueued⟩
      rw [RingAccess.foAccFreeQueueLoop, if_neg hnonempty, hout]
      simp only [Option.bind_eq_bind, Option.bind_some, if_neg hgood]
      exact hloop

theorem foAccFreeQueue (h : acc.Queued ps) (reqs : Requests) :
    ∃ acc', acc.foAccFreeQueue reqs = some (0, acc', reqs.completeAll ps (-ENODATA)) ∧ acc'.Queued [] := by
  have hfuel : ps.length < acc.foQueue.len.toNat + 1 := by
    rw [h.holds.len_toNat]
    exact Nat.lt_succ_of_le (Nat.le_mul_of_pos_right _ (by decide))
  obtain ⟨acc', hloop, hqueued⟩ := h.foAccFreeQueueLoop hfuel 0 reqs
  refine ⟨{ acc' with held := false }, ?_, hqueued.run, hqueued.holds, hqueued.pool, rfl⟩
  unfold RingAccess.foAccFreeQueue
  simp [h.free, hloop]

theorem foAccForeqFind (h : acc.Queued ps) (trylock : Bool) (reqs : Requests) (seq : Int32) :
    ∃ found acc', acc.foAccForeqFind trylock reqs seq = some (found, acc') := by
  cases trylock with
  | false => exact ⟨0, acc, rfl⟩
  | true =>
      cases ps with
      | nil => exact ⟨0, acc, h.foAccForeqFind_nil reqs seq⟩
      | cons p ps =>
          obtain ⟨acc', hfind, -⟩ := h.foAccForeqFind_cons reqs seq
          exact ⟨_, acc', hfind⟩

end Queued

/-- Every call from here on returns. -/
structure Returns (acc : RingAccess) : Prop where
  foreqAdd : ∀ trylock (req : PoolPtr), ∃ rvalue acc', acc.foAccForeqAdd trylock req.addr = some (rvalue, acc')
  foreqFind : ∀ trylock reqs seq, ∃ found acc', acc.foAccForeqFind trylock reqs seq = some (found, acc')
  freeQueue : ∀ reqs, ∃ rvalue acc' reqs', acc.foAccFreeQueue reqs = some (rvalue, acc', reqs')

theorem Queued.returns {acc : RingAccess} {ps : List Addr} (h : acc.Queued ps) : acc.Returns where
  foreqAdd trylock req := by
    obtain ⟨acc', hadd, -⟩ := h.foAccForeqAdd trylock req
    exact ⟨_, acc', hadd⟩
  foreqFind := h.foAccForeqFind
  freeQueue reqs := by
    obtain ⟨acc', hfree, -⟩ := h.foAccFreeQueue reqs
    exact ⟨_, acc', _, hfree⟩

end RingAccess

/-- The ring and the fifo of bytes hold the same pointers. -/
def SameQueue (acc : RingAccess) (fifo : FoAccess) : Prop := ∃ ps, acc.Queued ps ∧ fifo.Queued ps

theorem SameQueue.step {acc acc' : RingAccess} {fifo : FoAccess} {call : AccCall} (h : SameQueue acc fifo)
    (hstep : rings.step acc call acc') : ∃ fifo', fifos.step fifo call fifo' ∧ SameQueue acc' fifo' := by
  obtain ⟨ps, hring, hfifo⟩ := h
  cases call with
  | foreqAdd trylock req rvalue =>
      obtain ⟨acc₁, hadd, hqueued⟩ := hring.foAccForeqAdd trylock req
      obtain ⟨rfl, rfl⟩ := Prod.mk.inj (Option.some.inj (hadd.symm.trans hstep))
      have hfifo' := hfifo.foAccForeqAdd_eq req.valid trylock
      exact ⟨_, Prod.ext hfifo'.1 rfl, _, hqueued, hfifo'.2⟩
  | foreqFind trylock reqs seq found =>
      cases trylock with
      | false =>
          obtain ⟨rfl, rfl⟩ := Prod.mk.inj (Option.some.inj hstep)
          exact ⟨fifo, ⟨none, rfl, rfl⟩, ps, hring, hfifo⟩
      | true =>
          cases ps with
          | nil =>
              have hfind := hring.foAccForeqFind_nil reqs seq
              obtain ⟨rfl, rfl⟩ := Prod.mk.inj (Option.some.inj (hfind.symm.trans hstep))
              obtain ⟨fifo', hfind', hfifo'⟩ := hfifo.foAccForeqFind_nil reqs seq
              exact ⟨fifo', ⟨none, hfind', rfl⟩, [], hring, hfifo'⟩
          | cons p ps =>
              obtain ⟨acc₁, hfind, hqueued⟩ := hring.foAccForeqFind_cons reqs seq
              obtain ⟨rfl, rfl⟩ := Prod.mk.inj (Option.some.inj (hfind.symm.trans hstep))
              obtain ⟨fifo', hfind', hfifo'⟩ := hfifo.foAccForeqFind_cons reqs seq
              refine ⟨fifo', ⟨_, hfind', ?_⟩, _, hqueued, hfifo'⟩
              split
              · rfl
              · rfl
  | freeQueue reqs rvalue reqs' =>
      obtain ⟨acc₁, hfree, hqueued⟩ := hring.foAccFreeQueue reqs
      obtain ⟨rfl, hpair⟩ := Prod.mk.inj (Option.some.inj (hfree.symm.trans hstep))
      obtain ⟨rfl, rfl⟩ := Prod.mk.inj hpair
      obtain ⟨fifo', hfree', hfifo'⟩ := hfifo.foAccFreeQueue reqs
      exact ⟨fifo', hfree', _, hqueued, hfifo'⟩

/-- Every run of the ring, with all that its calls return, is a run of the fifo of bytes. -/
theorem rings_fifos {calls : List AccCall} {acc : RingAccess} (h : rings.Run calls acc) :
    ∃ fifo, fifos.Run calls fifo ∧ SameQueue acc fifo := by
  refine h.simulated ?_ fun _ _ _ _ hsame hstep => hsame.step hstep
  rintro _ ⟨data, hdata, rfl⟩
  exact ⟨.fresh, rfl, [], .start hdata, .fresh⟩

/-- In every run, however often its counters wrap: the ring holds a list of at most 8 pointers, and
the history is one of this list. So a pointer is stored whole or not at all, what comes out is the
oldest one, what is put back is stored, and no fetch fails. -/
theorem ring_refines {calls : List AccCall} {acc : RingAccess} (h : rings.Run calls acc) :
    ∃ ps : List Addr, pointerQueue.Run acc.log ps ∧ ps.length ≤ 8 ∧ acc.foQueue.Holds 6 ps ∧ acc.Returns := by
  obtain ⟨_, -, ps, hqueued, -⟩ := rings_fifos h
  exact ⟨ps, hqueued.run, hqueued.length_le, hqueued.holds, hqueued.returns⟩

namespace Sample

/-- Memory that was used before. -/
def usedMemory : Bytes := List.replicate 64 170

theorem nonnull : (4096 : Addr) ≠ 0 := by decide

theorem valid : isErr 4096 = false := by decide

def poolPtr : PoolPtr := ⟨4096, nonnull, valid⟩

/-- Every request waits for the reply 7. -/
def awaitSeven : Requests := fun _ => ⟨⟨7, 0, 0, none, none, 0, 0, 0⟩, 0⟩

/-- The ring after its first pointer went in. -/
def added : RingAccess :=
  ⟨⟨toBytes (4096 : Addr) ++ List.replicate 56 170, 8, 0, 63⟩, false, [.add 4096 8]⟩

/-- The ring after it came out. -/
def found : RingAccess :=
  ⟨⟨toBytes (4096 : Addr) ++ List.replicate 56 170, 8, 8, 63⟩, false, [.add 4096 8, .out 8 4096]⟩

theorem found_run : rings.Run ([] ++ [.foreqAdd true poolPtr 0] ++ [.foreqFind true awaitSeven 7 4096]) found := by
  have hadd : (RingAccess.start usedMemory).foAccForeqAdd true poolPtr.addr = some (0, added) := by decide +kernel
  have hfind : added.foAccForeqFind true awaitSeven 7 = some (4096, found) := by decide +kernel
  exact .step (.step (.init ⟨usedMemory, rfl, rfl⟩) hadd) hfind

end Sample

/-- A request is added and found. -/
theorem ring_refines_found : ∃ ps : List Addr, pointerQueue.Run Sample.found.log ps ∧ ps.length ≤ 8 ∧
    Sample.found.foQueue.Holds 6 ps ∧ Sample.found.Returns :=
  ring_refines Sample.found_run

end Netdev.Kernel
