-- SUMMARY: What `fo_send` leaves behind on each of its return paths: the queue, the memory of the request, the references and the file.
import Netdev.Kernel.Receiving

/-!
# Cleaning up after a request

All paths of `fo_send` behind the allocation of the request meet at one label, which
drops the reference and frees the request. The request is in the queue by then, and only
a reply or `fo_acc_free_queue` takes it out again. A pointer that an earlier call has left
there may be the address that the pool hands out next.
-/

namespace Netdev.Kernel
open Base Registry

/-! ## What comes while `fo_send` waits -/

/-- Replies on the open file that are completed, and calls of `fo_acc_free_queue`, one
after the other. -/
inductive Replies (acc : AccRef) : Registry → Registry → Prop where
  | none {reg : Registry} : Replies acc reg reg
  | reply {reg reg' reg'' : Registry} {env : FoEnv} {nlh : NlMessage} {rvalue : Int32} (h : Replies acc reg reg')
      (hcomplete : (foComplete acc nlh).exec (fun op : FoOp => Ker.call (op.exec env)) reg' = (.ok rvalue, reg'')) :
      Replies acc reg reg''
  | freeQueue {reg reg' reg'' : Registry} {rvalue : Int32} (h : Replies acc reg reg')
      (hfree : Ker.call (Kernel.freeQueue acc) reg' = (.ok rvalue, reg'')) : Replies acc reg reg''

/-- The request is completed once at most for each time that its address was queued. -/
structure Registry.Keeps (reg : Registry) (acc : AccRef) (data : Acc) (x : NetdevData) (p : Addr) (copies : Nat)
    (ps : List Addr) : Prop where
  opened : reg.Opened acc data x
  queued : data.queue.Queued ps
  signals : ps.count p + (reg.reqs p).comp ≤ copies

/-- Such a queue is there. -/
def Registry.Awaits (reg : Registry) (acc : AccRef) (x : NetdevData) (p : Addr) (copies : Nat) : Prop :=
  ∃ data ps, reg.Keeps acc data x p copies ps

section Replies
variable {reg reg' : Registry} {acc : AccRef} {data : Acc} {x : NetdevData} {p q : Addr} {ps ps' : List Addr}
  {copies : Nat} {env : FoEnv}

/-- A search that misses keeps what it has seen. -/
theorem Registry.Keeps.missed (h : reg.Keeps acc data x p copies ps) {queue : FoAccess} {seq : Int32}
    (hqueue : queue.Queued ps') (hmissed : Searched reg.reqs seq ps none ps') :
    (reg.setAcc acc { data with queue }).Keeps acc { data with queue } x p copies ps' := by
  refine ⟨h.opened.setAcc _, hqueue, ?_⟩
  change ps'.count p + (reg.reqs p).comp ≤ copies
  rw [hmissed.count_eq p]
  exact h.signals

/-- The request that was found is not completed yet. -/
theorem Registry.Keeps.found (h : reg.Keeps acc data x p copies ps) {queue : FoAccess} {seq : Int32}
    (hqueue : queue.Queued ps') (hfound : Searched reg.reqs seq ps (some q) ps') :
    ∃ n, n + (if q = p then 1 else 0) = copies ∧
      (reg.setAcc acc { data with queue }).Keeps acc { data with queue } x p n ps' := by
  have hsignals := h.signals
  rw [hfound.1, List.count_cons] at hsignals
  simp only [beq_iff_eq] at hsignals
  refine ⟨copies - if q = p then 1 else 0, by omega, h.opened.setAcc _, hqueue, ?_⟩
  change ps'.count p + (reg.reqs p).comp ≤ _
  omega

theorem Registry.Keeps.setReq (h : reg.Keeps acc data x p copies ps) {n : Nat} (req : Pending)
    (hcomp : req.comp = (reg.reqs q).comp + n) :
    (reg.setReq q req).Keeps acc data x p (copies + if q = p then n else 0) ps where
  opened := h.opened.setReq q req
  queued := h.queued
  signals := by
    have hsignals := h.signals
    change ps.count p + (Function.update reg.reqs q req p).comp ≤ _
    by_cases hq : q = p
    · subst hq
      rw [Function.update_self, hcomp, if_pos rfl, ← Nat.add_assoc]
      exact Nat.add_le_add_right hsignals n
    · rw [Function.update_of_ne (Ne.symm hq), if_neg hq]
      exact hsignals

/-- Reading the reply into a request completes none. -/
theorem Registry.Keeps.deserialize (h : reg.Keeps acc data x p copies ps) (bytes : Bytes) :
    Exec.wp (fun reg => Ker.call ((FoOp.deserializeToreq q bytes).exec env) reg)
      (fun r reg' => ∀ a, r = .ok a → reg'.Keeps acc data x p copies ps) reg := by
  refine Ker.call_of_wp (P := fun r reg' => ∀ a, r = .ok a → reg'.Keeps acc data x p copies ps) ?_
  refine Ker.wp_registry (Ker.wp_ofMem (fun result _ => ?_) (fun a hfault => nomatch hfault))
  intro _ _
  have hkeeps := h.setReq (q := q) (n := 0) { reg.reqs q with req := result.2 } rfl
  rw [ite_self] at hkeeps
  exact hkeeps

theorem Registry.Awaits.foComplete (h : reg.Awaits acc x p copies) (nlh : NlMessage) :
    Exec.wp ((foComplete acc nlh).exec fun op : FoOp => Ker.call (op.exec env))
      (fun r reg' => ∀ a, r = .ok a → reg'.Awaits acc x p copies) reg := by
  obtain ⟨data, ps, h⟩ := h
  obtain ⟨tmp, queue, ps', hfind, hqueue, hsearched⟩ :=
    h.queued.foAccForeqFind env.free reg.reqs nlh.header.nlmsgSeq.toInt32
  unfold Kernel.foComplete
  refine @Prog.wp_exec_call FoI _ _ _ _ _ _ _ (.foreqFind acc _) _ tmp (h.opened.call_foreqFind hfind) ?_
  cases tmp with
  | none => exact fun _ _ => ⟨_, _, h.missed hqueue hsearched⟩
  | some q =>
      obtain ⟨n, rfl, hfound⟩ := h.found hqueue hsearched
      have hlost : ∀ {reg' : Registry} {data' : Acc}, reg'.Keeps acc data' x p n ps' →
          reg'.Awaits acc x p (n + if q = p then 1 else 0) := fun hkeeps =>
        ⟨_, _, hkeeps.opened, hkeeps.queued, Nat.le_add_right_of_le hkeeps.signals⟩
      refine @Prog.wp_exec_op FoI _ _ _ _ _ _ (.deserializeToreq q nlh.payload) _ _
        (hfound.deserialize _) (fun ok reg₁ h₁ => ?_) (fun e reg₁ _ a herror => nomatch herror)
      have hread := h₁ ok rfl
      refine Prog.wp_exec_ite (fun _ _ _ => hlost hread) (fun _ => ?_)
      refine @Prog.wp_exec_call FoI _ _ _ _ _ _ _ (.complete q) _ () (call_complete reg₁ q) ?_
      intro _ _
      exact ⟨_, _, hread.setReq _ rfl⟩

theorem Registry.Awaits.freeQueue (h : reg.Awaits acc x p copies) :
    Exec.wp (fun reg => Ker.call (freeQueue acc) reg) (fun _ reg' => reg'.Awaits acc x p copies) reg := by
  obtain ⟨data, ps, h⟩ := h
  obtain ⟨queue, hfree, hqueue⟩ := h.queued.foAccFreeQueue reg.reqs
  refine Ker.call_of_wp (P := fun _ reg' => reg'.Awaits acc x p copies) ?_
  refine Ker.wp_acc_live h.opened.file ?_
  refine Ker.wp_registry ?_
  rw [hfree]
  refine ⟨_, [], ⟨setAcc_self _ _, h.opened.dev⟩, hqueue, ?_⟩
  change List.count p [] + (reg.reqs.completeAll ps (-ENODATA) p).comp ≤ copies
  rw [Requests.completeAll_comp, List.count_nil, Nat.zero_add, Nat.add_comm]
  exact h.signals

theorem Replies.awaits (hreplies : Replies acc reg reg') (h : reg.Awaits acc x p copies) :
    reg'.Awaits acc x p copies := by
  induction hreplies with
  | none => exact h
  | @reply reg' reg'' env nlh rvalue _ hcomplete ih =>
      have hawaits := @Registry.Awaits.foComplete _ _ _ _ _ env ih nlh
      rw [Exec.wp, hcomplete] at hawaits
      exact hawaits rvalue rfl
  | @freeQueue reg' reg'' rvalue _ hfree ih =>
      have hawaits : (Ker.call (Kernel.freeQueue acc) reg').2.Awaits acc x p copies := ih.freeQueue
      rw [hfree] at hawaits
      exact hawaits

end Replies

/-! ## A reply to an address that is queued twice -/

section Twice
variable {reg reg₀ : Registry} {acc : AccRef} {data : Acc} {x : NetdevData} {p q : Addr} {ps qs : List Addr}

/-- A reply that says nothing. -/
def emptyReply (seq : Int32) : NlMessage := .put 0 seq.toUInt32 0 0 (List.replicate FoReq.headerSize 0)

/-- An environment that gives a thread the lock. -/
def FoEnv.gets (env : FoEnv) : FoEnv := { env with free := true }

/-- A reply to nobody puts the first request of the queue behind the others. -/
theorem Replies.rotate (env : FoEnv) (hreplies : Replies acc reg₀ reg) (h : reg.Opened acc data x)
    (hqueue : data.queue.Queued (q :: qs)) : ∃ reg' data', Replies acc reg₀ reg' ∧ reg'.Opened acc data' x ∧
      data'.queue.Queued (qs ++ [q]) ∧ reg'.reqs = reg.reqs := by
  obtain ⟨seq, hseq⟩ : ∃ seq : Int32, (reg.reqs q).req.seq ≠ seq.toInt64 := by
    by_cases hzero : (reg.reqs q).req.seq = (0 : Int32).toInt64
    · exact ⟨1, hzero ▸ by decide⟩
    · exact ⟨0, hzero⟩
  obtain ⟨queue, hfind, hrotated⟩ := hqueue.foAccForeqFind_cons reg.reqs seq
  rw [if_neg hseq] at hfind hrotated
  have hcall := @Registry.Opened.call_foreqFind env.gets _ _ _ _ h (emptyReply seq).header.nlmsgSeq.toInt32 _ _ hfind
  have hmiss : Exec.wp ((Kernel.foComplete acc (emptyReply seq)).exec fun op : FoOp => Ker.call (op.exec env.gets))
      (fun r reg' => r = .ok (-1) ∧ reg' = reg.setAcc acc { data with queue }) reg := by
    unfold Kernel.foComplete
    exact @Prog.wp_exec_call FoI _ _ _ _ _ _ _ (.foreqFind acc _) _ Option.none hcall ⟨rfl, rfl⟩
  exact ⟨_, { data with queue }, .reply hreplies (Prod.ext hmiss.1 hmiss.2), h.setAcc _, hrotated, rfl⟩

/-- Enough of them bring a request to the front. -/
theorem Replies.front (env : FoEnv) (hreplies : Replies acc reg₀ reg) (h : reg.Opened acc data x)
    (hqueue : data.queue.Queued (ps ++ p :: qs)) : ∃ reg' data', Replies acc reg₀ reg' ∧ reg'.Opened acc data' x ∧
      data'.queue.Queued (p :: (qs ++ ps)) ∧ reg'.reqs = reg.reqs := by
  induction ps generalizing reg data qs with
  | nil => exact ⟨reg, data, hreplies, h, (List.append_nil qs).symm ▸ hqueue, rfl⟩
  | cons q ps ih =>
      obtain ⟨reg', data', hreplies', h', hqueue', hreqs'⟩ := hreplies.rotate env h hqueue
      have hturned : data'.queue.Queued (ps ++ p :: (qs ++ [q])) := by
        simpa using hqueue'
      obtain ⟨reg'', data'', hreplies'', h'', hqueue'', hreqs''⟩ := ih hreplies' h' hturned
      rw [List.append_assoc] at hqueue''
      exact ⟨reg'', data'', hreplies'', h'', hqueue'', hreqs''.trans hreqs'⟩

/-- A reply to the first request of the queue completes it. -/
theorem Replies.first (env : FoEnv) (hreplies : Replies acc reg₀ reg) (h : reg.Opened acc data x)
    (hqueue : data.queue.Queued (p :: qs)) {seq : Int32} (hseq : (reg.reqs p).req.seq = seq.toInt64) :
    ∃ reg' data', Replies acc reg₀ reg' ∧ reg'.Opened acc data' x ∧ data'.queue.Queued qs ∧
      (reg'.reqs p).comp ≠ 0 := by
  obtain ⟨queue, hfind, hrest⟩ := hqueue.foAccForeqFind_cons reg.reqs seq
  rw [if_pos hseq] at hfind hrest
  have hempty := @foDeserializeToreq_header env.argsOk env.dataOk (reg.reqs p).req
    (List.replicate FoReq.headerSize 0) (by decide)
  rw [if_pos (by decide)] at hempty
  let found := reg.setAcc acc { data with queue }
  let read := found.setReq p { reg.reqs p with req := (reg.reqs p).req.fromWire (List.replicate FoReq.headerSize 0) }
  let completed := read.setReq p { read.reqs p with comp := (read.reqs p).comp + 1 }
  have hcall := @Registry.Opened.call_foreqFind env.gets _ _ _ _ h (emptyReply seq).header.nlmsgSeq.toInt32 _ _ hfind
  have hread : Ker.call ((FoOp.deserializeToreq p (emptyReply seq).payload).exec env.gets) found
      = (.ok true, read) := call_deserialize hempty
  have hhit : Exec.wp ((Kernel.foComplete acc (emptyReply seq)).exec fun op : FoOp => Ker.call (op.exec env.gets))
      (fun r reg' => r = .ok 0 ∧ reg' = completed) reg := by
    unfold Kernel.foComplete
    refine @Prog.wp_exec_call FoI _ _ _ _ _ _ _ (.foreqFind acc _) _ (some p) hcall ?_
    refine @Prog.wp_exec_call FoI _ _ _ _ _ _ _ (.deserializeToreq p _) _ true hread ?_
    exact @Prog.wp_exec_call FoI _ _ _ _ _ _ _ (.complete p) _ () (call_complete read p) ⟨rfl, rfl⟩
  refine ⟨completed, { data with queue }, .reply hreplies (Prod.ext hhit.1 hhit.2),
    ((h.setAcc _).setReq p _).setReq p _, hrest, ?_⟩
  rw [show completed.reqs p = { read.reqs p with comp := (read.reqs p).comp + 1 } from setReq_self _ _ _]
  exact Nat.succ_ne_zero _

/-- A reply takes out one of two copies of an address, and completes the request. -/
theorem Replies.twice (env : FoEnv) (h : reg.Opened acc data x) (hqueue : data.queue.Queued ps)
    {seq : Int32} (hseq : (reg.reqs p).req.seq = seq.toInt64) (htwice : 1 < ps.count p) :
    ∃ reg', Replies acc reg reg' ∧ (reg'.reqs p).comp ≠ 0 ∧ p ∈ reg'.waiting acc := by
  obtain ⟨before, after, rfl⟩ := List.append_of_mem (List.count_pos_iff.mp (Nat.zero_lt_of_lt htwice))
  obtain ⟨reg₁, data₁, hreplies₁, h₁, hqueue₁, hreqs₁⟩ := Replies.none.front env h hqueue
  obtain ⟨reg₂, data₂, hreplies₂, h₂, hqueue₂, hcomp⟩ := hreplies₁.first env h₁ hqueue₁ (hreqs₁ ▸ hseq)
  refine ⟨reg₂, hreplies₂, hcomp, ?_⟩
  rw [h₂.waiting, hqueue₂.pending]
  rw [List.count_append, List.count_cons_self] at htwice
  rw [← List.count_pos_iff, List.count_append]
  omega

end Twice

/-! ## Return paths -/

namespace FoCall

/-- The operation that closes the file. -/
def Releases (call : FoCall) : Prop := call.msgtype = MSGT_FO_RELEASE.toInt16

instance (call : FoCall) : Decidable call.Releases := inferInstanceAs (Decidable (_ = _))

end FoCall

/-- What is left when `fo_send` returns to a caller that had found so many users. -/
structure Sending.CleanedUp (s : Sending) (call : FoCall) (acc : AccRef) (users : Int) : Prop where
  queue : ∀ p ∈ s.allocated, p.val ∉ s.registry.waiting acc
  freed : s.freed = s.allocated
  users : (s.registry.devs acc.nddata).map NetdevData.users =
    some (if (s.registry.accs acc).isSome then users else users - 1)
  release : call.Releases → s.registry.accs acc = none

/-- It has returned and cleaned up, or waits for ever. -/
def CleansUp (call : FoCall) (acc : AccRef) (users : Int) (r : Except Halt Int32) (s : Sending) : Prop :=
  r = .error .blocked ∨ (∃ rvalue, r = .ok rvalue) ∧ s.CleanedUp call acc users

theorem cleansUp_blocked {call : FoCall} {acc : AccRef} {users : Int} {s : Sending} :
    CleansUp call acc users (.error .blocked) s := .inl rfl

theorem cleansUp_ok {call : FoCall} {acc : AccRef} {users : Int} {rvalue : Int32} {s : Sending} :
    CleansUp call acc users (.ok rvalue) s ↔ s.CleanedUp call acc users := by
  simp [CleansUp]

theorem not_cleansUp_fault {call : FoCall} {acc : AccRef} {users : Int} {s : Sending} :
    ¬ CleansUp call acc users (.error .fault) s := by
  simp [CleansUp]

/-- Everything behind the queue succeeds. -/
def FoEnv.Sends (env : FoEnv) (x : NetdevData) : Prop :=
  env.ok = true ∧ x.curseq + 1 ≠ 0 ∧ ¬ env.netlink < 0

section Paths
variable {env : FoEnv} {reply : Registry → Registry} {call : FoCall} {acc : AccRef} {s : Sending}
  {reg : Registry} {data : Acc} {x : NetdevData} {ps : List Addr} {users : Int} {req : ReqPtr}

/-- The end of a file, unless the lock of its device is lost. -/
theorem call_foAccDestroy (h : reg.Opened acc data x) :
    (Ker.call (foAccDestroy acc) reg).1 = .error .blocked ∨
      (Ker.call (foAccDestroy acc) reg).1 = .ok () ∧ (Ker.call (foAccDestroy acc) reg).2.accs acc = none ∧
        ((Ker.call (foAccDestroy acc) reg).2.devs acc.nddata).map NetdevData.users = some (x.users - 1) := by
  refine Ker.call_of_wp (P := fun r reg => r = .error .blocked ∨ r = .ok () ∧ reg.accs acc = none ∧
    (reg.devs acc.nddata).map NetdevData.users = some (x.users - 1)) ?_
  refine Ker.wp_acc_live h.file ?_
  refine Ker.wp_dev_live h.dev ?_
  refine Ker.wp_downWrite (fun _ => ?_) (fun hown => (List.not_mem_nil hown).elim) (fun _ _ => .inl rfl)
  refine Ker.wp_dev_live h.dev ?_
  refine Ker.wp_modify (wp_ndmgmPut (setDev_self _ _) (Ker.wp_up ?_))
  refine .inr ⟨rfl, freeAcc_self _, ?_⟩
  exact congrArg (Option.map NetdevData.users) (setDev_self _ _)

theorem alone_accDestroy (h : s.registry.Opened acc data x) : ∃ r reg,
    (FoOp.accDestroy acc).alone env reply acc s = (r, { s with registry := reg }) ∧
      (r = .error .blocked ∨ r = .ok () ∧ reg.accs acc = none ∧
        (reg.devs acc.nddata).map NetdevData.users = some (x.users - 1)) :=
  ⟨_, _, @alone_eq env reply acc s _ (.accDestroy acc) _ rfl rfl rfl, call_foAccDestroy h⟩

theorem waiting_of_gone (h : reg.accs acc = none) : reg.waiting acc = [] := by
  unfold Registry.waiting
  rw [h]

/-- The file is gone, and its queue with it. -/
theorem cleanedUp_gone (hfreed : s.freed = s.allocated) (hgone : s.registry.accs acc = none)
    (husers : (s.registry.devs acc.nddata).map NetdevData.users = some (users - 1)) :
    s.CleanedUp call acc users where
  queue p _ hp := by
    rw [waiting_of_gone hgone] at hp
    exact List.not_mem_nil hp
  freed := hfreed
  users := by
    rw [husers, hgone]
    rfl
  release _ := hgone

/-- The file stays, and what is in its queue. -/
theorem cleanedUp_opened (hfreed : s.freed = s.allocated) (hallocated : s.allocated = [req])
    (h : s.registry.Opened acc data x) (husers : x.users = users) (hrelease : ¬ call.Releases) :
    s.CleanedUp call acc users ↔ req.val ∉ data.queue.pending := by
  constructor
  · intro hclean
    have hout := hclean.queue req (hallocated ▸ List.mem_cons_self)
    rw [h.waiting] at hout
    exact hout
  · intro hout
    refine ⟨fun p hp => ?_, hfreed, ?_, fun h => absurd h hrelease⟩
    · rw [hallocated] at hp
      rw [List.mem_singleton.mp hp, h.waiting]
      exact hout
    · rw [h.dev, h.file, ← husers]
      rfl

/-- The label `out` frees the request and drops the reference, and does not look into the queue. -/
theorem foSendOut_cleansUp (h : s.registry.Opened acc data x) (hallocated : s.allocated = [req])
    (hfreed : s.freed = []) (rvalue : Int32) :
    Exec.wp ((foSendOut call acc (some req) rvalue).exec (FoOp.alone env reply acc))
      (fun r s' => CleansUp call acc (x.users - 1) r s' ↔ call.Releases ∨ req.val ∉ data.queue.pending) s := by
  have hput := h.setDev { x with users := x.users - 1 }
  have hfree : s.freed ++ [req] = s.allocated := by
    rw [hallocated, hfreed]
    rfl
  unfold foSendOut
  refine wp_fo (alone_put h) (wp_fo (alone_freeReq_some hput req) ?_)
  refine Prog.wp_exec_ite (fun hrelease => ?_) (fun hrelease => ?_)
  · obtain ⟨r, reg, hdestroy, hr⟩ :=
      @alone_accDestroy env reply acc ⟨_, s.allocated, s.freed ++ [req], s.waits⟩ _ _ hput
    rcases hr with rfl | ⟨rfl, hgone, husers⟩
    · exact wp_fo_stop hdestroy (iff_of_true cleansUp_blocked (.inl hrelease))
    · exact wp_fo hdestroy (iff_of_true (cleansUp_ok.mpr (cleanedUp_gone hfree hgone husers)) (.inl hrelease))
  · refine Iff.trans ?_ (or_iff_right hrelease).symm
    refine cleansUp_ok.trans ?_
    exact cleanedUp_opened (x := { x with users := x.users - 1 }) hfree hallocated hput rfl hrelease

/-- How often the address of the request is in the queue when `fo_acc_foreq_add` returns. -/
def FoEnv.copies (env : FoEnv) (p : Addr) (ps : List Addr) : Nat :=
  ps.count p + if env.free = true ∧ ps.length < FoAccess.capacity then 1 else 0

/-- The device takes none and the file need not go; or there is memory for the request, and
the queue goes with the file, the request is not in it, or it is there once and is sent. -/
def FoEnv.Cleans (env : FoEnv) (call : FoCall) (x : NetdevData) (ps : List Addr) : Prop :=
  if x.active then
    ∃ p : ReqPtr, env.addr = some p ∧
      (call.Releases ∨ env.copies p ps = 0 ∨ env.copies p ps = 1 ∧ env.Sends x)
  else
    ¬ call.Releases

theorem queued_add (hqueue : data.queue.Queued ps) (req : ReqPtr) :
    ∃ qs, (data.add env.free req).queue.Queued qs ∧ qs.count req.val = env.copies req ps := by
  refine ⟨_, (hqueue.foAccForeqAdd_eq req.property env.free).2, ?_⟩
  unfold FoEnv.copies
  by_cases hroom : env.free = true ∧ ps.length < FoAccess.capacity
  · rw [if_pos hroom, if_pos hroom, List.count_append, List.count_singleton_self]
  · rw [if_neg hroom, if_neg hroom, Nat.add_zero]

/-- A request that is not sent has only been put into the queue. -/
theorem foSendReq_stops (h : s.registry.Opened acc data x) (hstops : ¬ env.Sends x)
    {Q : Except Halt Int32 → Sending → Prop}
    (hQ : ∀ rvalue reg y, reg.Opened acc (data.add env.free req) y → y.users = x.users →
      Q (.ok rvalue) { s with registry := reg }) :
    Exec.wp ((foSendReq acc req).exec (FoOp.alone env reply acc)) Q s := by
  have hadded := h.setAcc (data.add env.free req)
  unfold foSendReq
  refine wp_fo (alone_foreqAdd h req) (wp_fo alone_kzalloc ?_)
  cases hok : env.ok with
  | false => exact hQ _ _ x hadded rfl
  | true =>
      refine wp_fo (alone_incseq hadded) ?_
      have hnumbered := h.numbered (data.add env.free req) req
      refine wp_fo (alone_setSeq req (x.curseq + 1)) (Prog.wp_exec_ite (fun _ => ?_) (fun hseq => ?_))
      · exact hQ _ _ _ hnumbered rfl
      · refine wp_fo (alone_netlinkSend hnumbered) (Prog.wp_exec_ite (fun _ => ?_) (fun hsend => ?_))
        · exact hQ _ _ _ hnumbered rfl
        · exact absurd ⟨hok, hseq, hsend⟩ hstops

/-- One that is sent is waited for. -/
theorem foSendReq_sends (h : s.registry.Opened acc data x) (hsends : env.Sends x)
    {Q : Except Halt Int32 → Sending → Prop}
    (hQ : Q ((FoOp.wait req).alone env reply acc
        { s with registry := s.registry.numbered acc (data.add env.free req) x req }).1
      ((FoOp.wait req).alone env reply acc
        { s with registry := s.registry.numbered acc (data.add env.free req) x req }).2) :
    Exec.wp ((foSendReq acc req).exec (FoOp.alone env reply acc)) Q s := by
  have hadded := h.setAcc (data.add env.free req)
  have hnumbered := h.numbered (data.add env.free req) req
  unfold foSendReq
  refine wp_fo (alone_foreqAdd h req) (wp_fo alone_kzalloc ?_)
  rw [hsends.1]
  refine wp_fo (alone_incseq hadded) (wp_fo (alone_setSeq req (x.curseq + 1)) ?_)
  refine Prog.wp_exec_ite (fun hseq => absurd hseq hsends.2.1) (fun _ => ?_)
  refine wp_fo (alone_netlinkSend hnumbered) (Prog.wp_exec_ite (fun hsend => absurd hsend hsends.2.2) (fun _ => ?_))
  exact wp_fo_last hQ

/-- `fo_send` behind the allocation of its request. -/
def foSendQueued (env : FoEnv) (reply : Registry → Registry) (call : FoCall) (acc : AccRef) (req : ReqPtr) :
    Exec Sending Halt Int32 :=
  (foSendReq acc req >>= foSendOut call acc (some req)).exec (FoOp.alone env reply acc)

/-- A request that is not sent is cleaned up when it is not in a queue that stays. -/
theorem foSendQueued_stops (h : s.registry.Opened acc data x) (hqueue : data.queue.Queued ps)
    (hallocated : s.allocated = [req]) (hfreed : s.freed = []) (hstops : ¬ env.Sends x) :
    Exec.wp (foSendQueued env reply call acc req)
      (fun r s' => CleansUp call acc (x.users - 1) r s' ↔ call.Releases ∨ env.copies req ps = 0) s := by
  obtain ⟨qs, hqs, hcount⟩ := @queued_add env data ps hqueue req
  refine Prog.wp_exec_bind (R := fun r s' => ∃ rvalue reg y, r = .ok rvalue ∧ s' = { s with registry := reg } ∧
    reg.Opened acc (data.add env.free req) y ∧ y.users = x.users) ?_ ?_ ?_
  · exact foSendReq_stops h hstops fun rvalue reg y hopened husers => ⟨rvalue, reg, y, rfl, rfl, hopened, husers⟩
  · rintro rvalue s' ⟨_, reg, y, -, rfl, hopened, husers⟩
    rw [← husers, ← hcount, List.count_eq_zero, ← hqs.pending]
    exact foSendOut_cleansUp (s := { s with registry := reg }) hopened hallocated hfreed rvalue
  · rintro e s' ⟨_, _, _, herror, -⟩
    exact nomatch herror

/-- A request that is sent is cleaned up when its address is in the queue once at most. -/
theorem foSendQueued_sends (h : s.registry.Opened acc data x) (hqueue : data.queue.Queued ps)
    (hcomp : (s.registry.reqs req).comp = 0) (hallocated : s.allocated = [req]) (hfreed : s.freed = [])
    (hsends : env.Sends x) (hreply : ∀ reg, Replies acc reg (reply reg))
    (honce : call.Releases ∨ env.copies req ps ≤ 1) :
    Exec.wp (foSendQueued env reply call acc req) (fun r s' => CleansUp call acc (x.users - 1) r s') s := by
  obtain ⟨qs, hqs, hcount⟩ := @queued_add env data ps hqueue req
  have hnumbered := h.numbered (data.add env.free req) req
  have hawaits : (s.registry.numbered acc (data.add env.free req) x req).Awaits acc
      { x with curseq := x.curseq + 1 } req (env.copies req ps) := by
    refine ⟨_, qs, hnumbered, hqs, ?_⟩
    rw [numbered_comp, hcomp, hcount]
    exact Nat.le_refl _
  obtain ⟨data', qs', hopened, hqueued, hsignals⟩ := (hreply _).awaits hawaits
  refine Prog.wp_exec_bind (foSendReq_sends (Q := fun r s' => r = .error .blocked ∨ ∃ rvalue, r = .ok rvalue ∧
    s'.allocated = [req] ∧ s'.freed = [] ∧ s'.registry.Opened acc data' { x with curseq := x.curseq + 1 } ∧
    (call.Releases ∨ req.val ∉ data'.queue.pending)) h hsends ?_) ?_ ?_
  · rcases @alone_wait env reply acc
      { s with registry := s.registry.numbered acc (data.add env.free req) x req } req with ⟨-, hwait⟩ | ⟨hdone, hwait⟩
    · rw [hwait]
      exact .inl rfl
    · rw [hwait]
      refine .inr ⟨_, rfl, hallocated, hfreed, hopened, honce.imp_right fun honce => ?_⟩
      rw [hqueued.pending]
      refine List.count_eq_zero.mp ?_
      have hone := Nat.one_le_iff_ne_zero.mpr hdone
      exact Nat.le_zero.mp (Nat.le_of_add_le_add_right ((Nat.add_le_add_left hone _).trans (hsignals.trans honce)))
  · rintro rvalue s' (hblocked | ⟨_, -, hallocated', hfreed', hopened', hout⟩)
    · exact nomatch hblocked
    · exact (foSendOut_cleansUp hopened' hallocated' hfreed' rvalue).mono fun r s hr => hr.mpr hout
  · rintro e s' (hblocked | ⟨_, herror, -⟩)
    · exact .inl hblocked
    · exact nomatch herror

/-- The reply that takes out one copy of an address, where there is such a reply. -/
noncomputable def takingOne (acc : AccRef) (p : Addr) (reg : Registry) : Registry :=
  open scoped Classical in
  if h : ∃ reg', Replies acc reg reg' ∧ (reg'.reqs p).comp ≠ 0 ∧ p ∈ reg'.waiting acc then h.choose else reg

theorem takingOne_replies (acc : AccRef) (p : Addr) (reg : Registry) : Replies acc reg (takingOne acc p reg) := by
  unfold takingOne
  split
  · rename_i h
    exact h.choose_spec.1
  · exact .none

theorem takingOne_takes {p : Addr} {reg : Registry}
    (h : ∃ reg', Replies acc reg reg' ∧ (reg'.reqs p).comp ≠ 0 ∧ p ∈ reg'.waiting acc) :
    ((takingOne acc p reg).reqs p).comp ≠ 0 ∧ p ∈ (takingOne acc p reg).waiting acc := by
  unfold takingOne
  rw [dif_pos h]
  exact h.choose_spec.2

/-- A request whose address is in the queue twice returns with one of the two. -/
theorem foSendQueued_twice (h : s.registry.Opened acc data x) (hqueue : data.queue.Queued ps)
    (hcomp : (s.registry.reqs req).comp = 0) (hallocated : s.allocated = [req]) (hfreed : s.freed = [])
    (hsends : env.Sends x) (hstays : ¬ call.Releases) (htwice : 1 < env.copies req ps) :
    Exec.wp (foSendQueued env (takingOne acc req) call acc req)
      (fun r s' => ¬ CleansUp call acc (x.users - 1) r s') s := by
  obtain ⟨qs, hqs, hcount⟩ := @queued_add env data ps hqueue req
  let numbered := s.registry.numbered acc (data.add env.free req) x req
  have hnumbered : numbered.Opened acc (data.add env.free req) { x with curseq := x.curseq + 1 } :=
    h.numbered (data.add env.free req) req
  have hseq : (numbered.reqs req).req.seq = (x.curseq + 1).toInt64 :=
    congrArg (fun p : Pending => p.req.seq) (setReq_self _ _ _)
  have htaking := Replies.twice env hnumbered hqs hseq (hcount ▸ htwice)
  have hawaits : numbered.Awaits acc { x with curseq := x.curseq + 1 } req (env.copies req ps) := by
    refine ⟨_, qs, hnumbered, hqs, ?_⟩
    rw [show (numbered.reqs req).comp = _ from numbered_comp _ _, hcomp, hcount]
    exact Nat.le_refl _
  obtain ⟨data', qs', hopened, hqueued, -⟩ := (takingOne_replies acc req numbered).awaits hawaits
  obtain ⟨hdone, hin⟩ := takingOne_takes htaking
  rw [hopened.waiting] at hin
  refine Prog.wp_exec_bind (foSendReq_sends (Q := fun r s' => ∃ rvalue, r = .ok rvalue ∧ s'.allocated = [req] ∧
    s'.freed = [] ∧ s'.registry.Opened acc data' { x with curseq := x.curseq + 1 }) h hsends ?_) ?_ ?_
  · rcases @alone_wait env (takingOne acc req) acc { s with registry := numbered } req with
      ⟨hwaits, -⟩ | ⟨-, hwait⟩
    · exact absurd hwaits hdone
    · rw [hwait]
      exact ⟨_, rfl, hallocated, hfreed, hopened⟩
  · rintro rvalue s' ⟨_, -, hallocated', hfreed', hopened'⟩
    refine (foSendOut_cleansUp hopened' hallocated' hfreed' rvalue).mono fun r s hr hclean => ?_
    exact (hr.mp hclean).elim hstays fun hout => hout hin
  · rintro e s' ⟨_, herror, -⟩
    exact nomatch herror

/-- `fo_send` on an active device with memory for the request. -/
theorem foSendAlone_queued (h : reg.Opened acc data x) (hactive : x.active = true) (haddr : env.addr = some req)
    {Q : Except Halt Int32 → Sending → Prop}
    (hQ : ∀ s, s.registry.Opened acc data { x with users := x.users + 1 } → (s.registry.reqs req).comp = 0 →
      s.allocated = [req] → s.freed = [] → Exec.wp (foSendQueued env reply call acc req) Q s) :
    Exec.wp (foSendAlone env reply call acc) Q (.start reg) := by
  unfold foSendAlone foSend
  refine wp_fo alone_enter (wp_fo (alone_active h) ?_)
  rw [hactive]
  have hgot := h.setDev { x with users := x.users + 1 }
  refine wp_fo (alone_get h) (wp_fo (alone_newReq_some hgot haddr call) ?_)
  refine hQ _ (hgot.setReq req _) ?_ rfl rfl
  exact (congrArg Pending.comp (setReq_self _ req (data.newReq env call))).trans rfl

theorem cleanedUp_start (h : reg.Opened acc data x) :
    (Sending.start reg).CleanedUp call acc x.users ↔ ¬ call.Releases := by
  constructor
  · intro hclean hrelease
    exact nomatch h.file.symm.trans (hclean.release hrelease)
  · intro hrelease
    refine ⟨fun p hp => (List.not_mem_nil hp).elim, rfl, ?_, fun hr => absurd hr hrelease⟩
    change (reg.devs acc.nddata).map NetdevData.users = some (if (reg.accs acc).isSome then _ else _)
    rw [h.dev, h.file]
    rfl

theorem foSendAlone_inactive (h : reg.Opened acc data x) (hinactive : x.active = false) :
    Exec.wp (foSendAlone env reply call acc) (fun r s => CleansUp call acc x.users r s ↔ ¬ call.Releases)
      (.start reg) := by
  unfold foSendAlone foSend
  refine wp_fo alone_enter (wp_fo (alone_active h) ?_)
  rw [hinactive]
  exact cleansUp_ok.trans (cleanedUp_start h)

/-- `kmem_cache_free` gets the null pointer that the pool has returned. -/
theorem foSendAlone_noMemory (h : reg.Opened acc data x) (hactive : x.active = true) (hnone : env.addr = none) :
    Exec.wp (foSendAlone env reply call acc) (fun r s => ¬ CleansUp call acc x.users r s) (.start reg) := by
  unfold foSendAlone foSend
  refine wp_fo alone_enter (wp_fo (alone_active h) ?_)
  rw [hactive]
  have hgot := h.setDev { x with users := x.users + 1 }
  refine wp_fo (alone_get h) (wp_fo (alone_newReq_none hgot hnone call) ?_)
  exact wp_fo (alone_put hgot) (wp_fo_stop (alone_freeReq_none (hgot.setDev _)) not_cleansUp_fault)

/-- With memory for the request, `fo_send` cleans up whatever replies come exactly when the queue
goes with the file, the request is not in it, or it is there once and is sent. -/
theorem foSendAlone_memory (h : reg.Opened acc data x) (hqueue : data.queue.Queued ps) (hactive : x.active = true)
    (haddr : env.addr = some req) :
    (∀ reply : Registry → Registry, (∀ reg, Replies acc reg (reply reg)) →
      CleansUp call acc x.users (foSendAlone env reply call acc (.start reg)).1
        (foSendAlone env reply call acc (.start reg)).2) ↔
      call.Releases ∨ env.copies req ps = 0 ∨ env.copies req ps = 1 ∧ env.Sends x := by
  have husers : x.users + 1 - 1 = x.users := Int.add_sub_cancel x.users 1
  by_cases hsends : env.Sends x
  · by_cases honce : call.Releases ∨ env.copies req ps ≤ 1
    · refine iff_of_true (fun reply hreply => ?_) (honce.imp_right fun honce => ?_)
      · refine foSendAlone_queued (Q := fun r s => CleansUp call acc x.users r s) h hactive haddr ?_
        intro s hopened hcomp hallocated hfreed
        have hclean := @foSendQueued_sends env reply call acc s data _ ps req hopened hqueue hcomp hallocated hfreed
          hsends hreply honce
        rwa [husers] at hclean
      · exact (Nat.le_one_iff_eq_zero_or_eq_one.mp honce).imp_right fun hone => ⟨hone, hsends⟩
    · obtain ⟨hstays, htwice⟩ := not_or.mp honce
      refine iff_of_false (fun hall => ?_) ?_
      · refine (?_ : Exec.wp (foSendAlone env (takingOne acc req) call acc)
          (fun r s => ¬ CleansUp call acc x.users r s) (.start reg)) (hall _ (takingOne_replies acc req))
        refine foSendAlone_queued h hactive haddr ?_
        intro s hopened hcomp hallocated hfreed
        have hleft := @foSendQueued_twice env call acc s data _ ps req hopened hqueue hcomp hallocated hfreed
          hsends hstays (Nat.lt_of_not_le htwice)
        rwa [husers] at hleft
      · rintro (hrelease | hzero | ⟨hone, -⟩)
        · exact hstays hrelease
        · exact htwice (hzero ▸ Nat.zero_le 1)
        · exact htwice hone.le
  · have hstops : ∀ reply, Exec.wp (foSendAlone env reply call acc)
        (fun r s => CleansUp call acc x.users r s ↔ call.Releases ∨ env.copies req ps = 0) (.start reg) := by
      intro reply
      refine foSendAlone_queued h hactive haddr fun s hopened _ hallocated hfreed => ?_
      have hclean := @foSendQueued_stops env reply call acc s data _ ps req hopened hqueue hallocated hfreed hsends
      rwa [husers] at hclean
    constructor
    · intro hall
      exact ((hstops id).mp (hall id fun _ => .none)).imp_right .inl
    · rintro hleft reply -
      exact (hstops reply).mpr (hleft.imp_right fun hleft => hleft.resolve_right fun hone => hsends hone.2)

/-- `fo_send` cleans up, whatever replies come while it waits, exactly when the device is inactive
and the file stays open, or there is memory for the request, and its queue goes with the file,
does not have its address, or has it once and the request is sent. -/
theorem cleans_up_iff (h : reg.Opened acc data x) (hqueue : data.queue.Queued ps) :
    (∀ reply : Registry → Registry, (∀ reg, Replies acc reg (reply reg)) →
      CleansUp call acc x.users (foSendAlone env reply call acc (.start reg)).1
        (foSendAlone env reply call acc (.start reg)).2) ↔ env.Cleans call x ps := by
  unfold FoEnv.Cleans
  cases hactive : x.active with
  | false =>
      have hinactive := fun reply => @foSendAlone_inactive env reply call acc reg data x h hactive
      exact ⟨fun hall => (hinactive id).mp (hall id fun _ => .none), fun hstays reply _ => (hinactive reply).mpr hstays⟩
  | true =>
      cases haddr : env.addr with
      | none =>
          refine iff_of_false (fun hall => ?_) (fun ⟨_, hp, _⟩ => nomatch hp)
          exact foSendAlone_noMemory h hactive haddr (hall id fun _ => .none)
      | some p =>
          refine (foSendAlone_memory h hqueue hactive haddr).trans ?_
          constructor
          · exact fun hclean => ⟨p, rfl, hclean⟩
          · rintro ⟨_, hp, hclean⟩
            rwa [← Option.some.inj hp] at hclean

end Paths

/-! ## A reply, and a request that is not sent -/

namespace Sample

/-- The reply to the first request. -/
def reply : NlMessage :=
  .put 7 1 MSGT_FO_LLSEEK.toUInt32.toUInt16 NLM_F_ACK ({ seek.request 3 0 with rvalue := 0 }.wire seek.args [])

/-- It arrives. -/
def answer (reg : Registry) : Registry :=
  match (foComplete file reply).exec (fun op : FoOp => Ker.call (op.exec foEnv)) reg with
  | (.ok _, reg') => reg'
  | (.error _, _) => reg

theorem answer_replies (reg : Registry) : Replies file reg (answer reg) := by
  unfold answer
  cases hrun : (foComplete file reply).exec (fun op : FoOp => Ker.call (op.exec foEnv)) reg with
  | mk r reg' =>
      cases r with
      | ok rvalue => exact .reply .none hrun
      | error e => exact .none

/-- The socket refuses the request. -/
def refused : FoEnv := { foEnv with netlink := -1 }

end Sample

theorem cleans_up_answered :
    (foSendAlone Sample.foEnv Sample.answer Sample.seek Sample.file (.start (Sample.opened .fresh))).1.toOption
        = some 0 ∧
      CleansUp Sample.seek Sample.file Sample.device.users
        (foSendAlone Sample.foEnv Sample.answer Sample.seek Sample.file (.start (Sample.opened .fresh))).1
        (foSendAlone Sample.foEnv Sample.answer Sample.seek Sample.file (.start (Sample.opened .fresh))).2 := by
  have hcleans : Sample.foEnv.Cleans Sample.seek Sample.device [] :=
    ⟨_, rfl, .inr (.inr ⟨rfl, rfl, by decide, by decide⟩)⟩
  have hiff := @cleans_up_iff Sample.foEnv Sample.seek Sample.file _ _ Sample.device []
    (Sample.opened_file .fresh) .fresh
  exact ⟨by decide +kernel, hiff.mpr hcleans Sample.answer Sample.answer_replies⟩

/-- The request that was not sent is freed, and stays in the queue. -/
theorem request_left : ∃ env call acc reg data x,
    reg.Opened acc data x ∧ data.queue.Queued [] ∧
      ¬ CleansUp call acc x.users (foSendAlone env id call acc (.start reg)).1
        (foSendAlone env id call acc (.start reg)).2 := by
  let left := foSendAlone Sample.refused id Sample.seek Sample.file (.start (Sample.opened .fresh))
  have hrvalue : left.1.toOption = some (-ECANCELED) := by decide +kernel
  have hallocated : left.2.allocated = [⟨4096, by decide⟩] := by decide +kernel
  have hqueue : left.2.registry.waiting Sample.file = [4096] := by decide +kernel
  refine ⟨Sample.refused, Sample.seek, Sample.file, _, _, _, Sample.opened_file .fresh, .fresh, ?_⟩
  change ¬ CleansUp Sample.seek Sample.file Sample.device.users left.1 left.2
  rintro (hblocked | ⟨-, hclean⟩)
  · rw [hblocked] at hrvalue
    cases hrvalue
  · have hout := hclean.queue ⟨4096, by decide⟩ (hallocated ▸ List.mem_cons_self)
    rw [hqueue] at hout
    exact hout List.mem_cons_self

end Netdev.Kernel
