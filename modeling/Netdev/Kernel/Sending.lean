-- SUMMARY: `fo_send` run on its own from call to return, with the replies that arrive while it waits; when its request is queued.
import Netdev.Kernel.Module
import Netdev.Kernel.Register

/-!
# A request on its own

One process is in `fo_send`, and nothing else happens on its open file but the replies
and the other things that come while it waits. What it allocates, what it frees, and the
queue that it finds when it begins to wait are recorded.
-/

namespace Netdev.Kernel
open Base Registry

/-! ## Execution -/

/-- The requests that wait in the queue of an open file. -/
def Registry.waiting (reg : Registry) (acc : AccRef) : List Addr :=
  match reg.accs acc with
  | some data => data.queue.pending
  | none => []

/-- The registry, and what `fo_send` has done so far. -/
structure Sending where
  registry : Registry
  allocated : List ReqPtr
  freed : List ReqPtr
  waits : List (ReqPtr × List Addr)

namespace Sending

/-- Nothing is done yet. -/
def start (reg : Registry) : Sending := ⟨reg, [], [], []⟩

/-- Before an operation: others run while the process waits. -/
def before (reply : Registry → Registry) (acc : AccRef) (s : Sending) : FoOp → Sending
  | .wait req => { s with registry := reply s.registry, waits := s.waits ++ [(req, s.registry.waiting acc)] }
  | _ => s

/-- After it. -/
def after (s : Sending) : (op : FoOp) → Except Halt op.Res → Sending
  | .newReq .., .ok (some p) => { s with allocated := s.allocated ++ [p] }
  | .freeReq _ (some p), .ok _ => { s with freed := s.freed ++ [p] }
  | _, _ => s

end Sending

/-- An operation with nobody else at work, in an environment that stays the same. -/
def FoOp.alone (env : FoEnv) (reply : Registry → Registry) (acc : AccRef) (op : FoOp) :
    Exec Sending Halt op.Res := fun s =>
  let s := s.before reply acc op
  let returned := Ker.call (op.exec env) s.registry
  (returned.1, { s with registry := returned.2 }.after op returned.1)

/-- `fo_send` from its call to its return. -/
def foSendAlone (env : FoEnv) (reply : Registry → Registry) (call : FoCall) (acc : AccRef) :
    Exec Sending Halt Int32 := (foSend call acc).exec (FoOp.alone env reply acc)

/-! ## Operations -/

section Rules
variable {env : FoEnv} {reply : Registry → Registry} {acc : AccRef} {s s' : Sending} {α : Type}
  {Q : Except Halt α → Sending → Prop}

theorem wp_fo {op : FoOp} {k : op.Res → FoM α} {r : op.Res} (hop : op.alone env reply acc s = (.ok r, s'))
    (hk : Exec.wp ((k r).exec (FoOp.alone env reply acc)) Q s') :
    Exec.wp ((fo op >>= k).exec (FoOp.alone env reply acc)) Q s :=
  @Prog.wp_exec_call FoI α Sending Halt (FoOp.alone env reply acc) Q s s' op _ r hop hk

theorem wp_fo_stop {op : FoOp} {k : op.Res → FoM α} {e : Halt}
    (hop : op.alone env reply acc s = (.error e, s')) (hQ : Q (.error e) s') :
    Exec.wp ((fo op >>= k).exec (FoOp.alone env reply acc)) Q s :=
  @Prog.wp_exec_stop FoI α Sending Halt (FoOp.alone env reply acc) Q s s' op _ e hop hQ

theorem wp_fo_last {op : FoOp} {Q : Except Halt op.Res → Sending → Prop}
    (hQ : Q (op.alone env reply acc s).1 (op.alone env reply acc s).2) :
    Exec.wp ((fo op).exec (FoOp.alone env reply acc)) Q s := by
  cases hop : op.alone env reply acc s with
  | mk r s' =>
      rw [hop] at hQ
      cases r with
      | ok r => exact @Prog.wp_exec_call FoI _ Sending Halt _ Q s s' op .ret r hop hQ
      | error e => exact @Prog.wp_exec_stop FoI _ Sending Halt _ Q s s' op .ret e hop hQ

end Rules

/-- The open file and its device. -/
structure Registry.Opened (reg : Registry) (acc : AccRef) (data : Acc) (x : NetdevData) : Prop where
  file : reg.accs acc = some data
  dev : reg.devs acc.nddata = some x

theorem Ker.call_eq {α : Type} {m : Ker α} {reg reg' : Registry} {r : Except Halt α}
    (h : Exec.wp m (fun r' c => r' = r ∧ c = ⟨reg', []⟩) ⟨reg, []⟩) : Ker.call m reg = (r, reg') := by
  obtain ⟨hr, hc⟩ := h
  refine Prod.ext hr ?_
  change ({ (m ⟨reg, []⟩).2.registry with stuck := (m ⟨reg, []⟩).2.own ++ (m ⟨reg, []⟩).2.registry.stuck } :
    Registry) = reg'
  rw [hc]
  rfl

section Operations
variable {env : FoEnv} {reply : Registry → Registry} {acc : AccRef} {d : DevId} {s : Sending} {data : Acc}
  {x : NetdevData} {reg : Registry}

/-- An operation of which nothing is recorded. -/
theorem alone_eq {op : FoOp} {r : Except Halt op.Res} (hcall : Ker.call (op.exec env) s.registry = (r, reg))
    (hbefore : s.before reply acc op = s)
    (hafter : Sending.after { s with registry := reg } op r = { s with registry := reg }) :
    op.alone env reply acc s = (r, { s with registry := reg }) := by
  unfold FoOp.alone
  simp only [hbefore, hcall, hafter]

theorem alone_enter : FoOp.enter.alone env reply acc s = (.ok (), s) := rfl

theorem alone_kzalloc : FoOp.kzalloc.alone env reply acc s = (.ok env.ok, s) := rfl

theorem alone_active (h : s.registry.Opened acc data x) :
    (FoOp.active acc).alone env reply acc s = (.ok x.active, s) := by
  refine @alone_eq env reply acc s s.registry (.active acc) (.ok x.active) (Ker.call_eq ?_) rfl rfl
  refine Ker.wp_acc_live h.file ?_
  refine Ker.wp_dev_live h.dev ?_
  exact ⟨rfl, rfl⟩

/-- The device of the file after an update. -/
theorem Registry.Opened.setDev (h : reg.Opened acc data x) (y : NetdevData) :
    (reg.setDev acc.nddata y).Opened acc data y := ⟨h.file, setDev_self _ _⟩

theorem Registry.Opened.setAcc (h : reg.Opened acc data x) (data' : Acc) :
    (reg.setAcc acc data').Opened acc data' x := ⟨setAcc_self _ _, h.dev⟩

/-- The registry with the memory of a request changed. -/
def Registry.setReq (reg : Registry) (p : Addr) (req : Pending) : Registry :=
  { reg with reqs := Function.update reg.reqs p req }

theorem setReq_self (reg : Registry) (p : Addr) (req : Pending) : (reg.setReq p req).reqs p = req :=
  Function.update_self ..

theorem Registry.Opened.setReq (h : reg.Opened acc data x) (p : Addr) (req : Pending) :
    (reg.setReq p req).Opened acc data x := ⟨h.file, h.dev⟩

theorem call_get (hd : reg.devs d = some x) : Ker.call ((FoOp.get (some d)).exec env) reg
    = (.ok (), reg.setDev d { x with users := x.users + 1 }) := by
  refine Ker.call_eq (Ker.wp_dev_live hd ?_)
  exact ⟨rfl, rfl⟩

theorem call_put (hd : reg.devs d = some x) : Ker.call ((FoOp.put d).exec env) reg
    = (.ok (), reg.setDev d { x with users := x.users - 1 }) := by
  refine Ker.call_eq (Ker.wp_dev_live hd ?_)
  exact ⟨rfl, rfl⟩

theorem alone_get (h : s.registry.Opened acc data x) :
    (FoOp.get (some acc.nddata)).alone env reply acc s
      = (.ok (), { s with registry := s.registry.setDev acc.nddata { x with users := x.users + 1 } }) :=
  @alone_eq env reply acc s _ (.get (some acc.nddata)) (.ok ()) (call_get h.dev) rfl rfl

theorem alone_put (h : s.registry.Opened acc data x) :
    (FoOp.put acc.nddata).alone env reply acc s
      = (.ok (), { s with registry := s.registry.setDev acc.nddata { x with users := x.users - 1 } }) :=
  @alone_eq env reply acc s _ (.put acc.nddata) (.ok ()) (call_put h.dev) rfl rfl

theorem alone_incseq (h : s.registry.Opened acc data x) :
    (FoOp.incseq acc.nddata).alone env reply acc s = (.ok (x.curseq + 1),
      { s with registry := s.registry.setDev acc.nddata { x with curseq := x.curseq + 1 } }) := by
  refine @alone_eq env reply acc s _ (.incseq acc.nddata) (.ok (x.curseq + 1)) (Ker.call_eq ?_) rfl rfl
  refine Ker.wp_dev_live h.dev ?_
  exact ⟨rfl, rfl⟩

theorem alone_netlinkSend (h : s.registry.Opened acc data x) :
    (FoOp.netlinkSend acc.nddata).alone env reply acc s = (.ok env.netlink, s) := by
  refine @alone_eq env reply acc s s.registry (.netlinkSend acc.nddata) (.ok env.netlink) (Ker.call_eq ?_) rfl rfl
  exact Ker.wp_dev_live h.dev ⟨rfl, rfl⟩

/-- A request with its sequence number. -/
def Pending.number (p : Pending) (seq : Int32) : Pending := { p with req := { p.req with seq := seq.toInt64 } }

theorem alone_setSeq (req : ReqPtr) (seq : Int32) :
    (FoOp.setSeq req seq).alone env reply acc s
      = (.ok (), { s with registry := s.registry.setReq req ((s.registry.reqs req).number seq) }) :=
  @alone_eq env reply acc s _ (.setSeq req seq) (.ok ()) (Ker.call_eq ⟨rfl, rfl⟩) rfl rfl

/-- The registry when the request has its number; `data` is the file with the queue then. -/
def Registry.numbered (reg : Registry) (acc : AccRef) (data : Acc) (x : NetdevData) (req : Addr) : Registry :=
  ((reg.setAcc acc data).setDev acc.nddata { x with curseq := x.curseq + 1 }).setReq req
    ((reg.reqs req).number (x.curseq + 1))

theorem Registry.Opened.numbered (h : reg.Opened acc data x) (data' : Acc) (req : Addr) :
    (reg.numbered acc data' x req).Opened acc data' { x with curseq := x.curseq + 1 } :=
  ((h.setAcc data').setDev { x with curseq := x.curseq + 1 }).setReq req _

theorem numbered_comp (data' : Acc) (req : Addr) :
    ((reg.numbered acc data' x req).reqs req).comp = (reg.reqs req).comp := by
  have hself : (reg.numbered acc data' x req).reqs req = (reg.reqs req).number (x.curseq + 1) :=
    setReq_self ..
  rw [hself]
  rfl

/-- The pool has no memory. -/
theorem alone_newReq_none (h : s.registry.Opened acc data x) (hnone : env.addr = none) (call : FoCall) :
    (FoOp.newReq acc call).alone env reply acc s = (.ok none, s) := by
  refine @alone_eq env reply acc s s.registry (.newReq acc call) (.ok none) (Ker.call_eq ?_) rfl rfl
  refine Ker.wp_acc_live h.file ?_
  refine Ker.wp_dev_live h.dev ?_
  rw [hnone]
  exact ⟨rfl, rfl⟩

/-- A request that nobody has completed. -/
def Acc.newReq (data : Acc) (env : FoEnv) (call : FoCall) : Pending :=
  ⟨call.request data.accessId env.fresh.seq, 0⟩

theorem alone_newReq_some (h : s.registry.Opened acc data x) {p : ReqPtr} (hsome : env.addr = some p)
    (call : FoCall) :
    (FoOp.newReq acc call).alone env reply acc s = (.ok (some p),
      { s with registry := s.registry.setReq p (data.newReq env call), allocated := s.allocated ++ [p] }) := by
  have hcall : Ker.call ((FoOp.newReq acc call).exec env) s.registry
      = (.ok (some p), s.registry.setReq p (data.newReq env call)) := by
    refine Ker.call_eq ?_
    refine Ker.wp_acc_live h.file ?_
    refine Ker.wp_dev_live h.dev ?_
    rw [hsome]
    exact ⟨rfl, rfl⟩
  unfold FoOp.alone
  simp only [Sending.before, hcall, Sending.after]

/-- The file after `fo_acc_foreq_add`. -/
def Acc.add (data : Acc) (free : Bool) (req : Addr) : Acc :=
  { data with queue := (foAccForeqAdd free data.queue req).2 }

theorem alone_foreqAdd (h : s.registry.Opened acc data x) (req : ReqPtr) :
    (FoOp.foreqAdd acc req).alone env reply acc s = (.ok (foAccForeqAdd env.free data.queue req).1,
      { s with registry := s.registry.setAcc acc (data.add env.free req) }) := by
  refine @alone_eq env reply acc s _ (.foreqAdd acc req) (.ok _) (Ker.call_eq ?_) rfl rfl
  refine Ker.wp_acc_live h.file ?_
  exact ⟨rfl, rfl⟩

theorem alone_freeReq_some (h : s.registry.Opened acc data x) (p : ReqPtr) :
    (FoOp.freeReq acc (some p)).alone env reply acc s = (.ok (), { s with freed := s.freed ++ [p] }) := by
  have hcall : Ker.call ((FoOp.freeReq acc (some p)).exec env) s.registry = (.ok (), s.registry) := by
    refine Ker.call_eq ?_
    refine Ker.wp_acc_live h.file ?_
    exact Ker.wp_dev_live h.dev ⟨rfl, rfl⟩
  unfold FoOp.alone
  simp only [Sending.before, hcall, Sending.after]

/-- A null pointer is not freed. -/
theorem alone_freeReq_none (h : s.registry.Opened acc data x) :
    (FoOp.freeReq acc none).alone env reply acc s = (.error .fault, s) := by
  refine @alone_eq env reply acc s s.registry (.freeReq acc none) (.error .fault) (Ker.call_eq ?_) rfl rfl
  refine Ker.wp_acc_live h.file ?_
  exact Ker.wp_dev_live h.dev ⟨rfl, rfl⟩

/-- The end of a wait: nobody has signalled the completion, or it returns. -/
theorem alone_wait (req : ReqPtr) :
    let s' : Sending := { s with registry := reply s.registry, waits := s.waits ++ [(req, s.registry.waiting acc)] }
    (s'.registry.reqs req).comp = 0 ∧ (FoOp.wait req).alone env reply acc s = (.error .blocked, s') ∨
      (s'.registry.reqs req).comp ≠ 0 ∧ (FoOp.wait req).alone env reply acc s
        = (.ok (s'.registry.reqs req).req.rvalue, s') := by
  by_cases hcomp : ((reply s.registry).reqs req).comp = 0
  · have hcall : Ker.call ((FoOp.wait req).exec env) (reply s.registry) = (.error .blocked, reply s.registry) :=
      Ker.call_eq (Ker.wp_registry (Exec.wp_ite (fun _ => ⟨rfl, rfl⟩) (fun hne => absurd hcomp hne)))
    refine .inl ⟨hcomp, ?_⟩
    unfold FoOp.alone
    simp only [Sending.before, hcall, Sending.after]
  · have hcall : Ker.call ((FoOp.wait req).exec env) (reply s.registry)
        = (.ok ((reply s.registry).reqs req).req.rvalue, reply s.registry) :=
      Ker.call_eq (Ker.wp_registry (Exec.wp_ite (fun heq => absurd heq hcomp) (fun _ => ⟨rfl, rfl⟩)))
    refine .inr ⟨hcomp, ?_⟩
    unfold FoOp.alone
    simp only [Sending.before, hcall, Sending.after]

theorem alone_wait_waits (req : ReqPtr) :
    ((FoOp.wait req).alone env reply acc s).2.waits = s.waits ++ [(req, s.registry.waiting acc)] := by
  rcases @alone_wait env reply acc s req with ⟨-, hwait⟩ | ⟨-, hwait⟩
  · rw [hwait]
  · rw [hwait]

/-- Only a wait is recorded as one. -/
theorem alone_waits {op : FoOp} (hop : ∀ req, op ≠ .wait req) {w : List (ReqPtr × List Addr)}
    (h : s.waits = w) : (op.alone env reply acc s).2.waits = w := by
  have hafter : ∀ (t : Sending) (r : Except Halt op.Res), (t.after op r).waits = t.waits := by
    intro t r
    unfold Sending.after
    split
    · rfl
    · rfl
    · rfl
  have hbefore : s.before reply acc op = s := by
    cases op with
    | wait req => exact absurd rfl (hop req)
    | _ => rfl
  unfold FoOp.alone
  simp only [hafter, hbefore]
  exact h

end Operations

/-! ## Waiting -/

section Waits
variable {env : FoEnv} {reply : Registry → Registry} {call : FoCall} {acc : AccRef} {s : Sending}
  {reg : Registry} {data : Acc} {x : NetdevData} {ps : List Addr}

theorem Registry.Opened.waiting (h : reg.Opened acc data x) : reg.waiting acc = data.queue.pending := by
  unfold Registry.waiting
  rw [h.file]

theorem foSendOut_waits (req : Option ReqPtr) (rvalue : Int32) :
    ((foSendOut call acc req rvalue).exec (FoOp.alone env reply acc) s).2.waits = s.waits := by
  have honly : (foSendOut call acc req rvalue).Only fun op : FoOp => ∀ req, op ≠ .wait req := by
    refine ⟨(fun req h => nomatch h), fun _ => ⟨(fun req h => nomatch h), fun _ => ?_⟩⟩
    by_cases hrelease : call.msgtype = MSGT_FO_RELEASE.toInt16
    · rw [if_pos hrelease]
      exact ⟨(fun req h => nomatch h), fun _ => trivial⟩
    · rw [if_neg hrelease]
      trivial
  exact honly.exec_keeps (K := fun s' : Sending => s'.waits = s.waits) (fun op s' hop hs => alone_waits hop hs) rfl

/-- At every wait the request is in the queue exactly when it could be added. -/
def Sending.WaitsQueued (env : FoEnv) (ps : List Addr) (s : Sending) : Prop :=
  ∀ w ∈ s.waits, w.1.val ∈ w.2 ↔ (env.free = true ∧ ps.length < FoAccess.capacity) ∨ w.1.val ∈ ps

theorem Sending.WaitsQueued.of_nil (hwaits : s.waits = []) : s.WaitsQueued env ps := by
  intro w hw
  rw [hwaits] at hw
  exact absurd hw List.not_mem_nil

theorem waitsQueued_wait (h : s.registry.Opened acc data x) (hwaits : s.waits = []) {req : ReqPtr}
    (hqueued : data.queue.Queued
      (if env.free = true ∧ ps.length < FoAccess.capacity then ps ++ [req.val] else ps)) :
    ((FoOp.wait req).alone env reply acc s).2.WaitsQueued env ps := by
  intro w hw
  rw [alone_wait_waits, h.waiting, hqueued.pending, hwaits, List.nil_append] at hw
  obtain rfl := List.mem_singleton.mp hw
  by_cases hroom : env.free = true ∧ ps.length < FoAccess.capacity
  · rw [if_pos hroom]
    exact iff_of_true (List.mem_append_right ps List.mem_cons_self) (.inl hroom)
  · rw [if_neg hroom]
    exact (or_iff_right hroom).symm

theorem foSendReq_waits (h : s.registry.Opened acc data x) (hqueue : data.queue.Queued ps) (req : ReqPtr)
    (hwaits : s.waits = []) :
    Exec.wp ((foSendReq acc req).exec (FoOp.alone env reply acc)) (fun _ s' => s'.WaitsQueued env ps) s := by
  have hadd := (hqueue.foAccForeqAdd_eq req.property env.free).2
  have hadded := h.setAcc (data.add env.free req)
  unfold foSendReq
  refine wp_fo (alone_foreqAdd h req) (wp_fo alone_kzalloc ?_)
  cases env.ok with
  | false => exact .of_nil hwaits
  | true =>
      refine wp_fo (alone_incseq hadded) ?_
      refine wp_fo (alone_setSeq req (x.curseq + 1)) (Prog.wp_exec_ite (fun _ => .of_nil hwaits) (fun _ => ?_))
      have hnumbered := h.numbered (data.add env.free req) req
      refine wp_fo (alone_netlinkSend hnumbered) (Prog.wp_exec_ite (fun _ => .of_nil hwaits) (fun _ => ?_))
      refine wp_fo_last (waitsQueued_wait hnumbered ?_ hadd)
      exact hwaits

/-- What `fo_send` finds in the queue when it begins to wait. -/
theorem foSendAlone_waits (h : reg.Opened acc data x) (hqueue : data.queue.Queued ps) :
    Exec.wp (foSendAlone env reply call acc) (fun _ s' => s'.WaitsQueued env ps) (.start reg) := by
  unfold foSendAlone foSend
  refine wp_fo alone_enter (wp_fo (alone_active h) (Prog.wp_exec_ite (fun _ => .of_nil rfl) (fun _ => ?_)))
  refine wp_fo (alone_get h) ?_
  have hgot := h.setDev { x with users := x.users + 1 }
  cases haddr : env.addr with
  | none =>
      refine wp_fo (alone_newReq_none hgot haddr call) (.of_nil ?_)
      exact foSendOut_waits none _
  | some p =>
      refine wp_fo (alone_newReq_some hgot haddr call) ?_
      refine Prog.wp_exec_bind (foSendReq_waits (hgot.setReq p _) hqueue p rfl) (fun rvalue s' hs' => ?_)
        (fun e s' hs' => hs')
      intro w hw
      rw [foSendOut_waits] at hw
      exact hs' w hw

/-- `fo_acc_foreq_add` reports success, and `fo_send` waits, for a request that is in the
queue exactly when there was room for it, and for the second when the lock was free. -/
theorem request_queued_iff (h : reg.Opened acc data x) (hqueue : data.queue.Queued ps) :
    (foSendAlone env reply call acc (.start reg)).2.WaitsQueued env ps ∧
      ∀ req : ReqPtr, (foAccForeqAdd env.free data.queue req).1 = 0 →
        (req.val ∈ (foAccForeqAdd env.free data.queue req).2.pending ↔
          ps.length < FoAccess.capacity ∨ req.val ∈ ps) := by
  refine ⟨foSendAlone_waits h hqueue, fun req hsuccess => ?_⟩
  obtain ⟨hrvalue, hadd⟩ := hqueue.foAccForeqAdd_eq req.property env.free
  have hfree : env.free = true := by
    refine Bool.of_not_eq_false fun hbusy => ?_
    rw [hrvalue, hbusy] at hsuccess
    exact absurd hsuccess (by decide)
  rw [hadd.pending]
  by_cases hroom : ps.length < FoAccess.capacity
  · rw [if_pos ⟨hfree, hroom⟩]
    exact iff_of_true (List.mem_append_right ps List.mem_cons_self) (.inl hroom)
  · rw [if_neg fun h => hroom h.2]
    exact (or_iff_right hroom).symm

end Waits

/-! ## A full queue -/

namespace Sample

/-- The first open file of a dummy device. -/
def file : AccRef := ⟨0, 0⟩

def device : NetdevData := { NetdevData.registered 7 true 0 with users := 2 }

/-- The device with one open file, which has this queue. -/
def opened (queue : FoAccess) : Registry :=
  ((Registry.prepare hashMin requests).setDev 0 device).setAcc file ⟨3, queue, ⟨none⟩⟩

/-- A queue after so many requests were added. -/
def queued : Nat → FoAccess
  | 0 => .fresh
  | n + 1 => (foAccForeqAdd true (queued n) (8192 + UInt64.ofNat n)).2

theorem queued_succ {n : Nat} {ps : List Addr} (h : (queued n).Queued ps) (hroom : ps.length < FoAccess.capacity)
    (hvalid : isErr (8192 + UInt64.ofNat n) = false) :
    (queued (n + 1)).Queued (ps ++ [8192 + UInt64.ofNat n]) := by
  have hadd := (h.foAccForeqAdd_eq hvalid true).2
  rw [if_pos ⟨rfl, hroom⟩] at hadd
  exact hadd

theorem queued_three : (queued 3).Queued [8192, 8193, 8194] := by
  have hone : (queued 1).Queued [8192] := @queued_succ 0 [] .fresh (by decide) (by decide)
  have htwo : (queued 2).Queued [8192, 8193] := @queued_succ 1 _ hone (by decide) (by decide)
  exact @queued_succ 2 _ htwo (by decide) (by decide)

theorem opened_file (queue : FoAccess) : (opened queue).Opened file ⟨3, queue, ⟨none⟩⟩ device :=
  ⟨setAcc_self _ _, rfl⟩

end Sample

theorem request_queued_three :
    (foSendAlone Sample.foEnv id Sample.seek Sample.file (.start (Sample.opened (Sample.queued 3)))).2.WaitsQueued
        Sample.foEnv [8192, 8193, 8194] ∧
      ∀ req : ReqPtr, (foAccForeqAdd true (Sample.queued 3) req).1 = 0 →
        (req.val ∈ (foAccForeqAdd true (Sample.queued 3) req).2.pending ↔
          [8192, 8193, 8194].length < FoAccess.capacity ∨ req.val ∈ ([8192, 8193, 8194] : List Addr)) :=
  request_queued_iff (Sample.opened_file (Sample.queued 3)) Sample.queued_three

/-- With eight requests in the queue `fo_send` waits for one that is not. -/
theorem request_not_queued : ∃ env reply call acc reg,
    ∃ w ∈ (foSendAlone env reply call acc (.start reg)).2.waits, w.1.val ∉ w.2 := by
  have hwaits : ((foSendAlone Sample.foEnv id Sample.seek Sample.file
      (.start (Sample.opened (Sample.queued 8)))).2.waits.map fun w => (w.1.val, w.2))
        = [(4096, [8192, 8193, 8194, 8195, 8196, 8197, 8198, 8199])] := by
    decide +kernel
  refine ⟨Sample.foEnv, id, Sample.seek, Sample.file, Sample.opened (Sample.queued 8), ?_⟩
  obtain ⟨w, hw, heq⟩ := List.mem_map.mp (hwaits.symm ▸ List.mem_cons_self)
  refine ⟨w, hw, ?_⟩
  obtain ⟨hreq, hqueue⟩ := Prod.mk.inj heq
  rw [hreq, hqueue]
  decide

end Netdev.Kernel
