-- SUMMARY: Sequence numbers under concurrency: two atomic operations give a number, and it is stored after the request is in its queue.
import Netdev.Base.System
import Netdev.Kernel.Module

/-!
# Sequence numbers

Any number of calls of `fo_send` run on one device, and reply threads search the
queues. `ndmgm_incseq` is split into its `atomic_inc` and its `atomic_read`. A
request is identified by the call that has allocated it.
-/

namespace Netdev.Kernel
open Base

/-! ## `fo_send` with `ndmgm_incseq` in two steps -/

inductive SeqOp where
  | atomicInc (nddata : DevId)
  | atomicRead (nddata : DevId)
  | fo (op : FoOp)

abbrev SeqOp.Res : SeqOp → Type
  | .atomicInc _ => Unit
  | .atomicRead _ => Int32
  | .fo op => op.Res

abbrev SeqI : Interface := ⟨SeqOp, SeqOp.Res⟩

abbrev SeqM := Prog SeqI

abbrev sq (op : SeqOp) : SeqM op.Res := Prog.perform (I := SeqI) op

def FoOp.split : (op : FoOp) → SeqM op.Res
  | .incseq nddata => do
      sq (.atomicInc nddata)
      sq (.atomicRead nddata)
  | op => sq (.fo op)

def foSendSplit (call : FoCall) (acc : AccRef) : SeqM Int32 := (foSend call acc).translate FoOp.split

/-! ## How far a call is -/

/-- `req` is the local variable of `fo_send`. -/
inductive SendPhase where
  | start
  | queued (req : Addr)
  | incremented (req : Addr)
  | numbered (req : Addr) (seq : Int32)
  | stored (req : Addr) (seq : Int32)
  | finished
  deriving DecidableEq

namespace SendPhase

def req : SendPhase → Option Addr
  | .queued req => some req
  | .incremented req => some req
  | .numbered req _ => some req
  | .stored req _ => some req
  | _ => none

/-- The phase after an operation. -/
def after (ph : SendPhase) : (op : SeqOp) → op.Res → SendPhase
  | .atomicInc _, _ =>
      match ph with
      | .queued req => .incremented req
      | ph => ph
  | .atomicRead _, seq =>
      match ph with
      | .incremented req => .numbered req seq
      | ph => ph
  | .fo (.newReq ..), r =>
      match r with
      | some req => .queued req
      | none => ph
  | .fo (.setSeq ..), _ =>
      match ph with
      | .numbered req seq => .stored req seq
      | ph => ph
  | .fo (.freeReq _ (some _)), _ => .finished
  | _, _ => ph

end SendPhase

/-- The operations that touch neither requests nor the counter. -/
def FoOp.Silent : FoOp → Prop
  | .enter => True
  | .active _ => True
  | .get _ => True
  | .put _ => True
  | .kzalloc => True
  | .wait _ => True
  | .freeReq _ none => True
  | .accDestroy _ => True
  | _ => False

/-- The order of the operations of `fo_send`. -/
def SeqOp.Allowed (ph : SendPhase) : SeqOp → Prop
  | .atomicInc _ => ∃ req, ph = .queued req
  | .atomicRead _ => ∃ req, ph = .incremented req
  | .fo (.newReq ..) => ph = .start
  | .fo (.foreqAdd _ req) => ph = .queued req
  | .fo (.setSeq req seq) => ph = .numbered req seq
  | .fo (.netlinkSend _) => ∃ req seq, ph = .stored req seq
  | .fo (.freeReq _ (some req)) => ph.req = some req.val
  | .fo op => op.Silent

/-- The program performs its operations in that order. -/
def Follows {α : Type} : SendPhase → SeqM α → Prop
  | _, .ret _ => True
  | ph, .call op k => op.Allowed ph ∧ ∀ r, Follows (ph.after op r) (k r)

/-- The end of `fo_send` frees the request that there is. -/
theorem foSendOut_follows (call : FoCall) (acc : AccRef) (req : Option ReqPtr) (rvalue : Int32)
    {ph : SendPhase} (hreq : ∀ p, req = some p → ph.req = some p.val) :
    Follows ph ((foSendOut call acc req rvalue).translate FoOp.split) := by
  have hfree : (SeqOp.fo (.freeReq acc req)).Allowed ph := by
    cases req with
    | none => trivial
    | some p => exact hreq p rfl
  refine ⟨trivial, fun _ => ⟨hfree, fun _ => ?_⟩⟩
  by_cases hrelease : call.msgtype = MSGT_FO_RELEASE.toInt16
  · simp only [hrelease, if_true]
    exact ⟨trivial, fun _ => trivial⟩
  · simp only [hrelease, if_false]
    trivial

theorem foSendSplit_follows (call : FoCall) (acc : AccRef) :
    Follows .start (foSendSplit call acc) := by
  have hout : ∀ (p : ReqPtr) {ph : SendPhase}, ph.req = some p.val → ∀ rvalue,
      Follows ph ((foSendOut call acc (some p) rvalue).translate FoOp.split) := by
    intro p ph hreq rvalue
    refine foSendOut_follows call acc (some p) rvalue fun q hq => ?_
    cases hq
    exact hreq
  refine ⟨trivial, fun _ => ⟨trivial, fun active => ?_⟩⟩
  cases active with
  | false => trivial
  | true =>
      refine ⟨trivial, fun _ => ⟨rfl, fun req => ?_⟩⟩
      cases req with
      | none => exact foSendOut_follows call acc none (-ENOMEM) fun p hp => nomatch hp
      | some req =>
          refine ⟨rfl, fun _ => ⟨trivial, fun ok => ?_⟩⟩
          cases ok with
          | false => exact hout req rfl (-ENODATA)
          | true =>
              refine ⟨⟨req, rfl⟩, fun _ => ⟨⟨req, rfl⟩, fun seq => ⟨rfl, fun _ => ?_⟩⟩⟩
              by_cases hseq : seq = 0
              · subst hseq
                exact hout req rfl (-EBUSY)
              · simp only [hseq, if_false]
                refine ⟨⟨req, seq, rfl⟩, fun (sent : Int32) => ?_⟩
                change Follows (.stored req seq) (Prog.translate FoOp.split
                  ((if sent < 0 then return -ECANCELED else fo (.wait req)) >>=
                    foSendOut call acc (some req)))
                by_cases hsent : sent < 0
                · rw [if_pos hsent]
                  exact @hout req (.stored req seq) rfl (-ECANCELED)
                · rw [if_neg hsent]
                  exact ⟨trivial, fun rvalue => @hout req (.stored req seq) rfl rvalue⟩

/-! ## The state -/

/-- What a search has compared: the call that owns the request, if it is not freed,
and the content of `seq`. -/
structure Comparison where
  owner : Option Nat
  seq : Int64

/-- Calls of `fo_send` are numbered. `owner` is the call that has a piece of memory.
No code looks at `phase`, nor at the history: `incs` are the calls that have counted,
in order, `number` what `ndmgm_incseq` has returned, and `sent` and `compared` the
messages and the comparisons so far. -/
structure SeqState where
  next : Nat
  prog : Nat → SeqM Int32
  phase : Nat → SendPhase
  curseq : Int32
  reqs : Requests
  owner : Addr → Option Nat
  accs : AccRef → FoAccess
  incs : List Nat
  number : Nat → Option Int32
  sent : List (Nat × Int32)
  compared : List Comparison

namespace SeqState

def initial (reqs : Requests) : SeqState where
  next := 0
  prog _ := .ret 0
  phase _ := .start
  curseq := 0
  reqs := reqs
  owner _ := none
  accs _ := .fresh
  incs := []
  number _ := none
  sent := []
  compared := []

/-- A new call. -/
def start (s : SeqState) (prog : SeqM Int32) : SeqState :=
  { s with next := s.next + 1, prog := Function.update s.prog s.next prog }

/-- A call goes on. -/
def goOn (s : SeqState) (t : Nat) (phase : SendPhase) (prog : SeqM Int32) : SeqState :=
  { s with phase := Function.update s.phase t phase, prog := Function.update s.prog t prog }

end SeqState

/-- The request that a search compares: the first one in the queue. -/
def FoAccess.compares (trylock : Bool) (acc : FoAccess) : Option Addr :=
  if trylock && !acc.held then acc.pending.head? else none

/-! ## Steps -/

/-- What an operation of call `t` does, with every answer that it may get. Memory from
the pool is in no other use and keeps its old content in `seq`. -/
inductive SeqEffect (t : Nat) (s : SeqState) : Event SeqI → SeqState → Prop where
  | atomicInc {d : DevId} :
      SeqEffect t s ⟨.atomicInc d, ()⟩ { s with curseq := s.curseq + 1, incs := s.incs ++ [t] }
  | atomicRead {d : DevId} :
      SeqEffect t s ⟨.atomicRead d, s.curseq⟩
        { s with number := Function.update s.number t (some s.curseq) }
  | newReq {acc : AccRef} {call : FoCall} {req : ReqPtr} {accessId : Int32} {stale : Int64}
      (hfree : s.owner req = none) :
      SeqEffect t s ⟨.fo (.newReq acc call), some req⟩
        { s with
          reqs := Function.update s.reqs req ⟨call.request accessId stale, 0⟩
          owner := Function.update s.owner req (some t) }
  | noReq {acc : AccRef} {call : FoCall} : SeqEffect t s ⟨.fo (.newReq acc call), none⟩ s
  | foreqAdd {acc : AccRef} {req : ReqPtr} {trylock : Bool} {rvalue : Int32} {queue : FoAccess}
      (hadd : foAccForeqAdd trylock (s.accs acc) req = (rvalue, queue)) :
      SeqEffect t s ⟨.fo (.foreqAdd acc req), rvalue⟩
        { s with accs := Function.update s.accs acc queue }
  | setSeq {req : ReqPtr} {seq : Int32} :
      SeqEffect t s ⟨.fo (.setSeq req seq), ()⟩
        { s with
          reqs := Function.update s.reqs req
            { s.reqs req with req := { (s.reqs req).req with seq := seq.toInt64 } } }
  | netlinkSend {d : DevId} {req : Addr} {rvalue : Int32} (hreq : (s.phase t).req = some req)
      (hrvalue : 0 ≤ rvalue) :
      -- the message is numbered with `req->seq`
      SeqEffect t s ⟨.fo (.netlinkSend d), rvalue⟩
        { s with sent := s.sent ++ [(t, (s.reqs req).req.seq.toInt32)] }
  | notSent {d : DevId} {rvalue : Int32} (hrvalue : rvalue < 0) :
      SeqEffect t s ⟨.fo (.netlinkSend d), rvalue⟩ s
  | freeReq {acc : AccRef} {req : ReqPtr} :
      SeqEffect t s ⟨.fo (.freeReq acc (some req)), ()⟩
        { s with owner := Function.update s.owner req none }
  | silent {op : FoOp} {r : op.Res} (hsilent : op.Silent) : SeqEffect t s ⟨.fo op, r⟩ s

inductive SeqLabel where
  | send (call : FoCall) (acc : AccRef)
  | perform (t : Nat)
  | find (acc : AccRef) (trylock : Bool) (seq : Int32)

/-- Nothing but `fo_send` writes the `seq` of a request. -/
inductive SeqStep (d : DevId) : SeqState → SeqLabel → SeqState → Prop where
  | send {s : SeqState} {call : FoCall} {acc : AccRef} (hacc : acc.nddata = d) :
      SeqStep d s (.send call acc) (s.start (foSendSplit call acc))
  | perform {s s' : SeqState} {t : Nat} {op : SeqOp} {k : op.Res → SeqM Int32} {r : op.Res}
      (hprog : s.prog t = .call op k) (heffect : SeqEffect t s ⟨op, r⟩ s') :
      SeqStep d s (.perform t) (s'.goOn t ((s.phase t).after op r) (k r))
  | find {s : SeqState} {acc : AccRef} {trylock : Bool} {seq : Int32} {tmp : Option Addr}
      {queue : FoAccess} (hfind : foAccForeqFind trylock s.reqs (s.accs acc) seq = some (tmp, queue)) :
      SeqStep d s (.find acc trylock seq)
        { s with
          accs := Function.update s.accs acc queue
          compared := s.compared ++ (((s.accs acc).compares trylock).map fun p =>
            (⟨s.owner p, (s.reqs p).req.seq⟩ : Comparison)).toList }

/-- The calls on the device `d`, with any old content of the memory. -/
def seqSystem (d : DevId) : System SeqState SeqLabel where
  init s := ∃ reqs, s = .initial reqs
  step := SeqStep d

/-! ## The property and its condition -/

/-- Different requests were sent with different numbers, and every comparison was of
the number that is sent for the request, now or later. -/
structure Identified (s : SeqState) : Prop where
  distinct : ∀ t u seq, (t, seq) ∈ s.sent → (u, seq) ∈ s.sent → t = u
  sent : ∀ t seq, (t, seq) ∈ s.sent → s.number t = some seq
  compared : ∀ c ∈ s.compared, ∃ t seq, c.owner = some t ∧ s.number t = some seq ∧
    c.seq = seq.toInt64

/-- The `fo_send` that owns the request has stored its number. -/
def SeqState.Stored (s : SeqState) (p : Addr) : Prop :=
  ∃ t seq, s.owner p = some t ∧ s.phase t = .stored p seq

/-- No call counts while another one has counted and not read, and no search meets a
request without its number. -/
def Undisturbed (s : SeqState) : SeqLabel → Prop
  | .send .. => True
  | .perform t => ∀ d k, s.prog t = .call (.atomicInc d) k → ∀ u req, s.phase u ≠ .incremented req
  | .find acc trylock _ => ∀ p, (s.accs acc).compares trylock = some p → s.Stored p

/-! ## The invariant -/

/-- What a call knows in each phase. -/
def SendPhase.Knows (s : SeqState) (t : Nat) : SendPhase → Prop
  | .start => t ∉ s.incs
  | .queued req => s.owner req = some t ∧ t ∉ s.incs
  | .incremented req => s.owner req = some t ∧ s.number t = none ∧ ∃ before, s.incs = before ++ [t]
  | .numbered req seq => s.owner req = some t ∧ s.number t = some seq
  | .stored req seq => s.owner req = some t ∧ s.number t = some seq ∧
      (s.reqs req).req.seq = seq.toInt64
  | .finished => True

structure Numbering (s : SeqState) : Prop where
  follows : ∀ t, Follows (s.phase t) (s.prog t)
  knows : ∀ t, (s.phase t).Knows s t
  fresh : ∀ t, s.next ≤ t → s.phase t = .start ∧ s.prog t = .ret 0
  curseq : s.curseq = Int32.ofNat s.incs.length
  nodup : s.incs.Nodup
  bound : ∀ t ∈ s.incs, t < s.next
  number : ∀ t seq, s.number t = some seq → ∃ i, s.incs[i]? = some t ∧ seq = Int32.ofNat (i + 1)
  sent : ∀ t seq, (t, seq) ∈ s.sent → s.number t = some seq
  compared : ∀ c ∈ s.compared, ∃ t seq, c.owner = some t ∧ s.number t = some seq ∧
    c.seq = seq.toInt64

theorem Int32.ofNat_inj {m n : Nat} (hm : m < 2 ^ 31) (hn : n < 2 ^ 31)
    (h : Int32.ofNat m = Int32.ofNat n) : m = n := by
  have hint := congrArg Int32.toInt h
  rw [Int32.toInt_ofNat_of_lt hm, Int32.toInt_ofNat_of_lt hn] at hint
  exact Int.ofNat_inj.mp hint

namespace SendPhase
variable {s s' : SeqState} {t : Nat} {ph : SendPhase}

theorem Knows.owner (h : ph.Knows s t) {req : Addr} (hreq : ph.req = some req) :
    s.owner req = some t := by
  cases ph with
  | start => cases hreq
  | finished => cases hreq
  | queued req' =>
      obtain rfl : req' = req := Option.some.inj hreq
      exact h.1
  | incremented req' =>
      obtain rfl : req' = req := Option.some.inj hreq
      exact h.1
  | numbered req' seq =>
      obtain rfl : req' = req := Option.some.inj hreq
      exact h.1
  | stored req' seq =>
      obtain rfl : req' = req := Option.some.inj hreq
      exact h.1

/-- What others do to their own requests leaves it true. -/
theorem Knows.frame (h : ph.Knows s t) (hincs : t ∉ s.incs → t ∉ s'.incs)
    (hlast : ∀ req, ph = .incremented req → s'.incs = s.incs) (hnumber : s'.number t = s.number t)
    (howner : ∀ req, s.owner req = some t →
      s'.owner req = some t ∧ (s'.reqs req).req.seq = (s.reqs req).req.seq) : ph.Knows s' t := by
  cases ph with
  | start => exact hincs h
  | queued req => exact ⟨(howner req h.1).1, hincs h.2⟩
  | incremented req =>
      obtain ⟨hreq, hnone, before, hbefore⟩ := h
      exact ⟨(howner req hreq).1, hnumber.trans hnone, before, (hlast req rfl).trans hbefore⟩
  | numbered req seq => exact ⟨(howner req h.1).1, hnumber.trans h.2⟩
  | stored req seq =>
      exact ⟨(howner req h.1).1, hnumber.trans h.2.1, (howner req h.1).2.trans h.2.2⟩
  | finished => trivial

theorem after_silent (ph : SendPhase) {op : FoOp} (hsilent : op.Silent) (r : op.Res) :
    ph.after (.fo op) r = ph := by
  cases op with
  | freeReq acc req =>
      cases req with
      | none => rfl
      | some req => exact hsilent.elim
  | newReq acc call => exact hsilent.elim
  | setSeq req seq => exact hsilent.elim
  | _ => rfl

end SendPhase

namespace Numbering
variable {d : DevId} {s s' : SeqState} {t u : Nat} {op : SeqOp} {k : op.Res → SeqM Int32} {r : op.Res}

theorem incs_length (h : Numbering s) : s.incs.length ≤ s.next := by
  have hsub : s.incs ⊆ List.range s.next := fun t ht => List.mem_range.mpr (h.bound t ht)
  have hle := (List.subperm_of_subset h.nodup hsub).length_le
  rw [List.length_range] at hle
  exact hle

theorem identified (h : Numbering s) (hfew : s.next < 2 ^ 31) : Identified s where
  distinct t u seq ht hu := by
    have hlength := h.incs_length
    obtain ⟨i, hi, rfl⟩ := h.number t seq (h.sent t seq ht)
    obtain ⟨j, hj, hij⟩ := h.number u _ (h.sent u _ hu)
    have hi' := (List.getElem?_eq_some_iff.mp hi).1
    have hj' := (List.getElem?_eq_some_iff.mp hj).1
    obtain rfl : i = j := Nat.succ.inj (Int32.ofNat_inj (by omega) (by omega) hij)
    exact Option.some.inj (hi.symm.trans hj)
  sent := h.sent
  compared := h.compared

/-! ## An operation keeps it -/

theorem allowed (h : Numbering s) (hprog : s.prog t = .call op k) : op.Allowed (s.phase t) := by
  have hfollows := h.follows t
  rw [hprog] at hfollows
  exact hfollows.1

theorem lt_next (h : Numbering s) (hprog : s.prog t = .call op k) : t < s.next := by
  by_contra hge
  have hidle := (h.fresh t (Nat.not_lt.mp hge)).2
  rw [hprog] at hidle
  cases hidle

theorem number_of_not_mem (h : Numbering s) (ht : t ∉ s.incs) : s.number t = none := by
  cases hnumber : s.number t with
  | none => rfl
  | some seq =>
      obtain ⟨i, hi, -⟩ := h.number t seq hnumber
      exact absurd (List.mem_of_getElem? hi) ht

/-- Nobody loses a number that it has. -/
theorem number_mono (h : Numbering s) (hprog : s.prog t = .call op k)
    (heffect : SeqEffect t s ⟨op, r⟩ s') {seq : Int32} (hu : s.number u = some seq) :
    s'.number u = some seq := by
  have hallowed := h.allowed hprog
  cases heffect with
  | atomicRead =>
      obtain ⟨req, hphase⟩ := hallowed
      have hknows := h.knows t
      rw [hphase] at hknows
      have hne : u ≠ t := by
        rintro rfl
        exact absurd (hknows.2.1.symm.trans hu) (Option.some_ne_none seq).symm
      exact (Function.update_of_ne hne _ _).trans hu
  | _ => exact hu

/-- The other calls know what they knew. -/
theorem knows_other (h : Numbering s) (hprog : s.prog t = .call op k)
    (heffect : SeqEffect t s ⟨op, r⟩ s') (hu : u ≠ t)
    (halone : ∀ d, op = .atomicInc d → ∀ req, s.phase u ≠ .incremented req) :
    (s.phase u).Knows s' u := by
  have hallowed := h.allowed hprog
  have hself := h.knows t
  have hother : ∀ req, s.owner req = some t → ∀ req', s.owner req' = some u → req' ≠ req := by
    rintro req ht req' hreq' rfl
    exact hu (Option.some.inj (hreq'.symm.trans ht))
  refine (h.knows u).frame ?_ ?_ ?_ ?_
  · intro hmem
    cases heffect with
    | atomicInc =>
        rw [List.mem_append, List.mem_singleton]
        exact not_or.mpr ⟨hmem, hu⟩
    | _ => exact hmem
  · intro req hreq
    cases heffect with
    | @atomicInc d => exact absurd hreq (halone d rfl req)
    | _ => rfl
  · cases heffect with
    | atomicRead => exact Function.update_of_ne hu _ _
    | _ => rfl
  · intro req hreq
    cases heffect with
    | @newReq acc call req' accessId stale hfree =>
        have hne : req ≠ req' := by
          rintro rfl
          exact absurd (hfree.symm.trans hreq) (Option.some_ne_none u).symm
        simp only [Function.update_of_ne hne]
        exact ⟨hreq, trivial⟩
    | @setSeq req' seq =>
        have hphase : s.phase t = .numbered req' seq := hallowed
        rw [hphase] at hself
        simp only [Function.update_of_ne (hother req' hself.1 req hreq)]
        exact ⟨hreq, trivial⟩
    | @freeReq acc req' =>
        have hown := hself.owner hallowed
        simp only [Function.update_of_ne (hother req' hown req hreq)]
        exact ⟨hreq, trivial⟩
    | _ => exact ⟨hreq, rfl⟩

/-- The call itself knows what its next phase asks for. -/
theorem knows_self (h : Numbering s) (hprog : s.prog t = .call op k)
    (heffect : SeqEffect t s ⟨op, r⟩ s') : ((s.phase t).after op r).Knows s' t := by
  have hallowed := h.allowed hprog
  have hself := h.knows t
  cases heffect with
  | atomicInc =>
      obtain ⟨req, hphase⟩ := hallowed
      rw [hphase] at hself ⊢
      exact ⟨hself.1, h.number_of_not_mem hself.2, s.incs, rfl⟩
  | atomicRead =>
      obtain ⟨req, hphase⟩ := hallowed
      rw [hphase] at hself ⊢
      exact ⟨hself.1, Function.update_self _ _ _⟩
  | newReq hfree =>
      have hphase : s.phase t = .start := hallowed
      rw [hphase] at hself
      exact ⟨Function.update_self _ _ _, hself⟩
  | noReq => exact hself
  | foreqAdd => exact hself
  | @setSeq req seq =>
      have hphase : s.phase t = .numbered req seq := hallowed
      rw [hphase] at hself ⊢
      refine ⟨hself.1, hself.2, ?_⟩
      simp only [Function.update_self]
  | netlinkSend => exact hself
  | notSent => exact hself
  | freeReq => trivial
  | silent hsilent =>
      rw [SendPhase.after_silent _ hsilent]
      exact hself

theorem number_effect (h : Numbering s) (hprog : s.prog t = .call op k)
    (heffect : SeqEffect t s ⟨op, r⟩ s') (u : Nat) (seq : Int32) (hu : s'.number u = some seq) :
    ∃ i, s'.incs[i]? = some u ∧ seq = Int32.ofNat (i + 1) := by
  have hallowed := h.allowed hprog
  have hself := h.knows t
  cases heffect with
  | atomicInc =>
      obtain ⟨i, hi, hseq⟩ := h.number u seq hu
      exact ⟨i, List.getElem?_append_left (List.getElem?_eq_some_iff.mp hi).1 ▸ hi, hseq⟩
  | atomicRead =>
      by_cases hne : u = t
      · -- the last one that has counted is the reader
        subst hne
        obtain ⟨req, hphase⟩ := hallowed
        rw [hphase] at hself
        obtain ⟨-, -, before, hbefore⟩ := hself
        simp only [Function.update_self, Option.some.injEq] at hu
        refine ⟨before.length, ?_, ?_⟩
        · rw [hbefore, List.getElem?_concat_length]
        · rw [← hu, h.curseq, hbefore, List.length_append, List.length_singleton]
      · simp only [Function.update_of_ne hne] at hu
        exact h.number u seq hu
  | _ => exact h.number u seq hu

theorem sent_effect (h : Numbering s) (hprog : s.prog t = .call op k)
    (heffect : SeqEffect t s ⟨op, r⟩ s') (u : Nat) (seq : Int32) (hu : (u, seq) ∈ s'.sent) :
    s'.number u = some seq := by
  have hmono : s.number u = some seq → s'.number u = some seq :=
    fun h' => h.number_mono hprog heffect h'
  have hallowed := h.allowed hprog
  have hself := h.knows t
  cases heffect with
  | @netlinkSend d req rvalue hreq hrvalue =>
      rcases List.mem_append.mp hu with hu | hu
      · exact h.sent u seq hu
      · obtain ⟨req', n, hphase⟩ := hallowed
        rw [hphase] at hself hreq
        obtain rfl : req' = req := Option.some.inj hreq
        have hmessage : (s.reqs req').req.seq.toInt32 = n := by
          rw [hself.2.2]
          simp
        obtain ⟨rfl, rfl⟩ := Prod.mk.inj (List.mem_singleton.mp hu)
        rw [hmessage]
        exact hself.2.1
  | _ => exact hmono (h.sent u seq hu)

theorem perform (h : Numbering s) (hprog : s.prog t = .call op k)
    (heffect : SeqEffect t s ⟨op, r⟩ s')
    (halone : ∀ d, op = .atomicInc d → ∀ u req, s.phase u ≠ .incremented req) :
    Numbering (s'.goOn t ((s.phase t).after op r) (k r)) := by
  have hlt := h.lt_next hprog
  have hfollows := h.follows t
  rw [hprog] at hfollows
  have hknows := h.knows_self hprog heffect
  have hothers : ∀ u, u ≠ t → (s.phase u).Knows s' u := fun u hu =>
    h.knows_other hprog heffect hu fun d hop req => halone d hop u req
  have hsame : s'.phase = s.phase ∧ s'.prog = s.prog ∧ s'.next = s.next := by
    cases heffect with
    | _ => exact ⟨rfl, rfl, rfl⟩
  obtain ⟨hphase, hprogs, hnext⟩ := hsame
  refine ⟨fun u => ?_, fun u => ?_, fun u hu => ?_, ?_, ?_, fun u hu => ?_,
    fun u seq hu => h.number_effect hprog heffect u seq hu,
    fun u seq hu => h.sent_effect hprog heffect u seq hu, fun c hc => ?_⟩
  · by_cases hu : u = t
    · subst hu
      simp only [SeqState.goOn, Function.update_self]
      exact hfollows.2 r
    · simp only [SeqState.goOn, Function.update_of_ne hu, hphase, hprogs]
      exact h.follows u
  · by_cases hu : u = t
    · subst hu
      simp only [SeqState.goOn, Function.update_self]
      exact hknows
    · simp only [SeqState.goOn, Function.update_of_ne hu, hphase]
      exact hothers u hu
  · have hu' : s.next ≤ u := hnext ▸ hu
    have hne : u ≠ t := fun heq => absurd hu' (Nat.not_le.mpr (heq ▸ hlt))
    simp only [SeqState.goOn, Function.update_of_ne hne, hphase, hprogs]
    exact h.fresh u hu'
  · cases heffect with
    | atomicInc =>
        simp only [SeqState.goOn, List.length_append, List.length_singleton, Int32.ofNat_add, h.curseq]
        rfl
    | _ => exact h.curseq
  · have hself := h.knows t
    have hallowed := h.allowed hprog
    cases heffect with
    | atomicInc =>
        obtain ⟨req, hqueued⟩ := hallowed
        rw [hqueued] at hself
        refine List.nodup_append.mpr ⟨h.nodup, List.nodup_singleton t, fun x hx y hy heq => ?_⟩
        obtain rfl := List.mem_singleton.mp hy
        exact hself.2 (heq ▸ hx)
    | _ => exact h.nodup
  · cases heffect with
    | atomicInc =>
        rcases List.mem_append.mp hu with hu | hu
        · exact h.bound u hu
        · exact List.mem_singleton.mp hu ▸ hlt
    | _ => exact h.bound u hu
  · have hsame : s'.compared = s.compared := by
      cases heffect with
      | _ => rfl
    obtain ⟨u, seq, howner, hnumber, hseq⟩ := h.compared c (hsame ▸ hc)
    exact ⟨u, seq, howner, h.number_mono hprog heffect hnumber, hseq⟩

/-! ## Every run -/

/-- What the calls know does not depend on the programs and the queues. -/
theorem start (h : Numbering s) {prog : SeqM Int32} (hprog : Follows .start prog) :
    Numbering (s.start prog) where
  follows t := by
    by_cases ht : t = s.next
    · subst ht
      simp only [SeqState.start, Function.update_self, (h.fresh s.next le_rfl).1]
      exact hprog
    · simp only [SeqState.start, Function.update_of_ne ht]
      exact h.follows t
  knows t := (h.knows t).frame id (fun _ _ => rfl) rfl fun _ hreq => ⟨hreq, rfl⟩
  fresh t ht := by
    have hlt : s.next < t := ht
    simp only [SeqState.start, Function.update_of_ne hlt.ne']
    exact h.fresh t hlt.le
  curseq := h.curseq
  nodup := h.nodup
  bound t ht := Nat.lt_succ_of_lt (h.bound t ht)
  number := h.number
  sent := h.sent
  compared := h.compared

theorem find (h : Numbering s) {accs : AccRef → FoAccess} {p : Option Addr}
    (hstored : ∀ q, p = some q → s.Stored q) :
    Numbering { s with
      accs := accs
      compared := s.compared ++ (p.map fun q =>
        (⟨s.owner q, (s.reqs q).req.seq⟩ : Comparison)).toList } where
  follows := h.follows
  knows t := (h.knows t).frame id (fun _ _ => rfl) rfl fun _ hreq => ⟨hreq, rfl⟩
  fresh := h.fresh
  curseq := h.curseq
  nodup := h.nodup
  bound := h.bound
  number := h.number
  sent := h.sent
  compared c hc := by
    rcases List.mem_append.mp hc with hc | hc
    · exact h.compared c hc
    · cases p with
      | none => exact absurd hc List.not_mem_nil
      | some q =>
          obtain rfl := List.mem_singleton.mp hc
          obtain ⟨t, seq, howner, hphase⟩ := hstored q rfl
          have hknows := h.knows t
          rw [hphase] at hknows
          exact ⟨t, seq, howner, hknows.2.1, hknows.2.2⟩

end Numbering

theorem numbering_invariant (d : DevId) : ((seqSystem d).restrict Undisturbed).Invariant Numbering where
  init s hs := by
    obtain ⟨reqs, rfl⟩ := hs
    exact ⟨fun _ => trivial, fun _ => List.not_mem_nil, fun _ _ => ⟨rfl, rfl⟩, rfl, List.nodup_nil,
      fun _ ht => absurd ht List.not_mem_nil, fun _ _ hn => absurd hn (Option.some_ne_none _).symm,
      fun _ _ hn => absurd hn List.not_mem_nil, fun _ hc => absurd hc List.not_mem_nil⟩
  step s l s' h hstep := by
    obtain ⟨hstep, hcond⟩ := hstep
    cases hstep with
    | @send call acc _ => exact h.start (foSendSplit_follows call acc)
    | perform hprog heffect =>
        refine h.perform hprog heffect fun d hop => ?_
        subst hop
        exact hcond d _ hprog
    | find hfind => exact h.find hcond

/-- Where no call counts between the counting and the reading of another one, and no
search meets a request whose number is not stored yet, the numbers identify the
requests. -/
theorem seq_identifies {d : DevId} {ls : List SeqLabel} {s : SeqState}
    (hrun : ((seqSystem d).restrict Undisturbed).Run ls s) (hfew : s.next < 2 ^ 31) : Identified s :=
  (hrun.invariant (numbering_invariant d)).identified hfew

namespace Sample

def files : AccRef × AccRef := (⟨0, 0⟩, ⟨1, 0⟩)

theorem first_isErr : isErr 4096 = false := by decide

theorem second_isErr : isErr 8192 = false := by decide

def memory : ReqPtr × ReqPtr := (⟨4096, first_isErr⟩, ⟨8192, second_isErr⟩)

/-- `seq` is 5 everywhere. -/
def oldMemory : Requests := fun _ => ⟨seek.request 0 5, 0⟩

end Sample

/-- A search of a queue with one request ends. -/
theorem Sample.search_ends (p : ReqPtr) (seq : Int32) (reqs : Requests) : ∃ tmp queue,
    foAccForeqFind true reqs (foAccForeqAdd true .fresh p).2 seq = some (tmp, queue) := by
  have hqueued := (FoAccess.Queued.fresh.foAccForeqAdd_eq p.property true).2
  obtain ⟨tmp, queue, _, hfind, -⟩ := hqueued.foAccForeqFind true reqs seq
  exact ⟨tmp, queue, hfind⟩

/-- A search that meets the request `p`. -/
theorem SeqStep.meet {d : DevId} {s : SeqState} {acc : AccRef} {seq : Int32} {tmp : Option Addr} {queue : FoAccess}
    {p : Addr} (hfind : foAccForeqFind true s.reqs (s.accs acc) seq = some (tmp, queue))
    (hp : (s.accs acc).compares true = some p) :
    SeqStep d s (.find acc true seq)
      { s with
        accs := Function.update s.accs acc queue
        compared := s.compared ++ [⟨s.owner p, (s.reqs p).req.seq⟩] } := by
  have h := @SeqStep.find d s acc true seq tmp queue hfind
  rw [hp] at h
  exact h

/-- Two processes are in `fo_send` at once and count one after the other: each of their
requests is compared with the number that was sent for it. -/
theorem seq_identifies_overlapping : ∃ ls s, ((seqSystem 0).restrict Undisturbed).Run ls s ∧
    s.sent = [(0, 1), (1, 2)] ∧ s.compared = [⟨some 0, 1⟩, ⟨some 1, 2⟩] ∧ Identified s := by
  have hfirst : (foAccForeqAdd true .fresh Sample.memory.1).2.compares true = some Sample.memory.1.val := by
    decide
  have hsecond : (foAccForeqAdd true .fresh Sample.memory.2).2.compares true = some Sample.memory.2.val := by
    decide
  have r := (System.Run.init ⟨Sample.oldMemory, rfl⟩ : ((seqSystem 0).restrict Undisturbed).Run [] _)
  have r := r.step ⟨@SeqStep.send 0 _ Sample.seek Sample.files.1 rfl, trivial⟩
  have r := r.step ⟨@SeqStep.send 0 _ Sample.seek Sample.files.2 rfl, trivial⟩
  -- the first one queues its request
  have r := r.step ⟨SeqStep.perform (t := 0) (r := ()) rfl (.silent trivial), fun _ _ h => nomatch h⟩
  have r := r.step ⟨SeqStep.perform (t := 0) (r := true) rfl (.silent trivial), fun _ _ h => nomatch h⟩
  have r := r.step ⟨SeqStep.perform (t := 0) (r := ()) rfl (.silent trivial), fun _ _ h => nomatch h⟩
  have r := r.step ⟨SeqStep.perform (t := 0) (r := some Sample.memory.1) rfl
    (@SeqEffect.newReq _ _ _ _ _ 3 5 rfl), fun _ _ h => nomatch h⟩
  have r := r.step ⟨SeqStep.perform (t := 0) rfl (@SeqEffect.foreqAdd _ _ _ _ true _ _ rfl),
    fun _ _ h => nomatch h⟩
  have r := r.step ⟨SeqStep.perform (t := 0) (r := true) rfl (.silent trivial), fun _ _ h => nomatch h⟩
  -- and so does the second one
  have r := r.step ⟨SeqStep.perform (t := 1) (r := ()) rfl (.silent trivial), fun _ _ h => nomatch h⟩
  have r := r.step ⟨SeqStep.perform (t := 1) (r := true) rfl (.silent trivial), fun _ _ h => nomatch h⟩
  have r := r.step ⟨SeqStep.perform (t := 1) (r := ()) rfl (.silent trivial), fun _ _ h => nomatch h⟩
  have r := r.step ⟨SeqStep.perform (t := 1) (r := some Sample.memory.2) rfl
    (@SeqEffect.newReq _ _ _ _ _ 4 5 rfl), fun _ _ h => nomatch h⟩
  have r := r.step ⟨SeqStep.perform (t := 1) rfl (@SeqEffect.foreqAdd _ _ _ _ true _ _ rfl),
    fun _ _ h => nomatch h⟩
  have r := r.step ⟨SeqStep.perform (t := 1) (r := true) rfl (.silent trivial), fun _ _ h => nomatch h⟩
  -- the first one counts and reads, then the second one
  have r := r.step ⟨SeqStep.perform (t := 0) rfl .atomicInc, fun _ _ _ u req hphase => by
    rcases u with _ | _ | u
    · cases hphase
    · cases hphase
    · cases hphase⟩
  have r := r.step ⟨SeqStep.perform (t := 0) rfl .atomicRead, fun _ _ h => nomatch h⟩
  have r := r.step ⟨SeqStep.perform (t := 1) rfl .atomicInc, fun _ _ _ u req hphase => by
    rcases u with _ | _ | u
    · cases hphase
    · cases hphase
    · cases hphase⟩
  have r := r.step ⟨SeqStep.perform (t := 1) rfl .atomicRead, fun _ _ h => nomatch h⟩
  have r := r.step ⟨SeqStep.perform (t := 0) rfl .setSeq, fun _ _ h => nomatch h⟩
  have r := r.step ⟨SeqStep.perform (t := 1) rfl .setSeq, fun _ _ h => nomatch h⟩
  have r := r.step ⟨SeqStep.perform (t := 0) (r := 0) rfl (.netlinkSend rfl (by decide)),
    fun _ _ h => nomatch h⟩
  have r := r.step ⟨SeqStep.perform (t := 1) (r := 0) rfl (.netlinkSend rfl (by decide)),
    fun _ _ h => nomatch h⟩
  -- a reply thread searches each queue
  have hends := Sample.search_ends
  have r := r.step ⟨@SeqStep.meet 0 _ Sample.files.1 1 _ _ _ (hends _ _ _).choose_spec.choose_spec hfirst,
    fun p hp => by
      rw [← Option.some.inj (hfirst.symm.trans hp)]
      exact ⟨0, 1, rfl, rfl⟩⟩
  have r := r.step ⟨@SeqStep.meet 0 _ Sample.files.2 2 _ _ _ (hends _ _ _).choose_spec.choose_spec hsecond,
    fun p hp => by
      rw [← Option.some.inj (hsecond.symm.trans hp)]
      exact ⟨1, 2, rfl, rfl⟩⟩
  exact ⟨_, _, r, rfl, rfl, seq_identifies r (by decide : 2 < 2 ^ 31)⟩

/-! ## Two calls at the same time -/

/-- Two processes seek in their files: both have counted when they read, and both send
with the number 2. -/
theorem seq_shared : ∃ ls s, (seqSystem 0).Run ls s ∧ s.next < 2 ^ 31 ∧
    s.sent = [(0, 2), (1, 2)] ∧ ¬ Identified s := by
  have r := (System.Run.init ⟨Sample.oldMemory, rfl⟩ : (seqSystem 0).Run [] _)
  have r := r.step (@SeqStep.send 0 _ Sample.seek Sample.files.1 rfl)
  have r := r.step (@SeqStep.send 0 _ Sample.seek Sample.files.2 rfl)
  -- the first one queues its request
  have r := r.step (SeqStep.perform (t := 0) (r := ()) rfl (.silent trivial))
  have r := r.step (SeqStep.perform (t := 0) (r := true) rfl (.silent trivial))
  have r := r.step (SeqStep.perform (t := 0) (r := ()) rfl (.silent trivial))
  have r := r.step (SeqStep.perform (t := 0) (r := some Sample.memory.1) rfl
    (@SeqEffect.newReq _ _ _ _ _ 3 5 rfl))
  have r := r.step (SeqStep.perform (t := 0) rfl (@SeqEffect.foreqAdd _ _ _ _ true _ _ rfl))
  have r := r.step (SeqStep.perform (t := 0) (r := true) rfl (.silent trivial))
  -- and so does the second one
  have r := r.step (SeqStep.perform (t := 1) (r := ()) rfl (.silent trivial))
  have r := r.step (SeqStep.perform (t := 1) (r := true) rfl (.silent trivial))
  have r := r.step (SeqStep.perform (t := 1) (r := ()) rfl (.silent trivial))
  have r := r.step (SeqStep.perform (t := 1) (r := some Sample.memory.2) rfl
    (@SeqEffect.newReq _ _ _ _ _ 4 5 rfl))
  have r := r.step (SeqStep.perform (t := 1) rfl (@SeqEffect.foreqAdd _ _ _ _ true _ _ rfl))
  have r := r.step (SeqStep.perform (t := 1) (r := true) rfl (.silent trivial))
  -- both count before one of them reads
  have r := r.step (SeqStep.perform (t := 0) rfl .atomicInc)
  have r := r.step (SeqStep.perform (t := 1) rfl .atomicInc)
  have r := r.step (SeqStep.perform (t := 0) rfl .atomicRead)
  have r := r.step (SeqStep.perform (t := 1) rfl .atomicRead)
  have r := r.step (SeqStep.perform (t := 0) rfl .setSeq)
  have r := r.step (SeqStep.perform (t := 1) rfl .setSeq)
  have r := r.step (SeqStep.perform (t := 0) (r := 0) rfl (.netlinkSend rfl (by decide)))
  have r := r.step (SeqStep.perform (t := 1) (r := 0) rfl (.netlinkSend rfl (by decide)))
  refine ⟨_, _, r, (by decide : 2 < 2 ^ 31), rfl, fun h => ?_⟩
  exact absurd (h.distinct 0 1 2 List.mem_cons_self (List.mem_cons_of_mem _ List.mem_cons_self))
    (by decide)

/-- A reply thread searches for the number 5 while the request of a process still holds
this old number; the request is then sent with the number 1. -/
theorem seq_stale : ∃ ls s, (seqSystem 0).Run ls s ∧ s.next < 2 ^ 31 ∧
    s.sent = [(0, 1)] ∧ s.compared = [⟨some 0, 5⟩] ∧ ¬ Identified s := by
  have r := (System.Run.init ⟨Sample.oldMemory, rfl⟩ : (seqSystem 0).Run [] _)
  have r := r.step (@SeqStep.send 0 _ Sample.seek Sample.files.1 rfl)
  have r := r.step (SeqStep.perform (t := 0) (r := ()) rfl (.silent trivial))
  have r := r.step (SeqStep.perform (t := 0) (r := true) rfl (.silent trivial))
  have r := r.step (SeqStep.perform (t := 0) (r := ()) rfl (.silent trivial))
  have r := r.step (SeqStep.perform (t := 0) (r := some Sample.memory.1) rfl
    (@SeqEffect.newReq _ _ _ _ _ 3 5 rfl))
  have r := r.step (SeqStep.perform (t := 0) rfl (@SeqEffect.foreqAdd _ _ _ _ true _ _ rfl))
  have r := r.step (@SeqStep.find 0 _ Sample.files.1 true 5 _ _ rfl)
  have r := r.step (SeqStep.perform (t := 0) (r := true) rfl (.silent trivial))
  have r := r.step (SeqStep.perform (t := 0) rfl .atomicInc)
  have r := r.step (SeqStep.perform (t := 0) rfl .atomicRead)
  have r := r.step (SeqStep.perform (t := 0) rfl .setSeq)
  have r := r.step (SeqStep.perform (t := 0) (r := 0) rfl (.netlinkSend rfl (by decide)))
  refine ⟨_, _, r, (by decide : 1 < 2 ^ 31), rfl, rfl, fun h => ?_⟩
  obtain ⟨t, seq, howner, hnumber, hseq⟩ := h.compared ⟨some 0, 5⟩ List.mem_cons_self
  obtain rfl : 0 = t := Option.some.inj howner
  obtain rfl : 1 = seq := Option.some.inj hnumber
  exact absurd hseq (by decide)

/-- Both happen on the code as it is. -/
theorem seq_confused :
    (∃ ls s, (seqSystem 0).Run ls s ∧ s.next < 2 ^ 31 ∧ s.sent = [(0, 2), (1, 2)] ∧ ¬ Identified s) ∧
    (∃ ls s, (seqSystem 0).Run ls s ∧ s.next < 2 ^ 31 ∧ s.sent = [(0, 1)] ∧
      s.compared = [⟨some 0, 5⟩] ∧ ¬ Identified s) :=
  ⟨seq_shared, seq_stale⟩

end Netdev.Kernel
