-- SUMMARY: What references `fo_send` and `fo_recv` hold on their way, and that they end with none but for two exits of `fo_recv`.
import Mathlib.Algebra.Order.Pi
import Netdev.Kernel.Module

/-!
# References held by tasks

A task is judged by its own operations and their answers, so that others may run
between them. It never drops a reference that it has not taken.
-/

namespace Netdev.Kernel
open Base

/-! ## What a task holds -/

/-- A task on its way: what it holds, and whether it has given up in `fo_recv` without
dropping its reference. -/
structure Local where
  held : DevId → Int
  started : Bool
  lost : Bool

/-- The early exits of `fo_recv`: no open file for the message, or no memory for a new
one. -/
def Task.loses : Task → Event FoI → Bool
  | .recv nlh, ⟨.findAcc _ _, none⟩ => nlh.msgtype ≠ MSGT_FO_OPEN
  | .recv _, ⟨.accStart _ _, none⟩ => true
  | _, _ => false

def Local.after (task : Task) (l : Local) (e : Event FoI) : Local :=
  ⟨l.held + e.1.hold, l.started || e.1.starts, l.lost || task.loses e⟩

/-- No reference is dropped that was not taken, and none taken outside of `fo_send` and
`fo_recv`. -/
structure Local.Fair (l : Local) : Prop where
  nonneg : 0 ≤ l.held
  started : l.started = false → l.held = 0

/-- At the end nothing is held but by an early exit. -/
structure Local.Done (l : Local) : Prop extends l.Fair where
  lost : l.lost = false → l.held = 0

/-- The rest of a task is fair and ends with nothing. -/
def Task.Proper (task : Task) (prog : FoM Int32) (l : Local) : Prop :=
  prog.wp (fun l e l' => l' = l.after task e) Local.Fair (fun _ => Local.Done) l

/-- Operations other than `enter`, `get` and `put`. -/
def FoOp.plain : FoOp → Bool
  | .enter => false
  | .get _ => false
  | .put _ => false
  | _ => true

/-- Tasks without the early exits. -/
def Task.Sends (task : Task) : Prop := ∀ e, task.loses e = false

namespace Task
variable {task : Task} {l : Local} {d : DevId}

theorem sends_send (call : FoCall) (acc : AccRef) : (Task.send call acc).Sends := fun _ => rfl

theorem sends_open (minor : Nat) (pid : Int32) (pad : UInt32) : (Task.open minor pid pad).Sends :=
  fun _ => rfl

theorem hold_plain {op : FoOp} (hop : op.plain = true) : op.hold = 0 := by
  cases op with
  | get => cases hop
  | put => cases hop
  | _ => rfl

theorem starts_plain {op : FoOp} (hop : op.plain = true) : op.starts = false := by
  cases op with
  | enter => cases hop
  | _ => rfl

theorem after_plain {op : FoOp} {r : op.Res} (hop : op.plain = true)
    (hr : task.loses ⟨op, r⟩ = false) : l.after task ⟨op, r⟩ = l := by
  have hhold : op.hold = 0 := hold_plain hop
  have hstarts : op.starts = false := starts_plain hop
  simp only [Local.after, hhold, hstarts, hr, add_zero, Bool.or_false]

/-! ## One step -/

theorem proper_ret {a : Int32} (h : l.Done) : task.Proper (.ret a) l := h

theorem proper_call {op : FoOp} {k : op.Res → FoM Int32} (hl : l.Fair)
    (h : ∀ r, task.Proper (k r) (l.after task ⟨op, r⟩)) : task.Proper (.call op k) l := by
  refine ⟨hl, fun r l' he => ?_⟩
  rw [he]
  exact h r

theorem proper_plain {op : FoOp} {k : op.Res → FoM Int32} (hop : op.plain = true) (hl : l.Fair)
    (hloses : ∀ r, task.loses ⟨op, r⟩ = false) (h : ∀ r, task.Proper (k r) l) :
    task.Proper (.call op k) l := by
  refine proper_call hl fun r => ?_
  rw [after_plain hop (hloses r)]
  exact h r

theorem proper_ite {c : Prop} [Decidable c] {p p' : FoM Int32} (h : c → task.Proper p l)
    (h' : ¬ c → task.Proper p' l) : task.Proper (if c then p else p') l := by
  by_cases hc : c
  · rw [if_pos hc]
    exact h hc
  · rw [if_neg hc]
    exact h' hc

theorem proper_ite_bind {c : Prop} [Decidable c] {α : Type} {p p' : FoM α} {f : α → FoM Int32}
    (h : task.Proper (p >>= f) l) (h' : task.Proper (p' >>= f) l) :
    task.Proper ((if c then p else p') >>= f) l := by
  by_cases hc : c
  · rw [if_pos hc]
    exact h
  · rw [if_neg hc]
    exact h'

/-! ## The local states -/

/-- Before a task has taken a reference. -/
theorem idle_fair (started lost : Bool) : (⟨0, started, lost⟩ : Local).Fair := ⟨le_rfl, fun _ => rfl⟩

theorem idle_done (started lost : Bool) : (⟨0, started, lost⟩ : Local).Done :=
  ⟨idle_fair started lost, fun _ => rfl⟩

/-- With one reference. -/
def holding (d : DevId) (lost : Bool) : Local := ⟨Pi.single d 1, true, lost⟩

theorem holding_nonneg (d : DevId) : (0 : DevId → Int) ≤ Pi.single d 1 :=
  Pi.single_nonneg.mpr Int.one_nonneg

theorem holding_fair (d : DevId) (lost : Bool) : (holding d lost).Fair :=
  ⟨holding_nonneg d, fun h => nomatch h⟩

theorem holding_lost (d : DevId) : (holding d true).Done := ⟨holding_fair d true, fun h => nomatch h⟩

theorem after_enter (hsends : task.loses ⟨.enter, ()⟩ = false) :
    (⟨0, false, false⟩ : Local).after task ⟨.enter, ()⟩ = ⟨0, true, false⟩ := by
  simp only [Local.after, FoOp.hold, FoOp.starts, hsends, add_zero, Bool.or_false, Bool.false_or]

theorem after_get {started lost : Bool} (hsends : task.loses ⟨.get (some d), ()⟩ = false) :
    (⟨0, started, lost⟩ : Local).after task ⟨.get (some d), ()⟩ = ⟨Pi.single d 1, started, lost⟩ := by
  simp only [Local.after, FoOp.hold, FoOp.starts, hsends, zero_add, Bool.or_false]

theorem after_put {lost : Bool} (hsends : task.loses ⟨.put d, ()⟩ = false) :
    (holding d lost).after task ⟨.put d, ()⟩ = ⟨0, true, lost⟩ := by
  have hzero : (Pi.single d 1 + Pi.single d (-1) : DevId → Int) = 0 := by
    rw [← Pi.single_add, Int.add_right_neg, Pi.single_zero]
  simp only [Local.after, holding, FoOp.hold, FoOp.starts, hsends, hzero, Bool.or_false]

/-! ## `fo_send` -/

section Send
variable {call : FoCall} {acc : AccRef} {req : ReqPtr}

theorem foSendReq_proper (hsends : task.Sends) (hl : l.Fair) {f : Int32 → FoM Int32}
    (hf : ∀ rvalue, task.Proper (f rvalue) l) : task.Proper (foSendReq acc req >>= f) l := by
  refine proper_plain rfl hl (fun _ => hsends _) fun _ => ?_
  refine proper_plain rfl hl (fun _ => hsends _) fun _ => ?_
  refine proper_ite_bind (hf _) ?_
  refine proper_plain rfl hl (fun _ => hsends _) fun _ => ?_
  refine proper_plain rfl hl (fun _ => hsends _) fun _ => ?_
  refine proper_ite_bind (hf _) ?_
  refine proper_plain rfl hl (fun _ => hsends _) fun _ => ?_
  refine proper_ite_bind (hf _) ?_
  exact proper_plain rfl hl (fun _ => hsends _) hf

theorem foSendOut_proper (hsends : task.Sends) (req : Option ReqPtr) (rvalue : Int32) :
    task.Proper (foSendOut call acc req rvalue) (holding acc.nddata false) := by
  refine proper_call (holding_fair _ _) fun _ => ?_
  rw [after_put (hsends _)]
  refine proper_plain rfl (idle_fair _ _) (fun _ => hsends _) fun _ => ?_
  refine proper_ite (fun _ => ?_) (fun _ => proper_ret (idle_done _ _))
  exact proper_plain rfl (idle_fair _ _) (fun _ => hsends _) fun _ => proper_ret (idle_done _ _)

theorem foSend_proper (hsends : task.Sends) : task.Proper (foSend call acc) ⟨0, false, false⟩ := by
  refine proper_call (idle_fair _ _) fun _ => ?_
  rw [after_enter (hsends _)]
  refine proper_plain rfl (idle_fair _ _) (fun _ => hsends _) fun _ => ?_
  refine proper_ite (fun _ => proper_ret (idle_done _ _)) (fun _ => ?_)
  refine proper_call (idle_fair _ _) fun _ => ?_
  rw [after_get (hsends _)]
  refine proper_plain rfl (holding_fair acc.nddata false) (fun _ => hsends _) fun req => ?_
  cases req with
  | none => exact foSendOut_proper hsends none _
  | some req =>
      exact foSendReq_proper hsends (holding_fair acc.nddata false)
        fun rvalue => foSendOut_proper hsends (some req) rvalue

theorem ndfoSendOpen_proper (hsends : task.Sends) (minor : Nat) (pid : Int32) (pad : UInt32) :
    task.Proper (ndfoSendOpen minor pid pad) ⟨0, false, false⟩ := by
  refine proper_plain rfl (idle_fair _ _) (fun _ => hsends _) fun _ => ?_
  refine proper_plain rfl (idle_fair _ _) (fun _ => hsends _) fun _ => ?_
  refine proper_plain rfl (idle_fair _ _) (fun _ => hsends _) fun acc => ?_
  cases acc with
  | none => exact proper_ret (idle_done _ _)
  | some acc => exact foSend_proper hsends

end Send

/-! ## `fo_recv` -/

section Recv
variable {nlh : NlMessage} {acc : AccRef}

theorem foComplete_proper (hl : l.Fair) {f : Int32 → FoM Int32}
    (hf : ∀ rvalue, (recv nlh).Proper (f rvalue) l) :
    (recv nlh).Proper (foComplete acc nlh >>= f) l := by
  refine proper_plain rfl hl (fun _ => rfl) fun req => ?_
  cases req with
  | none => exact hf _
  | some req =>
      refine proper_plain rfl hl (fun _ => rfl) fun _ => ?_
      refine proper_ite_bind (hf _) ?_
      exact proper_plain rfl hl (fun _ => rfl) fun _ => hf _

theorem foExecuteTask_proper (hl : l.Fair) {f : Int32 → FoM Int32}
    (hf : ∀ rvalue, (recv nlh).Proper (f rvalue) l) :
    (recv nlh).Proper (foExecuteTask acc nlh >>= f) l := by
  refine proper_plain rfl hl (fun _ => rfl) fun rvalue => ?_
  refine proper_ite_bind ?_ (hf _)
  exact proper_plain rfl hl (fun _ => rfl) fun _ => hf _

theorem foRecvOut_proper (rvalue : Int32) :
    (recv nlh).Proper (foRecvOut d acc nlh rvalue) (holding d false) := by
  have hput : (recv nlh).Proper (do fo (.put d); return rvalue) (holding d false) := by
    refine proper_call (holding_fair _ _) fun _ => ?_
    rw [after_put rfl]
    exact proper_ret (idle_done _ _)
  refine proper_ite (fun _ => ?_) (fun _ => hput)
  exact proper_plain rfl (holding_fair _ _) (fun _ => rfl) fun _ => hput

theorem foRecvAcc_proper : (recv nlh).Proper (foRecvAcc d acc nlh) (holding d false) := by
  refine proper_plain rfl (holding_fair d false) (fun _ => rfl) fun _ => ?_
  refine proper_ite (fun _ => ?_) (fun _ => ?_)
  · exact foComplete_proper (holding_fair d false) foRecvOut_proper
  · exact foExecuteTask_proper (holding_fair d false) foRecvOut_proper

/-- An operation after which `fo_recv` gives up. -/
theorem after_loses {op : FoOp} {r : op.Res} (hop : op.plain = true)
    (hr : task.loses ⟨op, r⟩ = true) : (holding d false).after task ⟨op, r⟩ = holding d true := by
  have hhold : op.hold = 0 := hold_plain hop
  have hstarts : op.starts = false := starts_plain hop
  simp only [Local.after, holding, hhold, hstarts, hr, add_zero, Bool.or_false, Bool.or_true]

theorem foRecvDev_proper : (recv nlh).Proper (foRecvDev d nlh) (holding d false) := by
  refine proper_call (holding_fair d false) fun acc => ?_
  cases acc with
  | some acc =>
      rw [after_plain rfl rfl]
      exact foRecvAcc_proper
  | none =>
      by_cases hopen : nlh.msgtype = MSGT_FO_OPEN
      · have hloses : (recv nlh).loses ⟨.findAcc d (asInt nlh.payload), none⟩ = false :=
          decide_eq_false fun hne => hne hopen
        rw [after_plain rfl hloses]
        refine proper_ite (fun hne => absurd hopen hne) (fun _ => ?_)
        refine proper_call (holding_fair d false) fun acc => ?_
        cases acc with
        | none =>
            rw [after_loses rfl rfl]
            exact proper_ret (holding_lost d)
        | some acc =>
            rw [after_plain rfl rfl]
            exact foRecvAcc_proper
      · have hloses : (recv nlh).loses ⟨.findAcc d (asInt nlh.payload), none⟩ = true :=
          decide_eq_true hopen
        rw [after_loses rfl hloses]
        exact proper_ite (fun _ => proper_ret (holding_lost d)) (fun h => absurd hopen h)

theorem foRecv_proper : (recv nlh).Proper (foRecv nlh) ⟨0, false, false⟩ := by
  refine proper_call (idle_fair _ _) fun _ => ?_
  rw [after_enter rfl]
  refine proper_plain rfl (idle_fair _ _) (fun _ => rfl) fun nddata => ?_
  refine proper_call (idle_fair _ _) fun _ => ?_
  cases nddata with
  | none => exact proper_ret (idle_done _ _)
  | some d =>
      rw [after_get rfl]
      exact foRecvDev_proper

end Recv

/-- Every task is proper from its begin. -/
theorem proper (task : Task) : task.Proper task.prog ⟨0, false, false⟩ := by
  cases task with
  | send call acc => exact foSend_proper (sends_send call acc)
  | «open» minor pid pad => exact ndfoSendOpen_proper (sends_open minor pid pad) minor pid pad
  | recv nlh => exact foRecv_proper

end Task

end Netdev.Kernel
