-- SUMMARY: A message that is handled without interruption does what its operations do one after the other.
import Mathlib.Data.List.Basic
import Netdev.Kernel.Register
import Netdev.Kernel.Sections

/-!
# Messages without interruption

The steps of `Module` for a message are runs of `Sections`, so that every state that the
one reaches is one that the other reaches.
-/

namespace Netdev.Kernel
open Base Registry

namespace Sections

/-! ## Programs and functions -/

/-- A program whose operations nobody interrupts. -/
abbrev alone {α : Type} (env : MgmOp → MgmEnv) (prog : MgmM α) : Ker α :=
  prog.exec fun (op : MgmOp) => op.exec (env op)

section Equations
variable {env : MgmOp → MgmEnv} {d : DevId}

/-- The trylocks on the way of `ndmgm_destroy`. -/
structure Trylocks (env : MgmOp → MgmEnv) (d : DevId) (locks : DestroyEnv) : Prop where
  destroy : (env (.lockDev d)).free = locks.destroy
  destroyAllacc : (env (.lockFiles d)).free = locks.destroyAllacc
  putMinor : (env (.putMinor d)).free = locks.putMinor

theorem destroyAccs_alone (accs : List AccRef) : alone env (destroyAccs d accs) = Kernel.destroyAccs d accs := by
  induction accs with
  | nil => rfl
  | cons acc accs ih =>
      unfold destroyAccs Kernel.destroyAccs
      simp only [Prog.call_bind, Prog.ret_bind, alone, Prog.exec]
      refine bind_congr fun _ => bind_congr fun n => ?_
      by_cases hn : n = 0
      · simp only [hn, ne_eq, not_true, if_false, Prog.exec]
        exact bind_congr fun _ => ih
      · simp only [hn, ne_eq, not_false_eq_true, if_true, Prog.exec, Prog.pure_eq_ret]

theorem alone_ite {α : Type} {c : Prop} [Decidable c] (p q : MgmM α) :
    alone env (if c then p else q) = if c then alone env p else alone env q :=
  apply_ite (alone env) c p q

theorem alone_bind {α β : Type} (p : MgmM α) (f : α → MgmM β) :
    alone env (p >>= f) = alone env p >>= fun a => alone env (f a) := by
  induction p with
  | ret a => rfl
  | call op k ih =>
      change op.exec (env op) >>= (fun r => alone env (k r >>= f)) = _
      simp only [alone, Prog.exec, bind_assoc]
      exact bind_congr fun r => ih r

theorem ndmgmDestroyAllacc_alone {locks : DestroyEnv} (h : Trylocks env d locks) :
    alone env (ndmgmDestroyAllacc d) = Kernel.ndmgmDestroyAllacc locks d := by
  unfold ndmgmDestroyAllacc Kernel.ndmgmDestroyAllacc
  simp only [alone_bind, alone_ite, destroyAccs_alone]
  simp only [alone, Prog.exec, MgmOp.exec, h.destroyAllacc, bind_pure, bind_assoc, pure_bind, Prog.pure_eq_ret]

theorem ndmgmDestroyDummy_alone {locks : DestroyEnv} (h : Trylocks env d locks) :
    alone env (ndmgmDestroyDummy d) = Kernel.ndmgmDestroyDummy locks d := by
  unfold ndmgmDestroyDummy Kernel.ndmgmDestroyDummy
  simp only [alone_bind, alone_ite, ndmgmDestroyAllacc_alone h]
  simp only [alone, Prog.exec, MgmOp.exec, h.destroy, h.putMinor, bind_pure, bind_assoc, Prog.pure_eq_ret]

theorem ndmgmDestroyServer_alone {locks : DestroyEnv} (h : Trylocks env d locks) :
    alone env (ndmgmDestroyServer d) = Kernel.ndmgmDestroyServer locks d := by
  unfold ndmgmDestroyServer Kernel.ndmgmDestroyServer
  simp only [alone_bind, alone_ite]
  simp only [alone, Prog.exec, MgmOp.exec, h.destroy, bind_pure, bind_assoc, Prog.pure_eq_ret]

theorem ndmgmDestroy_alone {locks : DestroyEnv} (h : Trylocks env d locks) :
    alone env (ndmgmDestroy d) = Kernel.ndmgmDestroy locks d := by
  unfold ndmgmDestroy Kernel.ndmgmDestroy
  simp only [alone_bind, alone_ite, ndmgmDestroyDummy_alone h, ndmgmDestroyServer_alone h]
  simp only [alone, Prog.exec, MgmOp.exec, bind_pure, bind_assoc, pure_bind]

theorem endDevs_alone {locks : DevId → DestroyEnv} (h : ∀ d, Trylocks env d (locks d)) (ds : List DevId) :
    alone env (endDevs ds) = Kernel.endDevs locks ds := by
  induction ds with
  | nil => rfl
  | cons d ds ih =>
      unfold endDevs Kernel.endDevs
      simp only [alone_bind, ndmgmDestroy_alone (h d), ih]
      simp only [alone, Prog.exec, MgmOp.exec, bind_pure, bind_assoc]

end Equations

/-- What the operations of a message meet. -/
def answers : Control → MgmOp → MgmEnv
  | .regDummy env _, .getMinor _ => ⟨env.minor, env⟩
  | .regDummy env _, _ => ⟨true, env⟩
  | .regServer env _, _ => ⟨true, env⟩
  | .unregister env _, .find _ => ⟨env.find, .all⟩
  | .unregister env _, .unlink _ => ⟨env.findDestroy, .all⟩
  | .unregister env _, .lockDev _ => ⟨env.destroy, .all⟩
  | .unregister env _, .lockFiles _ => ⟨env.destroyAllacc, .all⟩
  | .unregister env _, .putMinor _ => ⟨env.putMinor, .all⟩
  | .unregister _ _, _ => .all

/-- And those of `ndmgm_end`. -/
def endAnswers (free : Bool) (env : DevId → DestroyEnv) : MgmOp → MgmEnv
  | .lockTable => ⟨free, .all⟩
  | .lockDev d => ⟨(env d).destroy, .all⟩
  | .lockFiles d => ⟨(env d).destroyAllacc, .all⟩
  | .putMinor d => ⟨(env d).putMinor, .all⟩
  | _ => .all

def Control.callee : Control → Callee
  | .regDummy _ pid => .createDummy pid
  | .regServer _ pid => .createServer pid
  | .unregister _ pid => .findDestroy pid

theorem callee_alone (msg : Control) : alone (answers msg) (Control.callee msg).prog = msg.exec := by
  cases msg with
  | regDummy env pid =>
      refine bind_congr fun minor => ?_
      cases minor with
      | none => rfl
      | some minor => exact bind_pure _
  | regServer env pid => exact bind_pure _
  | unregister env pid =>
      refine bind_congr fun nddata => ?_
      cases nddata with
      | none => rfl
      | some d => exact bind_congr fun _ => ndmgmDestroy_alone ⟨rfl, rfl, rfl⟩

theorem end_alone (free : Bool) (env : DevId → DestroyEnv) :
    alone (endAnswers free env) Callee.moduleEnd.prog = Kernel.ndmgmEnd free env := by
  have hlocks : ∀ d, Trylocks (endAnswers free env) d (env d) := fun d => ⟨rfl, rfl, rfl⟩
  change alone _ ndmgmEnd = _
  unfold ndmgmEnd Kernel.ndmgmEnd
  simp only [alone_bind, alone_ite, endDevs_alone hlocks]
  simp only [alone, Prog.exec, MgmOp.exec, bind_pure, bind_assoc, pure_bind, Prog.pure_eq_ret]
  rfl

/-! ## Runs -/

/-- A computation that stops at a fault, or where it has changed nothing. -/
def Waits (c : Call) {α : Type} : Except Halt α → Call → Prop
  | .ok _, _ => True
  | .error e, c' => e = .fault ∨ c' = c

theorem waits_of_looks {c c' : Call} {α : Type} {Q : α → Prop} {r : Except Halt α} (h : Looks c Q r c') :
    Waits c r c' := by
  cases r with
  | ok a => trivial
  | error e => exact .inl h.1

theorem foAccDestroy_waits {c : Call} (acc : AccRef) : Exec.wp (foAccDestroy acc) (Waits c) c := by
  refine Ker.wp_acc (fun _ _ => ?_) (fun _ => .inl rfl)
  refine Ker.wp_dev (fun _ _ => ?_) (fun _ => .inl rfl)
  refine Ker.wp_downWrite (fun _ => ?_) (fun _ => .inr rfl) (fun _ _ => .inr rfl)
  refine Ker.wp_dev (fun _ _ => ?_) (fun _ => .inl rfl)
  exact Ker.wp_modify (wp_ndmgmPut (setDev_self _ _) trivial)

theorem freeQueue_waits {c : Call} (acc : AccRef) : Exec.wp (freeQueue acc) (Waits c) c := by
  refine Ker.wp_acc (fun data _ => Ker.wp_registry ?_) (fun _ => .inl rfl)
  cases foAccFreeQueue data.queue c.registry.reqs with
  | none => exact .inr rfl
  | some r => trivial

theorem ndmgmPut_waits {c c₀ : Call} (d : DevId) : Exec.wp (ndmgmPut d) (Waits c₀) c :=
  Ker.wp_dev (fun _ _ => trivial) (fun _ => .inl rfl)

theorem exec_waits {c : Call} (env : MgmEnv) (op : MgmOp) : Exec.wp (op.exec env) (Waits c) c := by
  have hlock : ∀ sem, Exec.wp (Ker.downTrylock sem env.free) (Waits c) c := fun sem =>
    Exec.wp_bind_ok (s := c) (Exec.get_apply c) (Exec.wp_ite (fun _ => trivial) (fun _ => trivial))
  cases op with
  | getMinor pid =>
      refine (ndmgmGetMinor_spec env.free pid).mono fun r c' hr => ?_
      cases hr with
      | dead => exact .inl rfl
      | outside => exact .inl rfl
      | _ => trivial
  | publishDummy nlpid minor =>
      refine (publishDummy_spec env.create nlpid minor).mono fun r c' hr => ?_
      cases hr with
      | _ => trivial
  | publishServer nlpid =>
      refine (ndmgmCreateServer_spec env.create nlpid).mono fun r c' hr => ?_
      cases hr with
      | _ => trivial
  | find nlpid => exact (ndmgmFind_looks env.free nlpid).mono fun _ _ hr => waits_of_looks hr
  | unlink d =>
      refine Ker.wp_downTrylock (fun _ _ => Ker.wp_modify ?_) (fun _ => trivial)
      exact Exec.wp_bind (ndmgmPut_waits d) (fun _ _ _ => trivial) (fun _ _ hr => hr)
  | dummy d => exact Ker.wp_dev (fun _ _ => trivial) (fun _ => .inl rfl)
  | lockDev d => exact hlock _
  | lockFiles d => exact hlock _
  | lockTable => exact hlock _
  | deactivate d => exact Ker.wp_dev (fun _ _ => trivial) (fun _ => .inl rfl)
  | files d => exact Ker.wp_dev (fun _ _ => trivial) (fun _ => .inl rfl)
  | freeQueue acc => exact freeQueue_waits acc
  | accDestroy acc => exact foAccDestroy_waits acc
  | refs d => exact Ker.wp_dev (fun _ _ => trivial) (fun _ => .inl rfl)
  | putMinor d =>
      refine Ker.wp_dev (fun x _ => ?_) (fun _ => .inl rfl)
      refine (@ndmgmPutMinor_spec _ { DestroyEnv.all with putMinor := env.free } x.minor).mono ?_
      rintro r c' (⟨minors, -, rfl, -⟩ | ⟨-, -, rfl, -⟩)
      · trivial
      · exact .inl rfl
  | free d => exact Ker.wp_dev (fun _ _ => trivial) (fun _ => .inl rfl)
  | take d => exact Ker.wp_modify (ndmgmPut_waits d)
  | _ => trivial

theorem diff_append_self (own stuck : List Sem) : (own ++ stuck).diff own = stuck := by
  induction own with
  | nil => exact List.diff_nil stuck
  | cons sem own ih => rw [List.cons_append, List.diff_cons, List.erase_cons_head, ih]

/-- A call finds what it has left. -/
theorem enter_settle {c : Caller} {k : Call} (hown : c.own = k.own) : c.enter (settle k) = k := by
  unfold Caller.enter settle
  rw [hown, diff_append_self]

section Runs
variable {hashMin : UInt32 → Fin 32} {reqs : Requests} {ts : List Thread} {cs : List Caller}

/-- A call that has begun goes on until it returns, dies or waits, and nobody comes in between. -/
theorem run_alone (env : MgmOp → MgmEnv) {ls : List Label} {prog : MgmM Int32} {past : Option DevId} {k : Call}
    (hrun : (system hashMin reqs).Run ls ⟨settle k, ts, ⟨prog, k.own, past⟩ :: cs⟩) :
    ∃ ls' cs', (system hashMin reqs).Run ls' ⟨settle (alone env prog k).2, ts, cs'⟩ := by
  induction prog generalizing ls past k with
  | ret rvalue => exact ⟨_, _, hrun.step (@Step.return _ _ [] cs _ rvalue rfl)⟩
  | call op next ih =>
      have henter : (Caller.mk (.call op next) k.own past).enter (settle k) = k := enter_settle rfl
      have hwaits := exec_waits (c := k) (env op) op
      cases hexec : op.exec (env op) k with
      | mk r k' =>
          rw [Exec.wp, hexec] at hwaits
          cases r with
          | ok r =>
              have halone : alone env (.call op next) k = alone env (next r) k' := Exec.bind_ok hexec
              rw [halone]
              refine ih r (hrun.step (@Step.perform _ _ [] cs _ (env op) op next r k' rfl ?_))
              rw [henter, hexec]
          | error e =>
              have halone : alone env (.call op next) k = (.error e, k') := Exec.bind_error hexec
              rw [halone]
              rcases hwaits with rfl | rfl
              · refine ⟨_, _, hrun.step (@Step.oops _ _ [] cs _ (env op) op next k' rfl ?_)⟩
                rw [henter, hexec]
              · exact ⟨_, _, hrun⟩

theorem run_callee (env : MgmOp → MgmEnv) {ls : List Label} {reg : Registry} {callee : Callee}
    (hrun : (system hashMin reqs).Run ls ⟨reg, ts, cs⟩) (henabled : callee.Enabled) :
    ∃ ls' cs', (system hashMin reqs).Run ls' ⟨(Ker.call (alone env callee.prog) reg).2, ts, cs'⟩ := by
  have hcall := hrun.step (.call henabled)
  exact run_alone env (k := ⟨reg, []⟩) hcall

/-- Every state that the module reaches when nobody interrupts a message, it reaches. -/
theorem run_of_module {ls : List Module.Label} {s : Module.State} (hrun : (Module.system hashMin reqs).Run ls s) :
    ∃ ls' cs, (system hashMin reqs).Run ls' ⟨s.registry, s.threads, cs⟩ := by
  induction hrun with
  | init hs =>
      rw [hs]
      exact ⟨[], [], .init rfl⟩
  | step _ hstep ih =>
      obtain ⟨ls', cs, hrun⟩ := ih
      cases hstep with
      | @control s msg hpid =>
          have henabled : (Control.callee msg).Enabled := by
            cases msg with
            | _ => exact hpid
          have hcall := run_callee (answers msg) hrun henabled
          rw [callee_alone] at hcall
          exact hcall
      | @exit s free env =>
          have hcall := @run_callee _ _ _ _ (endAnswers free env) _ _ .moduleEnd hrun trivial
          rw [end_alone] at hcall
          exact hcall
      | start henabled => exact ⟨_, _, hrun.step (.task (l := .start _) trivial (.start henabled))⟩
      | perform hprog hexec => exact ⟨_, _, hrun.step (.task (l := .perform _ _) trivial (.perform hprog hexec))⟩
      | oops hprog hexec he => exact ⟨_, _, hrun.step (.task (l := .perform _ _) trivial (.oops hprog hexec he))⟩
      | finish hprog => exact ⟨_, _, hrun.step (.task (l := .finish _) trivial (.finish hprog))⟩

end Runs

end Sections

end Netdev.Kernel
