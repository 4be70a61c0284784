-- SUMMARY: What the operations of tasks never change: which devices exist, their pid, kind and minor, the table and the minors.
import Netdev.Kernel.Module

/-!
# Frames

Tasks change counters, open files and requests. The rest of the registry belongs to
registration and unregistration.
-/

namespace Netdev.Kernel
open Base Registry

/-- What stays the same for the whole life of a device. -/
def NetdevData.ident (nddata : NetdevData) : UInt32 × Bool × Nat :=
  (nddata.nlpid, nddata.dummy, nddata.minor)

/-- The part of a registry that tasks leave alone. -/
structure Registry.SameFrame (reg reg' : Registry) : Prop where
  devs : ∀ d, (reg'.devs d).map NetdevData.ident = (reg.devs d).map NetdevData.ident
  table : reg'.netdevHtable = reg.netdevHtable
  minors : reg'.minors = reg.minors
  hashMin : reg'.hashMin = reg.hashMin

namespace Registry.SameFrame
variable {reg reg' reg'' : Registry} {d : DevId} {nddata nddata' : NetdevData}

theorem refl (reg : Registry) : reg.SameFrame reg := ⟨fun _ => rfl, rfl, rfl, rfl⟩

theorem trans (h : reg.SameFrame reg') (h' : reg'.SameFrame reg'') : reg.SameFrame reg'' :=
  ⟨fun d => (h'.devs d).trans (h.devs d), h'.table.trans h.table, h'.minors.trans h.minors,
    h'.hashMin.trans h.hashMin⟩

/-- Changes of anything but devices, table and minors. -/
theorem of_eq (hdevs : reg'.devs = reg.devs) (htable : reg'.netdevHtable = reg.netdevHtable)
    (hminors : reg'.minors = reg.minors) (hhash : reg'.hashMin = reg.hashMin) :
    reg.SameFrame reg' :=
  ⟨fun d => by rw [hdevs], htable, hminors, hhash⟩

theorem setDev (hd : reg.devs d = some nddata) (hident : nddata'.ident = nddata.ident) :
    reg.SameFrame (reg.setDev d nddata') := by
  refine ⟨fun e => ?_, rfl, rfl, rfl⟩
  by_cases heq : e = d
  · subst heq
    rw [setDev_self, hd, Option.map_some, Option.map_some, hident]
  · rw [setDev_of_ne _ _ heq]

theorem live_iff (h : reg.SameFrame reg') (d : DevId) : reg'.devs d = none ↔ reg.devs d = none := by
  have hdevs := h.devs d
  cases hd : reg.devs d with
  | none =>
      rw [hd] at hdevs
      exact iff_of_true (Option.map_eq_none_iff.mp hdevs) rfl
  | some nddata =>
      rw [hd] at hdevs
      refine iff_of_false (fun hnone => ?_) (Option.some_ne_none _)
      rw [hnone] at hdevs
      exact nomatch hdevs

end Registry.SameFrame

/-! ## Calls -/

section Calls
variable {c : Call}

theorem Looks.frame {α : Type} {Q : α → Prop} {r : Except Halt α} {c' : Call} (h : Looks c Q r c') :
    c.registry.SameFrame c'.registry := by
  cases r with
  | ok a =>
      obtain ⟨rfl, -⟩ := h
      exact .refl _
  | error e =>
      rw [h.2]
      exact .refl _

theorem ndmgmGet_frame (d : DevId) :
    Exec.wp (ndmgmGet d) (fun _ c' => c.registry.SameFrame c'.registry) c := by
  refine Ker.wp_dev (fun nddata hd => ?_) (fun _ => .refl _)
  exact .setDev hd rfl

theorem ndmgmPut_frame (d : DevId) :
    Exec.wp (ndmgmPut d) (fun _ c' => c.registry.SameFrame c'.registry) c := by
  refine Ker.wp_dev (fun nddata hd => ?_) (fun _ => .refl _)
  exact .setDev hd rfl

theorem foAccStart_frame (env : StartEnv) (nddata : Option DevId) (pid : Int32) :
    Exec.wp (foAccStart env nddata pid) (fun _ c' => c.registry.SameFrame c'.registry) c := by
  cases nddata with
  | none => exact .refl _
  | some d =>
      refine Exec.wp_ite (fun _ => .refl _) (fun _ => ?_)
      refine Ker.wp_dev (fun nddata hd => ?_) (fun _ => .refl _)
      refine Exec.wp_ite (fun _ => .refl _) (fun _ => ?_)
      refine Ker.wp_downTrylock (fun _ _ => ?_) (fun _ => .refl _)
      refine Ker.wp_registry (Ker.wp_modify (Ker.wp_modify (Ker.wp_modify ?_)))
      refine wp_ndmgmGet (setDev_self _ _) (Ker.wp_up ?_)
      refine SameFrame.trans ?_ (.setDev (setDev_self _ _) rfl)
      refine SameFrame.trans ?_ (.setDev hd rfl)
      exact .of_eq rfl rfl rfl rfl

theorem foAccDestroy_frame (a : AccRef) :
    Exec.wp (foAccDestroy a) (fun _ c' => c.registry.SameFrame c'.registry) c := by
  refine Ker.wp_acc (fun data _ => ?_) (fun _ => .refl _)
  refine Ker.wp_dev (fun nddata _ => ?_) (fun _ => .refl _)
  refine Ker.wp_downWrite (fun _ => ?_) (fun _ => .refl _) (fun _ _ => .refl _)
  refine Ker.wp_dev (fun nddata hd => ?_) (fun _ => .refl _)
  refine Ker.wp_modify (wp_ndmgmPut (setDev_self _ _) (Ker.wp_up ?_))
  have hfree : ∀ reg : Registry, reg.SameFrame (reg.freeAcc a) := fun _ => .of_eq rfl rfl rfl rfl
  refine SameFrame.trans ?_ (hfree _)
  refine SameFrame.trans ?_ (.setDev (setDev_self _ _) rfl)
  exact .setDev hd rfl

/-- Every operation of a task. -/
theorem FoOp.exec_frame (env : FoEnv) (op : FoOp) :
    Exec.wp (op.exec env) (fun _ c' => c.registry.SameFrame c'.registry) c := by
  cases op with
  | enter => exact .refl _
  | findPid minor => exact (ndmgmFindPid_looks env.free minor).mono fun _ _ hr => hr.frame
  | find nlpid => exact (ndmgmFind_looks env.free nlpid).mono fun _ _ hr => hr.frame
  | get nddata =>
      cases nddata with
      | none => exact .refl _
      | some d => exact ndmgmGet_frame d
  | put d => exact ndmgmPut_frame d
  | findAcc d accessId => exact (ndmgmFindAcc_looks env.free d accessId).mono fun _ _ hr => hr.frame
  | accStart nddata pid => exact foAccStart_frame env.start nddata pid
  | accDestroy acc => exact foAccDestroy_frame acc
  | dummy d => exact Ker.wp_dev (fun _ _ => .refl _) (fun _ => .refl _)
  | active acc =>
      refine Ker.wp_acc (fun _ _ => ?_) (fun _ => .refl _)
      exact Ker.wp_dev (fun _ _ => .refl _) (fun _ => .refl _)
  | newReq acc call =>
      refine Ker.wp_acc (fun data _ => ?_) (fun _ => .refl _)
      refine Ker.wp_dev (fun _ _ => ?_) (fun _ => .refl _)
      cases env.addr with
      | none => exact .refl _
      | some p => exact .of_eq rfl rfl rfl rfl
  | foreqAdd acc req => exact Ker.wp_acc (fun data _ => .of_eq rfl rfl rfl rfl) (fun _ => .refl _)
  | kzalloc => exact .refl _
  | incseq d => exact Ker.wp_dev (fun nddata hd => .setDev hd rfl) (fun _ => .refl _)
  | setSeq req seq => exact .of_eq rfl rfl rfl rfl
  | netlinkSend d => exact Ker.wp_dev (fun _ _ => .refl _) (fun _ => .refl _)
  | wait req => exact Ker.wp_registry (Exec.wp_ite (fun _ => .refl _) (fun _ => .refl _))
  | freeReq acc req =>
      refine Ker.wp_acc (fun _ _ => ?_) (fun _ => .refl _)
      refine Ker.wp_dev (fun _ _ => ?_) (fun _ => .refl _)
      exact Ker.wp_deref (fun _ _ => .refl _) (fun _ => .refl _)
  | foreqFind acc seq =>
      refine Ker.wp_acc (fun data _ => Ker.wp_registry ?_) (fun _ => .refl _)
      cases foAccForeqFind env.free c.registry.reqs data.queue seq with
      | none => exact .refl _
      | some found => exact .of_eq rfl rfl rfl rfl
  | deserializeToreq req data =>
      exact Ker.wp_registry (Ker.wp_ofMem (fun _ _ => .of_eq rfl rfl rfl rfl) (.refl _))
  | complete req => exact .of_eq rfl rfl rfl rfl
  | execute acc nlh =>
      refine Ker.wp_acc (fun data _ => ?_) (fun _ => .refl _)
      refine Ker.wp_dev (fun _ _ => ?_) (fun _ => .refl _)
      exact Ker.wp_ofMem (fun _ _ => .of_eq rfl rfl rfl rfl) (.refl _)

end Calls

theorem exec_frame (reg : Registry) (env : FoEnv) (op : FoOp) :
    reg.SameFrame (Ker.call (op.exec env) reg).2 :=
  Ker.call_of_wp (P := fun _ reg' => reg.SameFrame reg')
    ((FoOp.exec_frame (c := ⟨reg, []⟩) env op).mono fun _ _ h => h.trans (.of_eq rfl rfl rfl rfl))

end Netdev.Kernel
