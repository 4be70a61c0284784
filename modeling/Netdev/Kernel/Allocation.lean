-- SUMMARY: The ids of open files are never given again: no step of the module takes one back.
import Netdev.Kernel.Lifetime

/-!
# New open files

`fo_acc_start` alone allocates a `struct fo_access`. A file that is not live yet has an
id above those of all files before it, however many tasks run.
-/

namespace Netdev.Kernel
open Base

/-! ## Calls -/

/-- A call that gives no id of an open file back. -/
abbrev Ker.KeepsIds {α : Type} (m : Ker α) : Prop := Exec.Grows (fun c => c.registry.nextAcc) m

namespace Ker.KeepsIds

theorem registry : KeepsIds Ker.registry := .bind .get fun _ => .pure _

theorem modify {f : Registry → Registry} (h : ∀ reg, (f reg).nextAcc = reg.nextAcc) :
    KeepsIds (Ker.modify f) :=
  Exec.Grows.modify fun c => (h c.registry).ge

theorem deref {α : Type} (p : Option α) : KeepsIds (Ker.deref p) := by
  cases p with
  | none => exact .stop _
  | some a => exact .pure a

theorem ofMem {α : Type} (m : Mem α) : KeepsIds (Ker.ofMem m) := by
  cases m with
  | error e => exact .stop _
  | ok a => exact .pure a

theorem dev (d : DevId) : KeepsIds (Ker.dev d) := .bind registry fun _ => deref _

theorem acc (a : AccRef) : KeepsIds (Ker.acc a) := .bind registry fun _ => deref _

theorem setDev (d : DevId) (nddata : NetdevData) : KeepsIds (Ker.setDev d nddata) := modify fun _ => rfl

theorem setAcc (a : AccRef) (data : Acc) : KeepsIds (Ker.setAcc a data) := modify fun _ => rfl

theorem up (sem : Sem) : KeepsIds (Ker.up sem) := Exec.Grows.modify fun _ => le_rfl

theorem downTrylock (sem : Sem) (free : Bool) : KeepsIds (Ker.downTrylock sem free) := by
  refine .bind .get fun _ => .ite ?_ (.pure _)
  exact .bind (Exec.Grows.modify fun _ => le_rfl) fun _ => .pure _

theorem downWrite (sem : Sem) : KeepsIds (Ker.downWrite sem) := by
  refine .bind .get fun _ => .ite (.stop _) (.ite (.stop _) ?_)
  exact Exec.Grows.modify fun _ => le_rfl

/-! ## References and lookups -/

theorem get (d : DevId) : KeepsIds (ndmgmGet d) := .bind (dev d) fun _ => setDev _ _

theorem put (d : DevId) : KeepsIds (ndmgmPut d) := .bind (dev d) fun _ => setDev _ _

theorem refs (d : DevId) : KeepsIds (ndmgmRefs d) := .bind (dev d) fun _ => .pure _

theorem incseq (d : DevId) : KeepsIds (ndmgmIncseq d) :=
  .bind (dev d) fun _ => .bind (setDev _ _) fun _ => .pure _

theorem findDev (nlpid : Int32) (ds : List DevId) : KeepsIds (Kernel.findDev nlpid ds) := by
  induction ds with
  | nil => exact .pure _
  | cons d ds ih => exact .bind (dev d) fun _ => .ite (.pure _) ih

theorem find (free : Bool) (nlpid : Int32) : KeepsIds (ndmgmFind free nlpid) := by
  refine .ite (.pure _) (.bind (downTrylock _ _) fun _ => .ite ?_ (.pure _))
  exact .bind registry fun _ => .bind (findDev _ _) fun _ => .bind (up _) fun _ => .pure _

theorem findAcc (accessId : Int32) (as : List AccRef) : KeepsIds (Kernel.findAcc accessId as) := by
  induction as with
  | nil => exact .pure _
  | cons a as ih => exact .bind (acc a) fun _ => .ite (.pure _) ih

theorem findAcc' (free : Bool) (d : DevId) (accessId : Int32) : KeepsIds (ndmgmFindAcc free d accessId) := by
  refine .bind (dev d) fun _ => .bind (downTrylock _ _) fun _ => .ite ?_ (.pure _)
  exact .bind registry fun _ => .bind (findAcc _ _) fun _ => .bind (up _) fun _ => .pure _

/-! ## Minors and registration -/

theorem getMinor (free : Bool) (pid : Int32) : KeepsIds (ndmgmGetMinor free pid) := by
  refine .bind (downTrylock _ _) fun _ => .ite (.bind registry fun _ => ?_) (.pure _)
  refine .bind (deref _) fun minors => .ite (.pure _) ?_
  cases minors.get pid with
  | error e => exact .bind (up _) fun _ => .stop _
  | ok r => exact .bind (modify fun _ => rfl) fun _ => .bind (up _) fun _ => .pure _

theorem putMinor (free : Bool) (minor : Nat) : KeepsIds (ndmgmPutMinor free minor) := by
  refine .bind (downTrylock _ _) fun _ => .ite (.bind registry fun _ => ?_) (.pure _)
  exact .bind (deref _) fun _ => .bind (ofMem _) fun _ => .bind (modify fun _ => rfl) fun _ => up _

theorem findPid (free : Bool) (minor : Nat) : KeepsIds (ndmgmFindPid free minor) := by
  refine .bind (downTrylock _ _) fun _ => .ite (.bind registry fun _ => ?_) (.pure _)
  exact .bind (deref _) fun _ => .bind (ofMem _) fun _ => .bind (up _) fun _ => .pure _

theorem freeData (d : DevId) : KeepsIds (Kernel.freeData d) := .bind (dev d) fun _ => modify fun _ => rfl

theorem newDev (nlpid : Int32) (dummy : Bool) (minor : Nat) : KeepsIds (Kernel.newDev nlpid dummy minor) :=
  .bind registry fun _ => .bind (modify fun _ => rfl) fun _ => .bind (setDev _ _) fun _ => .pure _

theorem hashDev (d : DevId) (nlpid : Int32) : KeepsIds (Kernel.hashDev d nlpid) :=
  .bind (get d) fun _ => modify fun _ => rfl

theorem createDummy (env : CreateEnv) (nlpid : Int32) : KeepsIds (ndmgmCreateDummy env nlpid) := by
  refine .bind (getMinor _ _) fun minor => ?_
  cases minor with
  | none => exact .pure _
  | some minor =>
      refine .ite (.pure _) (.bind (newDev _ _ _) fun d => ?_)
      have hfree : ∀ errno : Int32, KeepsIds (do Ker.modify (·.freeDev d); return errno) := fun _ =>
        .bind (modify fun _ => rfl) fun _ => .pure _
      exact .ite (hfree _) (.ite (hfree _) (.bind (hashDev _ _) fun _ => .pure _))

theorem createServer (env : CreateEnv) (nlpid : Int32) : KeepsIds (ndmgmCreateServer env nlpid) :=
  .ite (.pure _) (.bind (newDev _ _ _) fun _ => .bind (hashDev _ _) fun _ => .pure _)

/-! ## Open files -/

theorem accStart (env : StartEnv) (nddata : Option DevId) (pid : Int32) :
    KeepsIds (foAccStart env nddata pid) := by
  cases nddata with
  | none => exact .pure _
  | some d =>
      refine .ite (.pure _) (.bind (dev d) fun _ => .ite (.pure _) ?_)
      refine .bind (downTrylock _ _) fun _ => .ite (.bind registry fun reg => ?_) (.pure _)
      refine .bind (Exec.Grows.modify fun _ => Nat.le_succ _) fun _ => .bind (setAcc _ _) fun _ => ?_
      exact .bind (setDev _ _) fun _ => .bind (get d) fun _ => .bind (up _) fun _ => .pure _

theorem accDestroy (a : AccRef) : KeepsIds (foAccDestroy a) := by
  refine .bind (acc a) fun _ => .bind (dev _) fun _ => .bind (downWrite _) fun _ => ?_
  refine .bind (dev _) fun _ => .bind (setDev _ _) fun _ => .bind (put _) fun _ => ?_
  exact .bind (up _) fun _ => modify fun _ => rfl

theorem freeQueue (a : AccRef) : KeepsIds (Kernel.freeQueue a) := by
  refine .bind (acc a) fun data => .bind registry fun reg => ?_
  cases foAccFreeQueue data.queue reg.reqs with
  | none => exact .stop _
  | some freed => exact .bind (setAcc _ _) fun _ => .bind (modify fun _ => rfl) fun _ => .pure _

/-! ## Unregistration -/

theorem destroyAccs (d : DevId) (as : List AccRef) : KeepsIds (Kernel.destroyAccs d as) := by
  induction as with
  | nil => exact .bind (up _) fun _ => .pure _
  | cons a as ih =>
      refine .bind (modify fun _ => rfl) fun _ => .bind (freeQueue a) fun _ => .ite (.pure _) ?_
      exact .bind (accDestroy a) fun _ => ih

theorem destroyAllacc (env : DestroyEnv) (d : DevId) : KeepsIds (ndmgmDestroyAllacc env d) := by
  refine .bind (downTrylock _ _) fun _ => .ite ?_ (.pure _)
  exact .bind (dev d) fun _ => .bind registry fun _ => destroyAccs _ _

/-- The two ends of `ndmgm_destroy`: the device is kept, or freed. -/
theorem release {sem : Sem} {r : Int32} {m : Ker Int32} (h : KeepsIds m) {p : Prop} [Decidable p] :
    KeepsIds (if p then do Ker.up sem; return r else do Ker.up sem; m) :=
  .ite (.bind (up _) fun _ => .pure _) (.bind (up _) fun _ => h)

theorem destroyDummy (env : DestroyEnv) (d : DevId) : KeepsIds (ndmgmDestroyDummy env d) := by
  refine .bind (downTrylock _ _) fun _ => .ite (.bind (dev d) fun _ => ?_) (.pure _)
  refine .bind (setDev _ _) fun _ => .bind (destroyAllacc env d) fun _ => ?_
  refine .ite (.bind (up _) fun _ => .pure _) (.bind (refs d) fun _ => release ?_)
  refine .bind (dev d) fun _ => .bind (putMinor _ _) fun _ => ?_
  exact .bind (freeData d) fun _ => .pure _

theorem destroyServer (env : DestroyEnv) (d : DevId) : KeepsIds (ndmgmDestroyServer env d) := by
  refine .bind (downTrylock _ _) fun _ => .ite (.bind (dev d) fun _ => ?_) (.pure _)
  refine .bind (setDev _ _) fun _ => .bind (refs d) fun _ => release ?_
  exact .bind (freeData d) fun _ => .pure _

theorem destroy (env : DestroyEnv) (d : DevId) : KeepsIds (ndmgmDestroy env d) :=
  .bind (dev d) fun _ => .ite (destroyDummy env d) (destroyServer env d)

theorem unlinkDev (free : Bool) (d : DevId) : KeepsIds (Kernel.unlinkDev free d) := by
  refine .bind (downTrylock _ _) fun _ => .ite ?_ (.pure _)
  exact .bind (modify fun _ => rfl) fun _ => .bind (put d) fun _ => up _

theorem findDestroy (env : DestroyEnv) (nlpid : Int32) : KeepsIds (ndmgmFindDestroy env nlpid) := by
  refine .bind (find _ _) fun d => ?_
  cases d with
  | none => exact .pure _
  | some d => exact .bind (unlinkDev _ d) fun _ => destroy env d

theorem endDevs (env : DevId → DestroyEnv) (ds : List DevId) : KeepsIds (Kernel.endDevs env ds) := by
  induction ds with
  | nil => exact .pure _
  | cons d ds ih =>
      refine .bind (modify fun _ => rfl) fun _ => .bind (put d) fun _ => ?_
      exact .bind (destroy (env d) d) fun _ => ih

theorem «end» (free : Bool) (env : DevId → DestroyEnv) : KeepsIds (ndmgmEnd free env) := by
  refine .bind (downTrylock _ _) fun _ => .ite (.bind registry fun _ => ?_) (.pure _)
  refine .bind (endDevs _ _) fun _ => .bind (modify fun _ => rfl) fun _ => ?_
  exact .bind (up _) fun _ => .pure _

/-! ## Tasks and messages -/

theorem exec (env : FoEnv) (op : FoOp) : KeepsIds (op.exec env) := by
  cases op with
  | enter => exact .pure _
  | findPid minor => exact findPid _ _
  | find nlpid => exact find _ _
  | get nddata => exact .bind (deref _) fun _ => get _
  | put d => exact put d
  | findAcc d accessId => exact findAcc' _ _ _
  | accStart nddata pid => exact accStart _ _ _
  | accDestroy acc => exact accDestroy acc
  | dummy d => exact .bind (dev d) fun _ => .pure _
  | active a => exact .bind (acc a) fun _ => .bind (dev _) fun _ => .pure _
  | newReq a call =>
      refine .bind (acc a) fun _ => .bind (dev _) fun _ => ?_
      cases env.addr with
      | none => exact .pure _
      | some p => exact .bind (modify fun _ => rfl) fun _ => .pure _
  | foreqAdd a req => exact .bind (acc a) fun _ => .bind (setAcc _ _) fun _ => .pure _
  | kzalloc => exact .pure _
  | incseq d => exact incseq d
  | setSeq req seq => exact .bind registry fun _ => modify fun _ => rfl
  | netlinkSend d => exact .bind (dev d) fun _ => .pure _
  | wait req => exact .bind registry fun _ => .ite (.stop _) (.pure _)
  | freeReq a req =>
      exact .bind (acc a) fun _ => .bind (dev _) fun _ => .bind (deref _) fun _ => .pure _
  | foreqFind a seq =>
      refine .bind (acc a) fun data => .bind registry fun reg => ?_
      cases foAccForeqFind env.free reg.reqs data.queue seq with
      | none => exact .stop _
      | some found => exact .bind (setAcc _ _) fun _ => .pure _
  | deserializeToreq req data =>
      exact .bind registry fun _ => .bind (ofMem _) fun _ => .bind (modify fun _ => rfl) fun _ => .pure _
  | complete req => exact .bind registry fun _ => modify fun _ => rfl
  | execute a nlh =>
      refine .bind (acc a) fun _ => .bind (dev _) fun _ => .bind (ofMem _) fun _ => ?_
      exact .bind (setAcc _ _) fun _ => .pure _

theorem control (msg : Control) : KeepsIds msg.exec := by
  cases msg with
  | regDummy env pid => exact createDummy env pid
  | regServer env pid => exact createServer env pid
  | unregister env pid => exact findDestroy env pid

/-- A whole call. -/
theorem call {α : Type} {m : Ker α} (h : KeepsIds m) (reg : Registry) :
    reg.nextAcc ≤ (Ker.call m reg).2.nextAcc := h ⟨reg, []⟩

end Ker.KeepsIds

/-! ## Steps of the module -/

namespace Module.Step
variable {s s' : Module.State} {l : Module.Label}

theorem nextAcc_le (h : Module.Step s l s') : s.registry.nextAcc ≤ s'.registry.nextAcc := by
  cases h with
  | control hpid => exact (Ker.KeepsIds.control _).call _
  | exit => exact (Ker.KeepsIds.end _ _).call _
  | start henabled => exact le_rfl
  | @perform reg reg' ts ts' t env op k r hprog hexec =>
      have hcall := (Ker.KeepsIds.exec env op).call reg
      rwa [hexec] at hcall
  | @oops reg reg' ts ts' t env op k e hprog hexec he =>
      have hcall := (Ker.KeepsIds.exec env op).call reg
      rwa [hexec] at hcall
  | finish hprog => exact le_rfl

theorem wf (h : Module.Step s l s') (hwf : s.registry.Wf) : s'.registry.Wf := by
  cases h with
  | @control s msg hpid =>
      rcases Control.after_balanced hwf msg with ⟨d, hbal⟩ | hbal
      · exact hbal.wf
      · exact hbal.wf
  | @exit s free env => exact (ended_balanced hwf free env).wf
  | start henabled => exact hwf
  | @perform reg reg' ts ts' t env op k r hprog hexec =>
      have hbal := (exec_keeps hwf env op).1 r (congrArg Prod.fst hexec)
      rw [hexec] at hbal
      exact hbal.wf
  | @oops reg reg' ts ts' t env op k e hprog hexec he =>
      have hbal := (exec_keeps hwf env op).2 e (congrArg Prod.fst hexec)
      rw [hexec] at hbal
      exact hbal.wf
  | finish hprog => exact hwf

end Module.Step
end Netdev.Kernel
