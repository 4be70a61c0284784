-- SUMMARY: Daemons do not disturb each other: what the module does for one leaves the devices, files and minors of the others alone.
import Netdev.Kernel.FailedOpen
import Netdev.Kernel.PutMinor

/-!
# Isolation

The kernel module serves any number of daemons, told apart by their pids. A message of one
of them, and each operation on one of its files, touches only what belongs to its pid.
-/

namespace Netdev.Kernel
open Base Registry

/-! ## The operations of a task -/

/-- The device that an operation names. -/
def FoOp.device : FoOp → Option DevId
  | .get nddata => nddata
  | .put d => some d
  | .findAcc d _ => some d
  | .accStart nddata _ => nddata
  | .accDestroy acc => some acc.nddata
  | .dummy d => some d
  | .active acc => some acc.nddata
  | .newReq acc _ => some acc.nddata
  | .foreqAdd acc _ => some acc.nddata
  | .incseq d => some d
  | .netlinkSend d => some d
  | .freeReq acc _ => some acc.nddata
  | .foreqFind acc _ => some acc.nddata
  | .execute acc _ => some acc.nddata
  | _ => none

/-- Nothing but this device and its open files has changed, and of the table at most the entry
of this device. -/
structure Registry.Only (reg reg' : Registry) (own : Option DevId) : Prop where
  nextDev : reg'.nextDev = reg.nextDev
  nlpid : ∀ d x', reg'.devs d = some x' → ∃ x, reg.devs d = some x ∧ x.nlpid = x'.nlpid
  devs : ∀ d, own ≠ some d → reg'.devs d = reg.devs d
  files : ∀ a : AccRef, own ≠ some a.nddata → reg'.accs a = reg.accs a
  table : ∀ e ∈ reg'.netdevHtable.entries, e ∈ reg.netdevHtable.entries
  others : reg'.netdevHtable.entries.filter (fun e => own ≠ some e.2)
    = reg.netdevHtable.entries.filter fun e => own ≠ some e.2

namespace Registry.Only
variable {reg reg' reg'' : Registry} {own : Option DevId} {d : DevId} {nddata nddata' : NetdevData}

theorem refl (reg : Registry) (own : Option DevId) : reg.Only reg own :=
  ⟨rfl, fun _ x' hx' => ⟨x', hx', rfl⟩, fun _ _ => rfl, fun _ _ => rfl, fun _ h => h, rfl⟩

theorem trans (h : reg.Only reg' own) (h' : reg'.Only reg'' own) : reg.Only reg'' own where
  nextDev := h'.nextDev.trans h.nextDev
  nlpid d x'' hx'' := by
    obtain ⟨x', hx', hsame'⟩ := h'.nlpid d x'' hx''
    obtain ⟨x, hx, hsame⟩ := h.nlpid d x' hx'
    exact ⟨x, hx, hsame.trans hsame'⟩
  devs d hd := (h'.devs d hd).trans (h.devs d hd)
  files a ha := (h'.files a ha).trans (h.files a ha)
  table e he := h.table e (h'.table e he)
  others := h'.others.trans h.others

/-- Changes of anything but devices, files and the table. -/
theorem of_eq (hnext : reg'.nextDev = reg.nextDev) (hdevs : reg'.devs = reg.devs) (haccs : reg'.accs = reg.accs)
    (htable : reg'.netdevHtable = reg.netdevHtable) : reg.Only reg' own where
  nextDev := hnext
  nlpid d x' hx' := ⟨x', hdevs ▸ hx', rfl⟩
  devs d _ := by rw [hdevs]
  files a _ := by rw [haccs]
  table e he := htable ▸ he
  others := by rw [htable]

theorem setDev (hd : reg.devs d = some nddata) (hnlpid : nddata'.nlpid = nddata.nlpid) :
    reg.Only (reg.setDev d nddata') (some d) where
  nextDev := rfl
  nlpid e x' hx' := by
    by_cases heq : e = d
    · subst heq
      rw [setDev_self] at hx'
      obtain rfl := Option.some.inj hx'
      exact ⟨nddata, hd, hnlpid.symm⟩
    · rw [setDev_of_ne _ _ heq] at hx'
      exact ⟨x', hx', rfl⟩
  devs e he := setDev_of_ne _ _ fun heq => he (congrArg some heq.symm)
  files _ _ := rfl
  table _ he := he
  others := rfl

theorem freeDev (reg : Registry) (d : DevId) : reg.Only (reg.freeDev d) (some d) where
  nextDev := rfl
  nlpid e x' hx' := by
    by_cases heq : e = d
    · subst heq
      rw [freeDev_self] at hx'
      cases hx'
    · rw [freeDev_of_ne _ heq] at hx'
      exact ⟨x', hx', rfl⟩
  devs e he := freeDev_of_ne _ fun heq => he (congrArg some heq.symm)
  files _ _ := rfl
  table _ he := he
  others := rfl

/-- A change of the files of one device. -/
theorem ofAccs {accs : AccRef → Option Acc} (h : ∀ a : AccRef, a.nddata ≠ d → accs a = reg.accs a) :
    reg.Only { reg with accs } (some d) where
  nextDev := rfl
  nlpid _ x' hx' := ⟨x', hx', rfl⟩
  devs _ _ := rfl
  files a ha := h a fun heq => ha (congrArg some heq.symm)
  table _ he := he
  others := rfl

theorem setAcc (reg : Registry) (a : AccRef) (data : Acc) : reg.Only (reg.setAcc a data) (some a.nddata) :=
  ofAccs fun _ hne => setAcc_of_ne _ _ fun heq => hne (congrArg AccRef.nddata heq)

theorem freeAcc (reg : Registry) (a : AccRef) : reg.Only (reg.freeAcc a) (some a.nddata) :=
  ofAccs fun _ hne => Function.update_of_ne (fun heq => hne (congrArg AccRef.nddata heq)) ..

theorem unhash (reg : Registry) (d : DevId) : reg.Only (reg.unhash d) (some d) where
  nextDev := rfl
  nlpid _ x' hx' := ⟨x', hx', rfl⟩
  devs _ _ := rfl
  files _ _ := rfl
  table _ he := List.mem_of_mem_filter he
  others := by
    change (reg.netdevHtable.entries.filter fun e => e.2 ≠ d).filter _ = _
    rw [List.filter_filter]
    refine List.filter_congr fun e _ => ?_
    simp [eq_comm]

end Registry.Only

/-! ## Calls -/

section Calls
variable {c : Call}

theorem Looks.only {α : Type} {Q : α → Prop} {r : Except Halt α} {c' : Call} (h : Looks c Q r c')
    (own : Option DevId) : c.registry.Only c'.registry own := by
  cases r with
  | ok a =>
      obtain ⟨rfl, -⟩ := h
      exact .refl _ _
  | error e =>
      rw [h.2]
      exact .refl _ _

theorem ndmgmGet_only (d : DevId) : Exec.wp (ndmgmGet d) (fun _ c' => c.registry.Only c'.registry (some d)) c :=
  Ker.wp_dev (fun _ hd => .setDev hd rfl) (fun _ => .refl _ _)

theorem ndmgmPut_only (d : DevId) : Exec.wp (ndmgmPut d) (fun _ c' => c.registry.Only c'.registry (some d)) c :=
  Ker.wp_dev (fun _ hd => .setDev hd rfl) (fun _ => .refl _ _)

theorem foAccStart_only (env : StartEnv) (nddata : Option DevId) (pid : Int32) :
    Exec.wp (foAccStart env nddata pid) (fun _ c' => c.registry.Only c'.registry nddata) c := by
  cases nddata with
  | none => exact .refl _ _
  | some d =>
      refine Exec.wp_ite (fun _ => .refl _ _) (fun _ => ?_)
      refine Ker.wp_dev (fun nddata hd => ?_) (fun _ => .refl _ _)
      refine Exec.wp_ite (fun _ => .refl _ _) (fun _ => ?_)
      refine Ker.wp_downTrylock (fun _ _ => ?_) (fun _ => .refl _ _)
      refine Ker.wp_registry (Ker.wp_modify (Ker.wp_modify (Ker.wp_modify ?_)))
      refine wp_ndmgmGet (setDev_self _ _) (Ker.wp_up ?_)
      have hnext : c.registry.Only { c.registry with nextAcc := c.registry.nextAcc + 1 } (some d) :=
        .of_eq rfl rfl rfl rfl
      refine Only.trans ?_ (.setDev (setDev_self _ _) rfl)
      refine Only.trans ?_ (.setDev hd rfl)
      exact hnext.trans (.setAcc _ ⟨c.registry.nextAcc, d⟩ _)

theorem foAccDestroy_only (a : AccRef) :
    Exec.wp (foAccDestroy a) (fun _ c' => c.registry.Only c'.registry (some a.nddata)) c := by
  refine Ker.wp_acc (fun data _ => ?_) (fun _ => .refl _ _)
  refine Ker.wp_dev (fun nddata _ => ?_) (fun _ => .refl _ _)
  refine Ker.wp_downWrite (fun _ => ?_) (fun _ => .refl _ _) (fun _ _ => .refl _ _)
  refine Ker.wp_dev (fun nddata hd => ?_) (fun _ => .refl _ _)
  refine Ker.wp_modify (wp_ndmgmPut (setDev_self _ _) (Ker.wp_up ?_))
  refine Only.trans ?_ (.freeAcc _ a)
  refine Only.trans ?_ (.setDev (setDev_self _ _) rfl)
  exact .setDev hd rfl

/-- Every operation of a task. -/
theorem FoOp.exec_only (env : FoEnv) (op : FoOp) :
    Exec.wp (op.exec env) (fun _ c' => c.registry.Only c'.registry op.device) c := by
  cases op with
  | enter => exact .refl _ _
  | findPid minor => exact (ndmgmFindPid_looks env.free minor).mono fun _ _ hr => hr.only _
  | find nlpid => exact (ndmgmFind_looks env.free nlpid).mono fun _ _ hr => hr.only _
  | get nddata =>
      cases nddata with
      | none => exact .refl _ _
      | some d => exact ndmgmGet_only d
  | put d => exact ndmgmPut_only d
  | findAcc d accessId => exact (ndmgmFindAcc_looks env.free d accessId).mono fun _ _ hr => hr.only _
  | accStart nddata pid => exact foAccStart_only env.start nddata pid
  | accDestroy acc => exact foAccDestroy_only acc
  | dummy d => exact Ker.wp_dev (fun _ _ => .refl _ _) (fun _ => .refl _ _)
  | active acc =>
      refine Ker.wp_acc (fun _ _ => ?_) (fun _ => .refl _ _)
      exact Ker.wp_dev (fun _ _ => .refl _ _) (fun _ => .refl _ _)
  | newReq acc call =>
      refine Ker.wp_acc (fun data _ => ?_) (fun _ => .refl _ _)
      refine Ker.wp_dev (fun _ _ => ?_) (fun _ => .refl _ _)
      cases env.addr with
      | none => exact .refl _ _
      | some p => exact .of_eq rfl rfl rfl rfl
  | foreqAdd acc req => exact Ker.wp_acc (fun data _ => .setAcc _ _ _) (fun _ => .refl _ _)
  | kzalloc => exact .refl _ _
  | incseq d => exact Ker.wp_dev (fun nddata hd => .setDev hd rfl) (fun _ => .refl _ _)
  | setSeq req seq => exact .of_eq rfl rfl rfl rfl
  | netlinkSend d => exact Ker.wp_dev (fun _ _ => .refl _ _) (fun _ => .refl _ _)
  | wait req => exact Ker.wp_registry (Exec.wp_ite (fun _ => .refl _ _) (fun _ => .refl _ _))
  | freeReq acc req =>
      refine Ker.wp_acc (fun _ _ => ?_) (fun _ => .refl _ _)
      refine Ker.wp_dev (fun _ _ => ?_) (fun _ => .refl _ _)
      exact Ker.wp_deref (fun _ _ => .refl _ _) (fun _ => .refl _ _)
  | foreqFind acc seq =>
      refine Ker.wp_acc (fun data _ => Ker.wp_registry ?_) (fun _ => .refl _ _)
      cases foAccForeqFind env.free c.registry.reqs data.queue seq with
      | none => exact .refl _ _
      | some found => exact .setAcc _ _ _
  | deserializeToreq req data =>
      exact Ker.wp_registry (Ker.wp_ofMem (fun _ _ => .of_eq rfl rfl rfl rfl) (.refl _ _))
  | complete req => exact .of_eq rfl rfl rfl rfl
  | execute acc nlh =>
      refine Ker.wp_acc (fun data _ => ?_) (fun _ => .refl _ _)
      refine Ker.wp_dev (fun _ _ => ?_) (fun _ => .refl _ _)
      exact Ker.wp_ofMem (fun _ _ => .setAcc _ _ _) (.refl _ _)

end Calls

theorem exec_only (reg : Registry) (env : FoEnv) (op : FoOp) :
    reg.Only (Ker.call (op.exec env) reg).2 op.device :=
  Ker.call_of_wp (P := fun _ reg' => reg.Only reg' op.device)
    ((FoOp.exec_only (c := ⟨reg, []⟩) env op).mono fun _ _ h => h.trans (.of_eq rfl rfl rfl rfl))


/-! ## Unregistration -/

section Destroy
variable {c : Call} {d : DevId}

/-- The files of a device say so themselves. -/
def Registry.OwnsFiles (reg : Registry) (d : DevId) : Prop :=
  ∀ nddata, reg.devs d = some nddata → ∀ a ∈ nddata.foaccHtable.values, a.nddata = d

theorem freeQueue_only (a : AccRef) :
    Exec.wp (freeQueue a) (fun _ c' => c.registry.Only c'.registry (some a.nddata)) c := by
  refine Ker.wp_acc (fun data _ => Ker.wp_registry ?_) (fun _ => .refl _ _)
  cases foAccFreeQueue data.queue c.registry.reqs with
  | none => exact .refl _ _
  | some freed => exact (Only.setAcc _ _ _).trans (.of_eq rfl rfl rfl rfl)

theorem destroyAccs_only {as : List AccRef} (has : ∀ a ∈ as, a.nddata = d) :
    Exec.wp (destroyAccs d as) (fun _ c' => c.registry.Only c'.registry (some d)) c := by
  induction as generalizing c with
  | nil => exact .refl _ _
  | cons a as ih =>
      have ha := has a List.mem_cons_self
      have hrest := fun c₂ => @ih c₂ fun b hb => has b (List.mem_cons_of_mem a hb)
      refine Ker.wp_modify (Exec.wp_bind (freeQueue_only a) (fun n c₁ h₁ => ?_) (fun e c₁ h₁ => ?_))
      · rw [ha] at h₁
        have h₁ := (Only.unhash c.registry d).trans h₁
        refine Exec.wp_ite (fun _ => h₁) (fun _ => ?_)
        refine Exec.wp_bind (foAccDestroy_only a) (fun _ c₂ h₂ => ?_) (fun e c₂ h₂ => ?_)
        · exact (hrest c₂).mono fun _ _ h => (h₁.trans (ha ▸ h₂)).trans h
        · exact h₁.trans (ha ▸ h₂)
      · rw [ha] at h₁
        exact (Only.unhash c.registry d).trans h₁

theorem ndmgmDestroyAllacc_only (env : DestroyEnv) (h : c.registry.OwnsFiles d) :
    Exec.wp (ndmgmDestroyAllacc env d) (fun _ c' => c.registry.Only c'.registry (some d)) c := by
  refine Ker.wp_downTrylock (fun _ _ => ?_) (fun _ => .refl _ _)
  refine Ker.wp_dev (fun nddata hd => Ker.wp_registry ?_) (fun _ => .refl _ _)
  exact @destroyAccs_only ⟨c.registry, .htable :: c.own⟩ d _ fun a ha =>
    h nddata hd a (Hashtable.mem_forEach.mp ha)

theorem ndmgmPutMinor_only (free : Bool) (minor : Nat) :
    Exec.wp (ndmgmPutMinor free minor) (fun _ c' => c.registry.Only c'.registry (some d)) c := by
  refine Ker.wp_downTrylock (fun _ _ => ?_) (fun _ => .refl _ _)
  refine Ker.wp_registry (Ker.wp_deref (fun m _ => ?_) (fun _ => .refl _ _))
  exact Ker.wp_ofMem (fun m' _ => .of_eq rfl rfl rfl rfl) (.refl _ _)

theorem ndmgmRefs_only (d : DevId) : Exec.wp (ndmgmRefs d) (fun _ c' => c.registry.Only c'.registry (some d)) c :=
  Ker.wp_dev (fun _ _ => .refl _ _) (fun _ => .refl _ _)

theorem freeData_only (d : DevId) : Exec.wp (freeData d) (fun _ c' => c.registry.Only c'.registry (some d)) c :=
  Ker.wp_dev (fun _ _ => .freeDev _ d) (fun _ => .refl _ _)

/-- The device is marked as inactive, and the rest goes on with it. -/
theorem wp_deactivate {α : Type} {m : Ker α} (h : c.registry.OwnsFiles d)
    (hm : ∀ {c' : Call}, c.registry.Only c'.registry (some d) → c'.registry.OwnsFiles d →
      Exec.wp m (fun _ c' => c.registry.Only c'.registry (some d)) c') :
    Exec.wp (do Ker.setDev d { ← Ker.dev d with active := false }; m)
      (fun _ c' => c.registry.Only c'.registry (some d)) c := by
  refine Ker.wp_dev (fun nddata hd => Ker.wp_modify (hm (.setDev hd rfl) ?_)) (fun _ => .refl _ _)
  intro nddata' hd' a ha
  obtain rfl := Option.some.inj ((setDev_self _ _).symm.trans hd')
  exact h nddata hd a ha

theorem ndmgmDestroyServer_only (env : DestroyEnv) (h : c.registry.OwnsFiles d) :
    Exec.wp (ndmgmDestroyServer env d) (fun _ c' => c.registry.Only c'.registry (some d)) c := by
  refine Ker.wp_downTrylock (fun _ _ => ?_) (fun _ => .refl _ _)
  refine wp_deactivate (c := ⟨c.registry, .dev d :: c.own⟩) h fun {c'} hsame _ => ?_
  refine Exec.wp_bind (ndmgmRefs_only d) (fun n c₁ h₁ => ?_) (fun _ _ h₁ => hsame.trans h₁)
  have h₁ := hsame.trans h₁
  refine Exec.wp_ite (fun _ => Ker.wp_up h₁) (fun _ => Ker.wp_up ?_)
  exact Exec.wp_bind (@freeData_only ⟨_, _⟩ d) (fun _ _ h₂ => h₁.trans h₂) (fun _ _ h₂ => h₁.trans h₂)

theorem ndmgmDestroyDummy_only (env : DestroyEnv) (h : c.registry.OwnsFiles d) :
    Exec.wp (ndmgmDestroyDummy env d) (fun _ c' => c.registry.Only c'.registry (some d)) c := by
  refine Ker.wp_downTrylock (fun _ _ => ?_) (fun _ => .refl _ _)
  refine wp_deactivate (c := ⟨c.registry, .dev d :: c.own⟩) h fun {c'} hsame hlists => ?_
  refine Exec.wp_bind (ndmgmDestroyAllacc_only env hlists) (fun n c₁ h₁ => ?_) (fun _ _ h₁ => hsame.trans h₁)
  have h₁ := hsame.trans h₁
  refine Exec.wp_ite (fun _ => Ker.wp_up h₁) (fun _ => ?_)
  refine Exec.wp_bind (ndmgmRefs_only d) (fun n c₂ h₂ => ?_) (fun _ _ h₂ => h₁.trans h₂)
  have h₂ := h₁.trans h₂
  refine Exec.wp_ite (fun _ => Ker.wp_up h₂) (fun _ => Ker.wp_up ?_)
  refine Ker.wp_dev (fun nddata _ => ?_) (fun _ => h₂)
  refine Exec.wp_bind (@ndmgmPutMinor_only ⟨_, _⟩ d _ _) (fun _ c₃ h₃ => ?_) (fun _ _ h₃ => h₂.trans h₃)
  have h₃ := h₂.trans h₃
  exact Exec.wp_bind (@freeData_only ⟨_, _⟩ d) (fun _ _ h₄ => h₃.trans h₄) (fun _ _ h₄ => h₃.trans h₄)

theorem ndmgmDestroy_only (env : DestroyEnv) (h : c.registry.OwnsFiles d) :
    Exec.wp (ndmgmDestroy env d) (fun _ c' => c.registry.Only c'.registry (some d)) c := by
  refine Ker.wp_dev (fun nddata _ => ?_) (fun _ => .refl _ _)
  exact Exec.wp_ite (fun _ => ndmgmDestroyDummy_only env h) (fun _ => ndmgmDestroyServer_only env h)

/-- `ndmgm_find_destroy` touches a device of the pid that it is given. -/
theorem ndmgmFindDestroy_only (h : c.registry.Wf) (env : DestroyEnv) (nlpid : Int32) :
    Exec.wp (ndmgmFindDestroy env nlpid) (fun _ c' => c.registry.Only c'.registry none ∨
      ∃ d nddata, c.registry.devs d = some nddata ∧ nddata.nlpid = nlpid.toUInt32 ∧
        c.registry.Only c'.registry (some d)) c := by
  refine Exec.wp_bind (ndmgmFind_looks env.find nlpid) (fun r c' hr => ?_) (fun _ _ he => .inl (he.only none))
  cases r with
  | none => exact .inl (hr.only none)
  | some d =>
      obtain ⟨rfl, hfound⟩ := hr
      obtain ⟨-, -, nddata, hd, hnlpid⟩ := hfound d rfl
      have hlists : c'.registry.OwnsFiles d := fun nddata hd a ha => ((h.mem_files d nddata hd a).mp ha).1
      have hunlink : Exec.wp (unlinkDev env.findDestroy d)
          (fun _ c₁ => c'.registry.Only c₁.registry (some d) ∧ c₁.registry.OwnsFiles d) c' := by
        refine Ker.wp_downTrylock (fun _ _ => ?_) (fun _ => ⟨.refl _ _, hlists⟩)
        refine Ker.wp_modify (wp_ndmgmPut hd ?_)
        refine ⟨(Only.unhash c'.registry d).trans (.setDev hd rfl), fun nddata' hd' a ha => ?_⟩
        obtain rfl := Option.some.inj ((setDev_self _ _).symm.trans hd')
        exact hlists nddata hd a ha
      refine Exec.wp.mono (Q := fun _ c₁ => c'.registry.Only c₁.registry (some d)) ?_
        fun _ _ hsame => .inr ⟨d, nddata, hd, hnlpid, hsame⟩
      refine Exec.wp_bind hunlink (fun _ c₁ h₁ => ?_) (fun _ _ h₁ => h₁.1)
      exact (ndmgmDestroy_only env h₁.2).mono fun _ _ h₂ => h₁.1.trans h₂

end Destroy

/-! ## What belongs to a daemon -/

/-- All that a registry has of one daemon, as it was: its devices, their open files, its entries
in the table and its minors. -/
structure Registry.SameDevices (p : UInt32) (reg reg' : Registry) : Prop where
  devs : ∀ d nddata, nddata.nlpid = p → (reg'.devs d = some nddata ↔ reg.devs d = some nddata)
  files : ∀ (a : AccRef) nddata, reg.devs a.nddata = some nddata → nddata.nlpid = p → reg'.accs a = reg.accs a
  table : reg'.netdevHtable.entries.filter (fun e => e.1 = p) = reg.netdevHtable.entries.filter fun e => e.1 = p
  minors : ∀ m, reg.minors = some m → ∃ m', reg'.minors = some m' ∧
    ∀ i : Nat, m'.used[i]? = some p.toInt32 ↔ m.used[i]? = some p.toInt32

/-- The entries of the table have the pids of their devices as keys. -/
def Registry.Keyed (reg : Registry) : Prop :=
  ∀ e ∈ reg.netdevHtable.entries, ∀ nddata, reg.devs e.2 = some nddata → nddata.nlpid = e.1

/-- A device has this pid as long as it is there. -/
structure Registry.Belongs (reg : Registry) (q : UInt32) (d : DevId) : Prop where
  lt : d < reg.nextDev
  nlpid : ∀ nddata, reg.devs d = some nddata → nddata.nlpid = q

namespace Registry.SameDevices
variable {p : UInt32} {reg reg' reg'' : Registry}

theorem refl (p : UInt32) (reg : Registry) : SameDevices p reg reg where
  devs _ _ _ := Iff.rfl
  files _ _ _ _ := rfl
  table := rfl
  minors m hm := ⟨m, hm, fun _ => Iff.rfl⟩

theorem trans (h : SameDevices p reg reg') (h' : SameDevices p reg' reg'') : SameDevices p reg reg'' where
  devs d nddata hp := (h'.devs d nddata hp).trans (h.devs d nddata hp)
  files a nddata ha hp := (h'.files a nddata ((h.devs _ _ hp).mpr ha) hp).trans (h.files a nddata ha hp)
  table := h'.table.trans h.table
  minors m hm := by
    obtain ⟨m', hm', hsame⟩ := h.minors m hm
    obtain ⟨m'', hm'', hsame'⟩ := h'.minors m' hm'
    exact ⟨m'', hm'', fun i => (hsame' i).trans (hsame i)⟩

/-- A device of another daemon changes. -/
theorem of_only {own : Option DevId} (h : reg.Only reg' own)
    (hown : ∀ d nddata, own = some d → reg.devs d = some nddata → nddata.nlpid ≠ p)
    (htable : reg'.netdevHtable.entries.filter (fun e => e.1 = p)
      = reg.netdevHtable.entries.filter fun e => e.1 = p)
    (hminors : ∀ m, reg.minors = some m → ∃ m', reg'.minors = some m' ∧
      ∀ i : Nat, m'.used[i]? = some p.toInt32 ↔ m.used[i]? = some p.toInt32) : SameDevices p reg reg' where
  devs d nddata hp := by
    by_cases heq : own = some d
    · refine iff_of_false (fun hd => ?_) (fun hd => hown d nddata heq hd hp)
      obtain ⟨x, hx, hsame⟩ := h.nlpid d nddata hd
      exact hown d x heq hx (hsame.trans hp)
    · rw [h.devs d heq]
  files a nddata ha hp := h.files a fun heq => hown _ nddata heq ha hp
  table := htable
  minors := hminors

end Registry.SameDevices

namespace Registry.Only
variable {reg reg' : Registry} {own : Option DevId} {p q : UInt32} {d : DevId}

theorem keyed (h : reg.Only reg' own) (hkeyed : reg.Keyed) : reg'.Keyed := by
  intro e he nddata' hd'
  obtain ⟨nddata, hd, hsame⟩ := h.nlpid _ _ hd'
  rw [← hsame]
  exact hkeyed e (h.table e he) nddata hd

theorem belongs (h : reg.Only reg' own) (hd : reg.Belongs q d) : reg'.Belongs q d where
  lt := h.nextDev ▸ hd.lt
  nlpid nddata' hd' := by
    obtain ⟨nddata, hd₀, hsame⟩ := h.nlpid _ _ hd'
    exact hsame.symm.trans (hd.nlpid nddata hd₀)

/-- Entries of other pids stay when a device is taken out of the table. -/
theorem table_filter (h : reg.Only reg' own)
    (hkey : ∀ e ∈ reg.netdevHtable.entries, own = some e.2 → e.1 ≠ p) :
    reg'.netdevHtable.entries.filter (fun e => e.1 = p) = reg.netdevHtable.entries.filter fun e => e.1 = p := by
  have hfilter : ∀ l : List (UInt32 × DevId), (∀ e ∈ l, own = some e.2 → e.1 ≠ p) →
      l.filter (fun e => e.1 = p) = (l.filter fun e => own ≠ some e.2).filter fun e => e.1 = p := by
    intro l hl
    rw [List.filter_filter]
    refine List.filter_congr fun e he => ?_
    by_cases hp : e.1 = p
    · have hne : own ≠ some e.2 := fun heq => hl e he heq hp
      simp [hp, hne]
    · simp [hp]
  rw [hfilter _ hkey, hfilter _ fun e he => hkey e (h.table e he), h.others]

end Registry.Only

/-! ## Messages -/

section Messages
variable {reg : Registry} {p : UInt32} {m m' : Minors}

/-- A registered device is of another pid. -/
theorem register_sameDevices (h : reg.Wf) {nlpid : Int32} (hp : nlpid.toUInt32 ≠ p) (dummy : Bool) (minor : Nat) :
    SameDevices p reg (reg.register nlpid dummy minor) where
  devs d nddata hnlpid := by
    by_cases hnew : d = reg.nextDev
    · subst hnew
      have hself : (reg.register nlpid dummy minor).devs reg.nextDev = some (.registered nlpid dummy minor) :=
        Function.update_self ..
      refine iff_of_false (fun hd => ?_) (fun hd => ?_)
      · obtain rfl := Option.some.inj (hself.symm.trans hd)
        exact hp hnlpid
      · exact absurd (h.devs_lt _ (hd.trans_ne (Option.some_ne_none _))) (Nat.lt_irrefl _)
    · rw [register_of_ne hnew]
  files _ _ _ _ := rfl
  table := List.filter_cons_of_neg (by simpa using hp)
  minors m hm := ⟨m, hm, fun _ => Iff.rfl⟩

theorem abandon_sameDevices (h : reg.Wf) : SameDevices p reg reg.abandon where
  devs d nddata hnlpid := by
    by_cases hnew : d = reg.nextDev
    · subst hnew
      have hself : reg.abandon.devs reg.nextDev = none := Function.update_self ..
      refine iff_of_false (fun hd => by cases hself.symm.trans hd) (fun hd => ?_)
      exact absurd (h.devs_lt _ (hd.trans_ne (Option.some_ne_none _))) (Nat.lt_irrefl _)
    · rw [abandon_of_ne hnew]
  files _ _ _ _ := rfl
  table := rfl
  minors m hm := ⟨m, hm, fun _ => Iff.rfl⟩

/-- Another table of the minors in which the entries of the pid are the same. -/
theorem setMinors_sameDevices (hm : reg.minors = some m)
    (hsame : ∀ i : Nat, m'.used[i]? = some p.toInt32 ↔ m.used[i]? = some p.toInt32) :
    SameDevices p reg { reg with minors := some m' } where
  devs _ _ _ := Iff.rfl
  files _ _ _ _ := rfl
  table := rfl
  minors m₁ hm₁ := by
    obtain rfl := Option.some.inj (hm.symm.trans hm₁)
    exact ⟨m', rfl, hsame⟩

/-- An entry that neither had nor gets the pid changes. -/
theorem used_set_iff {pid owner : Int32} {minor : Nat} (hold : m.used[minor]? = some owner)
    (hset : m'.used = m.used.set minor pid) (howner : owner ≠ p.toInt32) (hpid : pid ≠ p.toInt32) (i : Nat) :
    m'.used[i]? = some p.toInt32 ↔ m.used[i]? = some p.toInt32 := by
  rw [hset]
  by_cases heq : minor = i
  · subst heq
    rw [List.getElem?_set_self (List.getElem?_eq_some_iff.mp hold).1, hold]
    exact iff_of_false (fun h => hpid (Option.some.inj h)) (fun h => howner (Option.some.inj h))
  · rw [List.getElem?_set_ne heq]

theorem toInt32_ne {nlpid : Int32} (hp : nlpid.toUInt32 ≠ p) : nlpid ≠ p.toInt32 := by
  rintro rfl
  exact hp rfl

theorem Registry.SameDevices.stuck {reg' : Registry} (h : SameDevices p reg reg') (stuck : List Sem) :
    SameDevices p reg { reg' with stuck } :=
  ⟨h.devs, h.files, h.table, h.minors⟩

/-- A registration takes an entry of nobody. -/
theorem getMinor_sameDevices {c c' : Call} {free : Bool} {pid : Int32} {r : Except Halt (Option Nat)}
    (hgot : GotMinor c free pid r c') (hpid : pid ≠ p.toInt32) (hp : p.toInt32 ≠ -1) :
    SameDevices p c.registry c'.registry := by
  cases hgot with
  | busy => exact .refl _ _
  | limit => exact .refl _ _
  | dead => exact .refl _ _
  | outside => exact .refl _ _
  | @got m m' minor hlock hm hget =>
      refine setMinors_sameDevices hm fun i => ?_
      obtain ⟨hnone, hsome⟩ := Minors.get_eq hget
      cases minor with
      | none => rw [hnone rfl]
      | some minor =>
          have htaken := (hsome minor rfl).1
          exact used_set_iff htaken.free htaken.used hp.symm hpid i

theorem GotMinor.wf {c c' : Call} {free : Bool} {pid : Int32} {r : Except Halt (Option Nat)}
    (hgot : GotMinor c free pid r c') (h : c.registry.Wf) : c'.registry.Wf := by
  cases hgot with
  | @got m m' => exact (@Balanced.of_eq c.registry { c.registry with minors := some m' } h rfl rfl rfl rfl rfl).wf
  | _ => exact h

theorem regDummy_sameDevices (h : reg.Wf) {env : CreateEnv} {pid : Int32} (hpid : pid.toUInt32 ≠ p)
    (hp : p.toInt32 ≠ -1) : SameDevices p reg ((Control.regDummy env pid).after reg) := by
  have hne := toInt32_ne hpid
  refine Ker.call_of_wp (P := fun _ reg' => SameDevices p reg reg')
    ((ndmgmCreateDummy_spec (c := ⟨reg, []⟩) env pid).mono fun r c' hr => SameDevices.stuck ?_ _)
  cases hr with
  | noMinor hminor => exact getMinor_sameDevices hminor hne hp
  | fault hminor => exact getMinor_sameDevices hminor hne hp
  | minor hminor hcreated =>
      have hsame := getMinor_sameDevices hminor hne hp
      have hwf := hminor.wf h
      cases hcreated with
      | noMemory => exact hsame
      | failed => exact hsame.trans (abandon_sameDevices hwf)
      | created => exact hsame.trans (register_sameDevices hwf hpid true _)

theorem regServer_sameDevices (h : reg.Wf) {env : CreateEnv} {pid : Int32} (hpid : pid.toUInt32 ≠ p) :
    SameDevices p reg ((Control.regServer env pid).after reg) := by
  refine Ker.call_of_wp (P := fun _ reg' => SameDevices p reg reg')
    ((ndmgmCreateServer_spec (c := ⟨reg, []⟩) env pid).mono fun r c' hr => SameDevices.stuck ?_ _)
  cases hr with
  | failed => exact .refl _ _
  | created => exact register_sameDevices h hpid false 0

/-- The minor that an unregistration gives back was that of its device. -/
theorem unregistered_minors {c c' : Call} {env : DestroyEnv} {pid : Int32} {r : Except Halt Int32}
    (hr : Unregistered c env pid r c') (hmarked : Marked c.registry m) (hpid : pid.toUInt32 ≠ p)
    (hp : p.toInt32 ≠ -1) : ∃ m', c'.registry.minors = some m' ∧
      ∀ i : Nat, m'.used[i]? = some p.toInt32 ↔ m.used[i]? = some p.toInt32 := by
  have hold : c'.registry.minors = c.registry.minors → ∃ m', c'.registry.minors = some m' ∧
      ∀ i : Nat, m'.used[i]? = some p.toInt32 ↔ m.used[i]? = some p.toInt32 :=
    fun hminors => ⟨m, hminors.trans hmarked.minors, fun _ => Iff.rfl⟩
  cases hr with
  | unknown => exact hold rfl
  | fault hreg => exact hold (by rw [hreg])
  | @found d nddata r c' hfind hmem hd hnlpid hfree hdestroy =>
      have hfound : (c.found env d nddata).registry.minors = c.registry.minors := found_same.1
      cases hdestroy with
      | deadlock hfiles hbal hdevs hminors hstuck => exact hold (hminors.trans hfound)
      | busy => exact hold hfound
      | kept => exact hold hfound
      | fault hdummy hcheck husers hlocks hput hreg =>
          refine hold ?_
          rw [hreg]
          exact hfound
      | @freed minors hcheck husers hdummy hserver =>
          by_cases hdum : (nddata.found env).dummy = true
          · by_cases hlocks : LocksMinors (c.found env d nddata) env
            · obtain ⟨m₁, m', hm, hput, rfl⟩ := (hdummy hdum).locked hlocks
              obtain rfl := Option.some.inj (hmarked.minors.symm.trans (hfound.symm.trans hm))
              have hident : (nddata.found env).ident = nddata.ident := found_ident
              have hat : c.registry.DummyAt d nddata.nlpid (nddata.found env).minor := by
                rw [DummyAt, hd, Option.map_some, ← hident, ← hdum]
                rw [show nddata.nlpid = (nddata.found env).nlpid from (congrArg Prod.fst hident).symm]
                rfl
              have hown : nddata.nlpid.toInt32 = pid := congrArg UInt32.toInt32 hnlpid.2
              have hused := hmarked.used hat (hown ▸ hnlpid.1)
              obtain ⟨m₂, hput₂, hset, -⟩ := Minors.put_ok (hmarked.lt hat) hmarked.bounded
              obtain rfl := Except.ok.inj (hput.symm.trans hput₂)
              refine ⟨m', rfl, used_set_iff hused hset ?_ hp.symm⟩
              rw [hown]
              exact toInt32_ne hpid
            · exact hold (((hdummy hdum).busy hlocks).trans hfound)
          · exact hold ((hserver (Bool.eq_false_of_not_eq_true hdum)).trans hfound)

theorem unregister_sameDevices (h : reg.Wf) (hkeyed : reg.Keyed) (hmarked : Marked reg m) {env : DestroyEnv}
    {pid : Int32} (hpid : pid.toUInt32 ≠ p) (hp : p.toInt32 ≠ -1) :
    SameDevices p reg ((Control.unregister env pid).after reg) := by
  have honly := ndmgmFindDestroy_only (c := ⟨reg, []⟩) h env pid
  refine Ker.call_of_wp (P := fun _ reg' => SameDevices p reg reg')
    ((ndmgmFindDestroy_spec (c := ⟨reg, []⟩) h env pid).outcome.mono fun r c' hr => SameDevices.stuck ?_ _)
  obtain ⟨hr, hrun⟩ := hr
  have hminors : ∀ m₁, reg.minors = some m₁ → ∃ m', c'.registry.minors = some m' ∧
      ∀ i : Nat, m'.used[i]? = some p.toInt32 ↔ m₁.used[i]? = some p.toInt32 := by
    intro m₁ hm₁
    obtain rfl := Option.some.inj (hmarked.minors.symm.trans hm₁)
    exact unregistered_minors hr hmarked hpid hp
  rw [Exec.wp, hrun] at honly
  rcases honly with honly | ⟨d, nddata, hd, hnlpid, honly⟩
  · refine .of_only honly ?_ (honly.table_filter ?_) hminors
    · intro d nddata hnone
      cases hnone
    · intro e he hnone
      cases hnone
  · refine .of_only honly ?_ (honly.table_filter ?_) hminors
    · intro e x he hx
      obtain rfl := Option.some.inj he
      obtain rfl := Option.some.inj (hd.symm.trans hx)
      rw [hnlpid]
      exact hpid
    · intro e he heq
      obtain heq := Option.some.inj heq
      rw [← hkeyed e he nddata (heq ▸ hd), hnlpid]
      exact hpid

/-- A message of another daemon. -/
theorem Control.after_sameDevices (h : reg.Wf) (hkeyed : reg.Keyed) (hmarked : Marked reg m) {msg : Control}
    (hpid : msg.pid.toUInt32 ≠ p) (hp : p.toInt32 ≠ -1) : SameDevices p reg (msg.after reg) := by
  cases msg with
  | regDummy env pid => exact regDummy_sameDevices h hpid hp
  | regServer env pid => exact regServer_sameDevices h hpid
  | unregister env pid => exact unregister_sameDevices h hkeyed hmarked hpid hp

end Messages

/-! ## What does not change with time -/

/-- The keys of the table stay right, and a device keeps its pid. -/
structure Registry.Ages (reg reg' : Registry) : Prop where
  keyed : reg.Keyed → reg'.Keyed
  belongs : ∀ {q d}, reg.Belongs q d → reg'.Belongs q d

section Ages
variable {reg reg' reg'' : Registry}

theorem Registry.Ages.refl (reg : Registry) : reg.Ages reg := ⟨id, id⟩

theorem Registry.Ages.trans (h : reg.Ages reg') (h' : reg'.Ages reg'') : reg.Ages reg'' :=
  ⟨fun hkeyed => h'.keyed (h.keyed hkeyed), fun hd => h'.belongs (h.belongs hd)⟩

theorem Registry.Only.ages {own : Option DevId} (h : reg.Only reg' own) : reg.Ages reg' := ⟨h.keyed, h.belongs⟩

theorem Registry.Ages.stuck (h : reg.Ages reg') (stuck : List Sem) : reg.Ages { reg' with stuck } :=
  h.trans (@Only.of_eq reg' { reg' with stuck } none rfl rfl rfl rfl).ages

theorem register_ages (h : reg.Wf) (nlpid : Int32) (dummy : Bool) (minor : Nat) :
    reg.Ages (reg.register nlpid dummy minor) where
  keyed hkeyed := by
    intro e he nddata hd
    rcases List.mem_cons.mp he with rfl | he
    · have hself : (reg.register nlpid dummy minor).devs reg.nextDev = some (.registered nlpid dummy minor) :=
        Function.update_self ..
      obtain rfl := Option.some.inj (hself.symm.trans hd)
      rfl
    · have hlt := h.table_lt e.2 (List.mem_map_of_mem he)
      rw [register_of_ne (Nat.ne_of_lt hlt)] at hd
      exact hkeyed e he nddata hd
  belongs {q d} hd := by
    refine ⟨Nat.lt_succ_of_lt hd.lt, fun nddata hlive => ?_⟩
    rw [register_of_ne (Nat.ne_of_lt hd.lt)] at hlive
    exact hd.nlpid nddata hlive

theorem abandon_ages (h : reg.Wf) : reg.Ages reg.abandon where
  keyed hkeyed := by
    intro e he nddata hd
    have hlt := h.table_lt e.2 (List.mem_map_of_mem he)
    rw [abandon_of_ne (Nat.ne_of_lt hlt)] at hd
    exact hkeyed e he nddata hd
  belongs {q d} hd := by
    refine ⟨Nat.lt_succ_of_lt hd.lt, fun nddata hlive => ?_⟩
    rw [abandon_of_ne (Nat.ne_of_lt hd.lt)] at hlive
    exact hd.nlpid nddata hlive

theorem GotMinor.ages {c c' : Call} {free : Bool} {pid : Int32} {r : Except Halt (Option Nat)}
    (hgot : GotMinor c free pid r c') : c.registry.Ages c'.registry := by
  cases hgot with
  | @got m m' => exact (@Only.of_eq c.registry { c.registry with minors := some m' } none rfl rfl rfl rfl).ages
  | _ => exact .refl _

theorem Control.after_ages (h : reg.Wf) (msg : Control) : reg.Ages (msg.after reg) := by
  cases msg with
  | regDummy env pid =>
      refine Ker.call_of_wp (P := fun _ reg' => reg.Ages reg')
        ((ndmgmCreateDummy_spec (c := ⟨reg, []⟩) env pid).mono fun r c' hr => Ages.stuck ?_ _)
      cases hr with
      | noMinor hminor => exact hminor.ages
      | fault hminor => exact hminor.ages
      | minor hminor hcreated =>
          have hwf := hminor.wf h
          cases hcreated with
          | noMemory => exact hminor.ages
          | failed => exact hminor.ages.trans (abandon_ages hwf)
          | created => exact hminor.ages.trans (register_ages hwf pid true _)
  | regServer env pid =>
      refine Ker.call_of_wp (P := fun _ reg' => reg.Ages reg')
        ((ndmgmCreateServer_spec (c := ⟨reg, []⟩) env pid).mono fun r c' hr => Ages.stuck ?_ _)
      cases hr with
      | failed => exact .refl _
      | created => exact register_ages h pid false 0
  | unregister env pid =>
      refine Ker.call_of_wp (P := fun _ reg' => reg.Ages reg')
        ((ndmgmFindDestroy_only (c := ⟨reg, []⟩) h env pid).mono fun r c' hr => Ages.stuck ?_ _)
      rcases hr with honly | ⟨d, nddata, -, -, honly⟩
      · exact honly.ages
      · exact honly.ages

end Ages

/-! ## Tasks -/

/-- An open file that is found or made is one of the device in question. -/
def OfDevice : Event FoI → Prop
  | ⟨.findAcc d _, r⟩ => ∀ a : AccRef, r = some a → a.nddata = d
  | ⟨.accStart nddata _, r⟩ => ∀ a : AccRef, r = some a → nddata = some a.nddata
  | _ => True

/-- The program names no other devices than these. -/
def Confined (own : DevId → Prop) (prog : FoM Int32) : Prop :=
  prog.Within OfDevice fun op => ∀ d, op.device = some d → own d

/-- An operation on the one device. -/
theorem names_self {op : FoOp} {d : DevId} (h : op.device = some d) : ∀ e, op.device = some e → e = d :=
  fun _ he => Option.some.inj (he.symm.trans h)

theorem names_none {op : FoOp} {own : DevId → Prop} (h : op.device = none) : ∀ e, op.device = some e → own e :=
  fun _ he => nomatch he.symm.trans h

theorem foSendOut_confined (call : FoCall) (acc : AccRef) (req : Option ReqPtr) (rvalue : Int32) :
    Confined (· = acc.nddata) (foSendOut call acc req rvalue) := by
  refine ⟨names_self rfl, fun _ _ => ⟨names_self rfl, fun _ _ => ?_⟩⟩
  refine Prog.Within.ite ?_ trivial
  exact ⟨names_self rfl, fun _ _ => trivial⟩

theorem foSendReq_confined (acc : AccRef) (req : ReqPtr) : Confined (· = acc.nddata) (foSendReq acc req) := by
  refine ⟨names_self rfl, fun _ _ => ⟨names_none rfl, fun ok _ => ?_⟩⟩
  refine Prog.Within.ite trivial ⟨names_self rfl, fun seq _ => ⟨names_none rfl, fun _ _ => ?_⟩⟩
  refine Prog.Within.ite trivial ⟨names_self rfl, fun sent _ => ?_⟩
  exact Prog.Within.ite trivial ⟨names_none rfl, fun _ _ => trivial⟩

theorem foSend_confined (call : FoCall) (acc : AccRef) : Confined (· = acc.nddata) (foSend call acc) := by
  refine ⟨names_none rfl, fun _ _ => ⟨names_self rfl, fun active _ => ?_⟩⟩
  refine Prog.Within.ite trivial ⟨names_self rfl, fun _ _ => ⟨names_self rfl, fun req _ => ?_⟩⟩
  cases req with
  | none => exact foSendOut_confined call acc none (-ENOMEM)
  | some req => exact (foSendReq_confined acc req).bind fun rvalue => foSendOut_confined call acc (some req) rvalue

theorem foRecvOut_confined {d : DevId} {acc : AccRef} (hacc : acc.nddata = d) (nlh : NlMessage) (rvalue : Int32) :
    Confined (· = d) (foRecvOut d acc nlh rvalue) := by
  refine Prog.Within.ite ⟨?_, fun _ _ => ?_⟩ ?_
  · exact names_self (congrArg some hacc)
  · exact ⟨names_self rfl, fun _ _ => trivial⟩
  · exact ⟨names_self rfl, fun _ _ => trivial⟩

theorem foRecvAcc_confined {d : DevId} {acc : AccRef} (hacc : acc.nddata = d) (nlh : NlMessage) :
    Confined (· = d) (foRecvAcc d acc nlh) := by
  have hself {op : FoOp} (h : op.device = some acc.nddata) : ∀ e, op.device = some e → e = d :=
    hacc ▸ names_self h
  refine ⟨names_self rfl, fun dummy _ => Prog.Within.ite ?_ ?_⟩
  · refine Prog.Within.bind (p := foComplete acc nlh) ?_ fun rvalue => foRecvOut_confined hacc nlh rvalue
    refine ⟨hself rfl, fun req _ => ?_⟩
    cases req with
    | none => trivial
    | some req =>
        refine ⟨names_none rfl, fun ok _ => Prog.Within.ite trivial ?_⟩
        exact ⟨names_none rfl, fun _ _ => trivial⟩
  · refine Prog.Within.bind (p := foExecuteTask acc nlh) ?_ fun rvalue => foRecvOut_confined hacc nlh rvalue
    refine ⟨hself rfl, fun rvalue _ => Prog.Within.ite ?_ trivial⟩
    exact ⟨hself rfl, fun _ _ => trivial⟩

theorem foRecvDev_confined (d : DevId) (nlh : NlMessage) : Confined (· = d) (foRecvDev d nlh) := by
  refine ⟨names_self rfl, fun acc hacc => ?_⟩
  cases acc with
  | some acc => exact foRecvAcc_confined (hacc acc rfl) nlh
  | none =>
      refine Prog.Within.ite trivial ⟨names_self rfl, fun acc hacc => ?_⟩
      cases acc with
      | none => trivial
      | some acc => exact foRecvAcc_confined (Option.some.inj (hacc acc rfl)).symm nlh

/-- `foRecv` after its first operation. -/
def foRecvFind (nlh : NlMessage) : FoM Int32 := do
  let nddata : Option DevId ← fo (.find nlh.header.nlmsgPid.toInt32)
  fo (.get nddata)
  match nddata with
  | none => return -ENODEV
  | some d => foRecvDev d nlh

/-- What a task names: the device of its file, or devices with the pid of its message. -/
inductive Task.Keeps (reg : Registry) : Task → FoM Int32 → Prop where
  | send {call : FoCall} {acc : AccRef} {prog : FoM Int32} (h : Confined (· = acc.nddata) prog) :
      Keeps reg (.send call acc) prog
  | open {minor : Nat} {pid : Int32} {pad : UInt32} {prog : FoM Int32} : Keeps reg (.open minor pid pad) prog
  | start {nlh : NlMessage} : Keeps reg (.recv nlh) (foRecv nlh)
  | find {nlh : NlMessage} : Keeps reg (.recv nlh) (foRecvFind nlh)
  | recv {nlh : NlMessage} {prog : FoM Int32} {own : DevId → Prop}
      (hown : ∀ d, own d → reg.Belongs nlh.header.nlmsgPid d) (h : Confined own prog) : Keeps reg (.recv nlh) prog

theorem Task.Keeps.ages {reg reg' : Registry} {task : Task} {prog : FoM Int32} (h : task.Keeps reg prog)
    (hages : reg.Ages reg') : task.Keeps reg' prog := by
  cases h with
  | send h => exact .send h
  | «open» => exact .open
  | start => exact .start
  | find => exact .find
  | recv hown h => exact .recv (fun d hd => hages.belongs (hown d hd)) h

theorem Task.keeps_prog (reg : Registry) (task : Task) : task.Keeps reg task.prog := by
  cases task with
  | send call acc => exact .send (foSend_confined call acc)
  | «open» => exact .open
  | recv nlh => exact .start

section Perform
variable {reg reg' : Registry} {env : FoEnv} {op : FoOp} {r : op.Res}

/-- The answers of the registry. -/
theorem exec_ofDevice (h : reg.Wf) (hexec : Ker.call (op.exec env) reg = (.ok r, reg')) : OfDevice ⟨op, r⟩ := by
  have hresult : (Ker.call (op.exec env) reg).1 = .ok r := congrArg Prod.fst hexec
  cases op with
  | findAcc d accessId =>
      intro a ha
      subst ha
      refine Ker.call_of_wp (P := fun r _ => r = .ok (some a) → a.nddata = d)
        ((ndmgmFindAcc_looks (c := ⟨reg, []⟩) env.free d accessId).mono fun r' c' hr hsame => ?_) hresult
      rw [hsame] at hr
      obtain ⟨nddata, data, hd, hmem, -⟩ := hr.2 a rfl
      exact ((h.mem_files d nddata hd a).mp hmem).1
  | accStart nddata pid =>
      intro a ha
      subst ha
      refine Ker.call_of_wp (P := fun r _ => r = .ok (some a) → nddata = some a.nddata)
        ((foAccStart_starts (c := ⟨reg, []⟩) env.start nddata pid).mono fun r' c' hr hsame => ?_) hresult
      rw [hsame] at hr
      exact hr.1
  | _ => trivial

/-- A device that is found. -/
theorem find_belongs (h : reg.Wf) {nlpid : Int32} {d : DevId}
    (hexec : (Ker.call (ndmgmFind env.free nlpid) reg).1 = .ok (some d)) : reg.Belongs nlpid.toUInt32 d := by
  refine Ker.call_of_wp (P := fun r _ => r = .ok (some d) → reg.Belongs nlpid.toUInt32 d)
    ((ndmgmFind_looks (c := ⟨reg, []⟩) env.free nlpid).mono fun r' c' hr hsame => ?_) hexec
  rw [hsame] at hr
  obtain ⟨-, -, nddata, hd, hnlpid⟩ := hr.2 d rfl
  refine ⟨h.devs_lt d (hd.trans_ne (Option.some_ne_none _)), fun nddata' hd' => ?_⟩
  obtain rfl := Option.some.inj (hd.symm.trans hd')
  exact hnlpid

theorem Task.Keeps.perform (h : reg.Wf) {task : Task} {k : op.Res → FoM Int32}
    (hkeeps : task.Keeps reg (.call op k)) (hexec : Ker.call (op.exec env) reg = (.ok r, reg')) :
    task.Keeps reg' (k r) := by
  have hages := (exec_only reg env op).ages
  rw [hexec] at hages
  have hofDevice := exec_ofDevice h hexec
  generalize hprog : (Prog.call op k : FoM Int32) = prog at hkeeps
  cases hkeeps with
  | send hconfined =>
      subst hprog
      exact .send (hconfined.2 r hofDevice)
  | «open» => exact .open
  | @start nlh =>
      obtain ⟨rfl, hk⟩ := Prog.call.inj hprog
      obtain rfl := eq_of_heq hk
      exact .find
  | @find nlh =>
      obtain ⟨rfl, hk⟩ := Prog.call.inj hprog
      obtain rfl := eq_of_heq hk
      cases r with
      | none =>
          refine @recv reg' nlh _ (fun _ => False) (fun _ hfalse => hfalse.elim) ⟨names_none rfl, fun _ _ => trivial⟩
      | some d =>
          have hbelongs := hages.belongs (find_belongs h (congrArg Prod.fst hexec))
          refine @recv reg' nlh _ (· = d) (fun e he => he ▸ hbelongs) ⟨names_self rfl, fun _ _ => ?_⟩
          exact foRecvDev_confined d nlh
  | recv hown hconfined =>
      subst hprog
      exact .recv (fun d hd => hages.belongs (hown d hd)) (hconfined.2 r hofDevice)

end Perform

/-! ## Runs -/

/-- The step is not for the daemon `p`: not one of its messages, nor an operation on one of its
files. A process that opens a node may not have reached a device yet. -/
def Apart (p : UInt32) (s : Module.State) : Module.Label → Prop
  | .control msg => msg.pid.toUInt32 ≠ p
  | .exit .. => False
  | .perform n _ => ∀ t, s.threads[n]? = some t →
      match t.task with
      | .send _ acc => ∀ nddata, s.registry.devs acc.nddata = some nddata → nddata.nlpid ≠ p
      | .open .. => ∀ op k, t.prog = .call op k → ∀ d nddata, op.device = some d →
          s.registry.devs d = some nddata → nddata.nlpid ≠ p
      | .recv nlh => nlh.header.nlmsgPid ≠ p
  | _ => True

/-- The keys of the table are right, and the tasks keep to their devices. -/
structure Tidy (s : Module.State) : Prop where
  keyed : s.registry.Keyed
  keeps : ∀ t ∈ s.threads, t.task.Keeps s.registry t.prog

section Runs
variable {hashMin : UInt32 → Fin 32} {reqs : Requests} {ls ls' : List Module.Label} {s s' : Module.State}
  {l : Module.Label} {p : UInt32}

theorem Tidy.step (h : Tidy s) (hwf : s.registry.Wf) (hstep : Module.Step s l s') (hstays : l.Stays) :
    Tidy s' := by
  cases hstep with
  | @control s msg =>
      have hages := Control.after_ages hwf msg
      exact ⟨hages.keyed h.keyed, fun t ht => (h.keeps t ht).ages hages⟩
  | exit => exact hstays.elim
  | @start s task =>
      refine ⟨h.keyed, fun t ht => ?_⟩
      rcases List.mem_append.mp ht with ht | ht
      · exact h.keeps t ht
      · obtain rfl := List.mem_singleton.mp ht
        exact Task.keeps_prog _ task
  | @perform reg reg' ts ts' t env op k r hprog hexec =>
      have hages := (exec_only reg env op).ages
      rw [hexec] at hages
      refine ⟨hages.keyed h.keyed, fun u hu => ?_⟩
      rcases List.mem_append.mp hu with hu | hu
      · exact (h.keeps u (List.mem_append_left _ hu)).ages hages
      · rcases List.mem_cons.mp hu with rfl | hu
        · have ht := h.keeps t (List.mem_append_right _ List.mem_cons_self)
          rw [hprog] at ht
          exact ht.perform hwf hexec
        · exact (h.keeps u (List.mem_append_right _ (List.mem_cons_of_mem _ hu))).ages hages
  | @oops reg reg' ts ts' t env op k e hprog hexec =>
      have hages := (exec_only reg env op).ages
      rw [hexec] at hages
      refine ⟨hages.keyed h.keyed, fun u hu => ?_⟩
      rcases List.mem_append.mp hu with hu | hu
      · exact (h.keeps u (List.mem_append_left _ hu)).ages hages
      · exact (h.keeps u (List.mem_append_right _ (List.mem_cons_of_mem _ hu))).ages hages
  | @finish reg ts ts' t =>
      refine ⟨h.keyed, fun u hu => ?_⟩
      rcases List.mem_append.mp hu with hu | hu
      · exact h.keeps u (List.mem_append_left _ hu)
      · exact h.keeps u (List.mem_append_right _ (List.mem_cons_of_mem _ hu))

theorem tidy_run (hrun : ((Module.system hashMin reqs).restrict fun _ l => l.Stays).Run ls s) : Tidy s := by
  induction hrun with
  | @init s hs =>
      obtain rfl : s = _ := hs
      exact ⟨fun e he => (List.not_mem_nil he).elim, fun t ht => (List.not_mem_nil ht).elim⟩
  | @step ls l s s' hrun hstep ih =>
      obtain ⟨leaked, hcounted⟩ := Counted.run hrun.of_restrict
      exact ih.step hcounted.wf hstep.1 hstep.2

/-- An operation of a task that is not for this daemon. -/
theorem perform_sameDevices {reg reg' : Registry} {t : Thread} {env : FoEnv} {op : FoOp} {k : op.Res → FoM Int32}
    {r : Except Halt op.Res} (hkeeps : t.task.Keeps reg t.prog) (hprog : t.prog = .call op k)
    (hexec : Ker.call (op.exec env) reg = (r, reg')) {ts ts' : List Thread}
    (hapart : Apart p ⟨reg, ts ++ t :: ts'⟩ (.perform ts.length env)) : SameDevices p reg reg' := by
  have honly := exec_only reg env op
  have hframe := exec_frame reg env op
  rw [hexec] at honly hframe
  have hthread := hapart t (by simp)
  refine .of_only honly (fun d nddata hd hlive => ?_) (by rw [hframe.table]) fun m hm =>
    ⟨m, hframe.minors.trans hm, fun _ => Iff.rfl⟩
  rw [hprog] at hkeeps
  generalize hcall : (Prog.call op k : FoM Int32) = prog at hkeeps
  generalize htask : t.task = task at hkeeps hthread
  cases hkeeps with
  | send hconfined =>
      subst hcall
      obtain rfl := hconfined.1 d hd
      exact hthread nddata hlive
  | «open» => exact hthread op k hprog d nddata hd hlive
  | start =>
      obtain ⟨rfl, -⟩ := Prog.call.inj hcall
      cases hd
  | find =>
      obtain ⟨rfl, -⟩ := Prog.call.inj hcall
      cases hd
  | recv hown hconfined =>
      subst hcall
      rw [(hown d (hconfined.1 d hd)).nlpid nddata hlive]
      exact hthread

theorem sameDevices_step (hp : p.toInt32 ≠ -1)
    (hrun : ((Module.system hashMin reqs).restrict fun _ l => l.Stays).Run ls s) (hstep : Module.Step s l s')
    (hapart : Apart p s l) : SameDevices p s.registry s'.registry := by
  obtain ⟨leaked, hcounted⟩ := Counted.run hrun.of_restrict
  obtain ⟨m, hmarked⟩ := marked_run hrun
  have htidy := tidy_run hrun
  cases hstep with
  | control => exact Control.after_sameDevices hcounted.wf htidy.keyed hmarked hapart hp
  | exit => exact hapart.elim
  | start => exact .refl _ _
  | @perform reg reg' ts ts' t env op k r hprog hexec =>
      exact perform_sameDevices (htidy.keeps t (List.mem_append_right _ List.mem_cons_self)) hprog hexec hapart
  | @oops reg reg' ts ts' t env op k e hprog hexec =>
      exact perform_sameDevices (htidy.keeps t (List.mem_append_right _ List.mem_cons_self)) hprog hexec hapart
  | finish => exact .refl _ _

/-- However long the others run, a daemon finds its devices, their open files, its entries in
the table and its minors as it has left them. -/
theorem daemons_isolated (hp : p.toInt32 ≠ -1)
    (hreach : ((Module.system hashMin reqs).restrict fun _ l => l.Stays).Run ls s)
    (hrun : (((Module.system hashMin reqs).restrict (Apart p)).restart s).Run ls' s') :
    SameDevices p s.registry s'.registry := by
  have hstays : ∀ s l s', ((Module.system hashMin reqs).restrict (Apart p)).step s l s' →
      ((Module.system hashMin reqs).restrict fun _ l => l.Stays).step s l s' := by
    rintro s l s' ⟨hstep, hapart⟩
    refine ⟨hstep, ?_⟩
    cases l with
    | exit => exact hapart.elim
    | _ => trivial
  induction hrun with
  | init hs =>
      subst hs
      exact .refl _ _
  | step hrun hstep ih =>
      exact ih.trans (sameDevices_step hp (hreach.append hrun hstays) hstep.1 hstep.2)

/-- The daemons 7 and 9 have a dummy device each, and 9 gives its own back. -/
theorem daemons_isolated_unregister : SameDevices 7
    ((Control.regDummy .all 9).after ((Control.regDummy .all 7).after (.prepare Sample.hashMin Sample.requests)))
    ((Control.unregister .all 9).after ((Control.regDummy .all 9).after
      ((Control.regDummy .all 7).after (.prepare Sample.hashMin Sample.requests)))) := by
  have run : (Sample.system.restrict fun _ l => l.Stays).Run [] _ := .init rfl
  have run := run.step ⟨@Module.Step.control _ (.regDummy .all 7) (by decide), trivial⟩
  have run := run.step ⟨@Module.Step.control _ (.regDummy .all 9) (by decide), trivial⟩
  have hstep := @Module.Step.control ⟨(Control.regDummy .all 9).after ((Control.regDummy .all 7).after
    (.prepare Sample.hashMin Sample.requests)), []⟩ (.unregister .all 9) (by decide)
  exact @daemons_isolated Sample.hashMin Sample.requests _ _ _ _ 7 (by decide) run
    ((System.Run.init rfl).step ⟨hstep, (by decide : (9 : UInt32) ≠ 7)⟩)

end Runs

end Netdev.Kernel
