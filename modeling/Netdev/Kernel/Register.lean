-- SUMMARY: All outcomes of `ndmgm_create_dummy` and `ndmgm_create_server`.
import Netdev.Kernel.Balance

/-!
# Registration

What a registration can leave behind: a device in the table, or a minor that no
device has, or nothing.
-/

namespace Netdev.Kernel
open Base Registry

variable {c : Call}

/-! ## A minor -/

/-- The lock of the minors is taken in `ndmgm_get_minor`. -/
def GetsLock (c : Call) (free : Bool) : Prop := free = true ∧ Ker.Free c .minor

/-- The ends of `ndmgm_get_minor`. -/
inductive GotMinor (c : Call) (free : Bool) (pid : Int32) : Except Halt (Option Nat) → Call → Prop where
  | busy (hbusy : ¬ GetsLock c free) : GotMinor c free pid (.ok none) c
  | limit {m : Minors} (hlock : GetsLock c free) (hm : c.registry.minors = some m)
      (hmax : m.max = NETDEV_MAX_DEVICES) :
      GotMinor c free pid (.ok none) ⟨c.registry, .minor :: c.own⟩
  | dead (hlock : GetsLock c free) (hnone : c.registry.minors = none) :
      GotMinor c free pid (.error .fault) ⟨c.registry, .minor :: c.own⟩
  | outside {m : Minors} (hlock : GetsLock c free) (hm : c.registry.minors = some m)
      (hmax : m.max ≠ NETDEV_MAX_DEVICES) (hget : ∀ r, m.get pid ≠ .ok r) :
      GotMinor c free pid (.error .fault) c
  | got {m m' : Minors} {minor : Option Nat} (hlock : GetsLock c free)
      (hm : c.registry.minors = some m) (hget : m.get pid = .ok (minor, m')) :
      GotMinor c free pid (.ok minor) ⟨{ c.registry with minors := some m' }, c.own⟩

theorem ndmgmGetMinor_spec (free : Bool) (pid : Int32) :
    Exec.wp (ndmgmGetMinor free pid) (GotMinor c free pid) c := by
  refine Ker.wp_downTrylock (fun hfree hsem => ?_) (fun hbusy => .busy hbusy)
  refine Ker.wp_registry (Ker.wp_deref (fun m hm => ?_) (fun hnone => .dead ⟨hfree, hsem⟩ hnone))
  refine Exec.wp_ite (fun hmax => .limit ⟨hfree, hsem⟩ hm hmax) (fun hmax => ?_)
  cases hget : m.get pid with
  | error e =>
      refine Ker.wp_up ?_
      rw [List.erase_cons_head]
      exact .outside ⟨hfree, hsem⟩ hm hmax fun r hr => nomatch hget.symm.trans hr
  | ok r =>
      refine Ker.wp_modify (Ker.wp_up ?_)
      rw [List.erase_cons_head]
      exact .got ⟨hfree, hsem⟩ hm hget

/-! ## A device -/

/-- A device that has just been put into the table. -/
def NetdevData.registered (nlpid : Int32) (dummy : Bool) (minor : Nat) : NetdevData where
  nlpid := nlpid.toUInt32
  active := true
  dummy := dummy
  minor := minor
  users := 1
  curseq := 0
  foaccHtable := .empty

/-- The registry with a new device. -/
def Registry.register (reg : Registry) (nlpid : Int32) (dummy : Bool) (minor : Nat) : Registry :=
  { ({ reg with nextDev := reg.nextDev + 1 } : Registry).setDev reg.nextDev
      (.registered nlpid dummy minor) with
    netdevHtable := reg.netdevHtable.add nlpid.toUInt32 reg.nextDev }

/-- The registry when the memory of a new device was given back. -/
def Registry.abandon (reg : Registry) : Registry :=
  { reg with nextDev := reg.nextDev + 1, devs := Function.update reg.devs reg.nextDev none }

theorem register_of_ne {reg : Registry} {nlpid : Int32} {dummy : Bool} {minor : Nat} {d : DevId}
    (hd : d ≠ reg.nextDev) : (reg.register nlpid dummy minor).devs d = reg.devs d :=
  Function.update_of_ne hd ..

theorem abandon_of_ne {reg : Registry} {d : DevId} (hd : d ≠ reg.nextDev) :
    reg.abandon.devs d = reg.devs d :=
  Function.update_of_ne hd ..

theorem newDev_eq (nlpid : Int32) (dummy : Bool) (minor : Nat) :
    newDev nlpid dummy minor c = (.ok c.registry.nextDev,
      ⟨({ c.registry with nextDev := c.registry.nextDev + 1 } : Registry).setDev c.registry.nextDev
        { NetdevData.registered nlpid dummy minor with users := 0 }, c.own⟩) := rfl

/-- The memory of a device is filled, and then the device put into the table. -/
theorem wp_register {nlpid : Int32} {dummy : Bool} {minor : Nat} {Q : Except Halt Int32 → Call → Prop}
    (h : Q (.ok 0) ⟨c.registry.register nlpid dummy minor, c.own⟩) :
    Exec.wp (hashDev c.registry.nextDev nlpid >>= fun _ => (return 0 : Ker Int32)) Q
      ⟨({ c.registry with nextDev := c.registry.nextDev + 1 } : Registry).setDev c.registry.nextDev
        { NetdevData.registered nlpid dummy minor with users := 0 }, c.own⟩ := by
  have hhash : hashDev c.registry.nextDev nlpid
      ⟨({ c.registry with nextDev := c.registry.nextDev + 1 } : Registry).setDev c.registry.nextDev
        { NetdevData.registered nlpid dummy minor with users := 0 }, c.own⟩
      = (.ok (), ⟨c.registry.register nlpid dummy minor, c.own⟩) := by
    refine Prod.ext_iff.mpr (wp_ndmgmGet (Q := fun r c' => r = .ok () ∧
      c' = ⟨c.registry.register nlpid dummy minor, c.own⟩) (setDev_self _ _) ⟨rfl, ?_⟩)
    refine congrArg (Call.mk · c.own) ?_
    rw [setDev_setDev]
    rfl
  exact Exec.wp_bind_ok hhash h

/-- The ends of `ndmgm_create_server`. -/
inductive ServerCreated (c : Call) (env : CreateEnv) (nlpid : Int32) : Except Halt Int32 → Call → Prop where
  | failed (halloc : env.alloc = false) : ServerCreated c env nlpid (.ok 1) c
  | created (halloc : env.alloc = true) :
      ServerCreated c env nlpid (.ok 0) ⟨c.registry.register nlpid false 0, c.own⟩

theorem ndmgmCreateServer_spec (env : CreateEnv) (nlpid : Int32) :
    Exec.wp (ndmgmCreateServer env nlpid) (ServerCreated c env nlpid) c := by
  refine Exec.wp_ite (fun halloc => .failed (Bool.not_eq_true' _ |>.mp halloc)) (fun halloc => ?_)
  have halloc' : env.alloc = true := by
    rw [Bool.not_eq_true', Bool.not_eq_false] at halloc
    exact halloc
  exact Exec.wp_bind_ok (newDev_eq nlpid false 0) (wp_register (.created halloc'))

/-- The ends of `ndmgm_create_dummy` when there is a minor. -/
inductive DummyCreated (c : Call) (env : CreateEnv) (nlpid : Int32) (minor : Nat) :
    Except Halt Int32 → Call → Prop where
  | noMemory (halloc : env.alloc = false) : DummyCreated c env nlpid minor (.ok 1) c
  | failed {n : Int32} (hn : n ≠ 0) :
      DummyCreated c env nlpid minor (.ok n) ⟨c.registry.abandon, c.own⟩
  | created (halloc : env.alloc = true) (hcdev : env.cdevAdd = 0) (hdevice : env.deviceCreate = 0) :
      DummyCreated c env nlpid minor (.ok 0) ⟨c.registry.register nlpid true minor, c.own⟩

/-- The ends of `ndmgm_create_dummy`. -/
inductive DummyRegistered (c : Call) (env : CreateEnv) (nlpid : Int32) :
    Except Halt Int32 → Call → Prop where
  | noMinor {c' : Call} (hminor : GotMinor c env.minor nlpid (.ok none) c') :
      DummyRegistered c env nlpid (.ok 1) c'
  | fault {c' : Call} {e : Halt} (hminor : GotMinor c env.minor nlpid (.error e) c') :
      DummyRegistered c env nlpid (.error e) c'
  | minor {c₁ c' : Call} {minor : Nat} {r : Except Halt Int32}
      (hminor : GotMinor c env.minor nlpid (.ok (some minor)) c₁)
      (hcreated : DummyCreated c₁ env nlpid minor r c') : DummyRegistered c env nlpid r c'

theorem GotMinor.devs {free : Bool} {pid : Int32} {r : Except Halt (Option Nat)} {c' : Call}
    (h : GotMinor c free pid r c') : c'.registry.devs = c.registry.devs := by
  cases h with
  | _ => rfl

theorem GotMinor.nextDev {free : Bool} {pid : Int32} {r : Except Halt (Option Nat)} {c' : Call}
    (h : GotMinor c free pid r c') : c'.registry.nextDev = c.registry.nextDev := by
  cases h with
  | _ => rfl

/-- Other devices are not touched. -/
theorem DummyRegistered.devs_of_ne {env : CreateEnv} {nlpid : Int32} {r : Except Halt Int32} {c' : Call}
    (h : DummyRegistered c env nlpid r c') {d : DevId} (hd : d ≠ c.registry.nextDev) :
    c'.registry.devs d = c.registry.devs d := by
  cases h with
  | noMinor hminor => rw [hminor.devs]
  | fault hminor => rw [hminor.devs]
  | minor hminor hcreated =>
      rw [← hminor.devs]
      rw [← hminor.nextDev] at hd
      cases hcreated with
      | noMemory => rfl
      | failed => exact abandon_of_ne hd
      | created => exact register_of_ne hd

theorem ServerCreated.devs_of_ne {env : CreateEnv} {nlpid : Int32} {r : Except Halt Int32} {c' : Call}
    (h : ServerCreated c env nlpid r c') {d : DevId} (hd : d ≠ c.registry.nextDev) :
    c'.registry.devs d = c.registry.devs d := by
  cases h with
  | failed => rfl
  | created => exact register_of_ne hd

theorem publishDummy_spec (env : CreateEnv) (nlpid : Int32) (minor : Nat) :
    Exec.wp (publishDummy env nlpid minor) (DummyCreated c env nlpid minor) c := by
  refine Exec.wp_ite (fun halloc => .noMemory (Bool.not_eq_true' _ |>.mp halloc)) (fun halloc => ?_)
  have halloc' : env.alloc = true := by
    rw [Bool.not_eq_true', Bool.not_eq_false] at halloc
    exact halloc
  have habandon : ∀ (reg : Registry) (nddata : NetdevData),
      (({ reg with nextDev := reg.nextDev + 1 } : Registry).setDev reg.nextDev nddata).freeDev reg.nextDev
        = reg.abandon := by
    intro reg nddata
    unfold Registry.abandon freeDev setDev
    simp only [Function.update_idem]
  refine Exec.wp_bind_ok (newDev_eq nlpid true minor) ?_
  refine Exec.wp_ite (fun hcdev => Ker.wp_modify ?_) (fun hcdev => ?_)
  · rw [habandon]
    exact .failed hcdev
  · refine Exec.wp_ite (fun hdevice => Ker.wp_modify ?_) (fun hdevice => ?_)
    · rw [habandon]
      exact .failed hdevice
    · exact wp_register (.created halloc' (not_not.mp hcdev) (not_not.mp hdevice))

theorem ndmgmCreateDummy_spec (env : CreateEnv) (nlpid : Int32) :
    Exec.wp (ndmgmCreateDummy env nlpid) (DummyRegistered c env nlpid) c := by
  refine Exec.wp_bind (ndmgmGetMinor_spec env.minor nlpid) ?_ (fun e c' he => .fault he)
  intro minor c₁ hminor
  cases minor with
  | none => exact .noMinor hminor
  | some minor => exact (publishDummy_spec env nlpid minor).mono fun r c' hcreated => .minor hminor hcreated

end Netdev.Kernel
