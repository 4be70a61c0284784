-- SUMMARY: The end of the module frees the server devices, and no dummy device.
import Netdev.Kernel.Directory

/-!
# The end of the module

`ndmgm_end` holds the lock of the table while it destroys the devices, and
`ndmgm_destroy_allacc` asks for the same lock. The failure is printed, and the call
returns 0.
-/

namespace Netdev.Kernel
open Base Registry

variable {hashMin : UInt32 → Fin 32} {reqs : Requests} {ls : List Control} {reg : Registry}

theorem directory_invariant (pids : Int32 → Prop) (hashMin : UInt32 → Fin 32) (reqs : Requests) :
    (registrations pids hashMin reqs).Invariant
      fun reg => ∃ dir : Directory, reg.Represents dir ∧ dir.Bounded where
  init := by
    intro reg hreg
    subst hreg
    exact ⟨_, .prepare hashMin reqs, Minors.prepare_bounded, fun e he => (List.not_mem_nil he).elim⟩
  step := by
    rintro reg msg reg' ⟨dir, hrep, h⟩ ⟨hpid, hmsg, rfl⟩
    obtain ⟨dir', hstep, hrep'⟩ := hrep.after h hmsg
    exact ⟨dir', hrep', h.step hstep⟩

/-- What `ndmgm_end` does to a device of the table when it returns 0. -/
theorem Registry.Represents.ended {dir : Directory} (h : reg.Represents dir)
    (hend : (Ker.call (ndmgmEnd true fun _ => .all) reg).1 = .ok 0) {e : Device} (he : e ∈ dir.devices) :
    (reg.ended true fun _ => .all).devs e.id = none ↔ e.dummy = false := by
  have hmem : e.id ∈ reg.netdevHtable.forEach reg.hashMin := by
    rw [Hashtable.mem_forEach, h.values]
    exact List.mem_map_of_mem he
  have hstuck : ∀ d, Sem.dev d ∉ reg.stuck := fun d => (h.free (.dev d)).2
  refine Ker.call_of_wp (P := fun r reg' => r = .ok 0 → (reg'.devs e.id = none ↔ e.dummy = false))
    ((ndmgmEnd_spec (c := ⟨reg, []⟩) h.wf true fun _ => .all).mono ?_) hend
  intro r c' hr hzero
  cases hr with
  | busy hbusy => exact absurd ⟨rfl, h.free _⟩ hbusy
  | halt => cases hzero
  | done hlock hended =>
      obtain ⟨nddata, hd, hiff⟩ := hended.freed_iff rfl hstuck (Hashtable.nodup_forEach h.wf.table_nodup) hmem
      obtain rfl := Option.some.inj ((h.live e he).symm.trans hd)
      exact hiff.trans (and_iff_left (by decide : (1 : Int) ≤ 2))

/-- After any registrations and unregistrations all devices of the table are freed
exactly when none of them is a dummy device. -/
theorem end_frees_iff (hrun : (registrations (· ≠ 0) hashMin reqs).Run ls reg)
    (hend : (Ker.call (ndmgmEnd true fun _ => .all) reg).1 = .ok 0) :
    (∀ d ∈ reg.netdevHtable.values, (reg.ended true fun _ => .all).devs d = none) ↔
      ∀ d ∈ reg.netdevHtable.values, ∀ nddata, reg.devs d = some nddata → nddata.dummy = false := by
  obtain ⟨dir, h, -⟩ := hrun.invariant (directory_invariant _ hashMin reqs)
  refine forall₂_congr fun d hd => ?_
  rw [h.values] at hd
  obtain ⟨e, he, rfl⟩ := List.mem_map.mp hd
  rw [h.ended hend he]
  refine ⟨fun hserver nddata hlive => ?_, fun hservers => hservers _ (h.live e he)⟩
  obtain rfl := Option.some.inj ((h.live e he).symm.trans hlive)
  exact hserver

theorem end_frees_iff_served :
    (∀ d ∈ Sample.served.registry.netdevHtable.values,
      (Sample.served.registry.ended true fun _ => .all).devs d = none) ↔
    ∀ d ∈ Sample.served.registry.netdevHtable.values, ∀ nddata,
      Sample.served.registry.devs d = some nddata → nddata.dummy = false := by
  have prepared : (registrations (· ≠ 0) Sample.hashMin Sample.requests).Run [] _ := .init rfl
  have hmsg : (Control.regServer .all 7).Uncontended := trivial
  have served := prepared.step (l := .regServer .all 7) ⟨by decide, hmsg, rfl⟩
  exact end_frees_iff served rfl

/-- The device of the daemon 7 is still there when `ndmgm_end` has returned 0. -/
theorem end_keeps_dummy : ∃ ls reg d, (registrations (· ≠ 0) Sample.hashMin Sample.requests).Run ls reg ∧
    (Ker.call (ndmgmEnd true fun _ => .all) reg).1 = .ok 0 ∧ d ∈ reg.netdevHtable.values ∧
    (reg.ended true fun _ => .all).devs d ≠ none := by
  have prepared : (registrations (· ≠ 0) Sample.hashMin Sample.requests).Run [] _ := .init rfl
  have hmsg : (Control.regDummy .all 7).Uncontended := rfl
  have registered := prepared.step (l := .regDummy .all 7) ⟨by decide, hmsg, rfl⟩
  exact ⟨_, _, 0, registered, rfl, List.mem_cons_self, Option.some_ne_none _⟩

end Netdev.Kernel
