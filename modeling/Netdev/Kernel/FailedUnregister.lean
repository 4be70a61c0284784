-- SUMMARY: A failed `ndmgm_find_destroy` leaves the device registered only when it fails before the table changes.
import Netdev.Kernel.Lifetime

/-!
# Failed unregistrations

`ndmgm_find_destroy` takes the device out of the table, and drops the reference of the
table, before `ndmgm_destroy` compares the counter. `ndmgm_destroy` in turn marks the
device inactive before it looks for a reason to refuse.
-/

namespace Netdev.Kernel
open Base Registry

variable {reg : Registry} {env : DestroyEnv} {nlpid n : Int32} {d : DevId} {nddata : NetdevData}

/-- `ndmgm_find` finds the device, when the lock of the table is free. -/
def Registry.Finds (reg : Registry) (nlpid : Int32) (d : DevId) : Prop :=
  ndmgmFind true nlpid ⟨reg, []⟩ = (.ok (some d), ⟨reg, []⟩)

/-- After a call the device is registered and active, with the users and the open files
it had. -/
structure Registry.Intact (reg reg' : Registry) (nlpid : Int32) (d : DevId) (nddata : NetdevData) :
    Prop where
  table : d ∈ reg'.netdevHtable.values
  finds : reg'.Finds nlpid d
  device : ∃ nddata', reg'.devs d = some nddata' ∧ nddata'.active = true ∧
    nddata'.users = nddata.users ∧ nddata'.foaccHtable = nddata.foaccHtable
  files : ∀ a ∈ nddata.foaccHtable.values, reg'.accs a = reg.accs a

/-- The call ends before it changes anything: a lookup that does not get the lock of the
table, or a call that gets neither this lock the second time nor that of the device. -/
def DestroyEnv.GivesUp (env : DestroyEnv) (reg : Registry) (d : DevId) : Prop :=
  env.find = false ∨ env.findDestroy = false ∧ ¬ LocksDev ⟨reg, []⟩ env d

theorem ndmgmFind_busy (nlpid : Int32) (c : Call) : ndmgmFind false nlpid c = (.ok none, c) := by
  have hbusy : Exec.wp (ndmgmFind false nlpid) (fun r c' => r = .ok none ∧ c' = c) c :=
    Exec.wp_ite (fun _ => ⟨rfl, rfl⟩) fun _ => Ker.wp_downTrylock (fun h => nomatch h) fun _ => ⟨rfl, rfl⟩
  exact Prod.ext hbusy.1 hbusy.2

theorem Registry.Finds.mem (h : reg.Finds nlpid d) : d ∈ reg.netdevHtable.values := by
  have hlooks := ndmgmFind_looks (c := ⟨reg, []⟩) true nlpid
  rw [Exec.wp, h] at hlooks
  exact (hlooks.2 d rfl).1

/-- The ends of a call for a registered device. -/
theorem Registry.Finds.findDestroy (h : reg.Wf) (hfind : reg.Finds nlpid d) (hd : reg.devs d = some nddata)
    {P : Except Halt Int32 → Registry → Prop} (hbusy : env.find = false → P (.ok 1) reg)
    (hdestroy : env.find = true → ∀ r c', Destroyed (Call.found ⟨reg, []⟩ env d nddata) env d
      (nddata.found env) r c' → P r { c'.registry with stuck := c'.own ++ c'.registry.stuck }) :
    P (Ker.call (ndmgmFindDestroy env nlpid) reg).1 (Ker.call (ndmgmFindDestroy env nlpid) reg).2 := by
  refine Ker.call_of_wp ?_
  cases hlock : env.find with
  | false =>
      have hnone : ndmgmFind env.find nlpid ⟨reg, []⟩ = (.ok none, ⟨reg, []⟩) := by
        rw [hlock]
        exact ndmgmFind_busy nlpid _
      exact Exec.wp_bind_ok hnone (hbusy hlock)
  | true =>
      have hfound : ndmgmFind env.find nlpid ⟨reg, []⟩ = (.ok (some d), ⟨reg, []⟩) := by
        rw [hlock]
        exact hfind
      exact (ndmgmFindDestroy_of_find (c := ⟨reg, []⟩) h hfound hd).mono (hdestroy hlock)

theorem locksDev_found (hlock : env.findDestroy = false) :
    LocksDev (Call.found ⟨reg, []⟩ env d nddata) env d ↔ LocksDev ⟨reg, []⟩ env d := by
  rw [Call.found, if_neg (ne_true_of_eq_false hlock)]

/-- A call that gives up changes nothing. -/
theorem findDestroy_givesUp (h : reg.Wf) (hfind : reg.Finds nlpid d) (hd : reg.devs d = some nddata)
    (hgives : env.GivesUp reg d) : Ker.call (ndmgmFindDestroy env nlpid) reg = (.ok 1, reg) := by
  refine hfind.findDestroy (P := fun r reg' => (r, reg') = (.ok 1, reg)) h hd (fun _ => rfl) ?_
  intro hlock r c' hdestroy
  obtain ⟨htable, hdev⟩ := hgives.resolve_left (ne_false_of_eq_true hlock)
  have hfound : LocksDev (Call.found ⟨reg, []⟩ env d nddata) env d ↔ LocksDev ⟨reg, []⟩ env d := locksDev_found htable
  rw [← hfound] at hdev
  cases hdestroy with
  | busy => rw [Call.found, if_neg (ne_true_of_eq_false htable)]; rfl
  | deadlock hfiles => exact absurd hfiles.dev hdev
  | kept hlocks => exact absurd hlocks hdev
  | fault hdummy hcheck => exact absurd hcheck.dev hdev
  | freed hcheck => exact absurd hcheck.dev hdev

/-- A call that fails without giving up has taken the device out of the table, or made
it inactive. -/
theorem findDestroy_refused (h : reg.Wf) (hfind : reg.Finds nlpid d) (hd : reg.devs d = some nddata)
    (hfail : (Ker.call (ndmgmFindDestroy env nlpid) reg).1 = .ok n) (hn : n ≠ 0)
    (hgives : ¬ env.GivesUp reg d) :
    d ∉ (Ker.call (ndmgmFindDestroy env nlpid) reg).2.netdevHtable.values ∨
      ∃ nddata', (Ker.call (ndmgmFindDestroy env nlpid) reg).2.devs d = some nddata' ∧
        nddata'.active = false := by
  obtain ⟨hfree, hlocks⟩ := not_or.mp hgives
  refine hfind.findDestroy (P := fun r reg' => r = .ok n → d ∉ reg'.netdevHtable.values ∨
    ∃ nddata', reg'.devs d = some nddata' ∧ nddata'.active = false) h hd
    (fun hbusy => absurd hbusy hfree) ?_ hfail
  intro _ r c' hdestroy hr
  cases hdestroy with
  | deadlock => exact nomatch hr
  | fault => exact nomatch hr
  | freed => exact absurd (Except.ok.inj hr).symm hn
  | kept => exact .inr ⟨_, setDev_self _ _, rfl⟩
  | busy hbusy =>
      refine .inl ?_
      cases htable : env.findDestroy with
      | false => exact absurd ⟨htable, fun hdev => hbusy ((locksDev_found htable).mpr hdev)⟩ hlocks
      | true =>
          rw [Call.found, if_pos htable]
          exact fun hmem => (Hashtable.mem_values_del.mp hmem).2 rfl

/-- In every reachable state an unregistration that fails leaves a registered device as
it was exactly when the device is active and the call gives up before it changes
anything. -/
theorem failed_unregister_iff {hashMin : UInt32 → Fin 32} {reqs : Requests} {ls : List Module.Label}
    {s : Module.State} (hrun : (Module.system hashMin reqs).Run ls s)
    (hfind : s.registry.Finds nlpid d) (hd : s.registry.devs d = some nddata)
    (hfail : (Ker.call (ndmgmFindDestroy env nlpid) s.registry).1 = .ok n) (hn : n ≠ 0) :
    s.registry.Intact (Ker.call (ndmgmFindDestroy env nlpid) s.registry).2 nlpid d nddata ↔
      nddata.active = true ∧ env.GivesUp s.registry d := by
  obtain ⟨leaked, h⟩ := Counted.run hrun
  refine ⟨fun hintact => ?_, fun ⟨hactive, hgives⟩ => ?_⟩
  · obtain ⟨nddata', hd', hactive, -⟩ := hintact.device
    have hgives : env.GivesUp s.registry d := by
      by_contra hgives
      rcases findDestroy_refused h.wf hfind hd hfail hn hgives with hout | ⟨nddata₁, hd₁, hoff⟩
      · exact hout hintact.table
      · obtain rfl := Option.some.inj (hd'.symm.trans hd₁)
        exact ne_true_of_eq_false hoff hactive
    refine ⟨?_, hgives⟩
    rw [findDestroy_givesUp h.wf hfind hd hgives] at hd'
    obtain rfl := Option.some.inj (hd.symm.trans hd')
    exact hactive
  · rw [findDestroy_givesUp h.wf hfind hd hgives]
    exact ⟨hfind.mem, hfind, ⟨nddata, hd, hactive, rfl, rfl⟩, fun _ _ => rfl⟩

/-- Both semaphores of a server device that has just been registered are busy. -/
theorem failed_unregister_iff_served :
    Sample.served.registry.Intact
      (Ker.call (ndmgmFindDestroy { DestroyEnv.all with findDestroy := false, destroy := false } 7)
        Sample.served.registry).2 7 0 ⟨7, true, false, 0, 1, 0, .empty⟩ ↔
      true = true ∧ DestroyEnv.GivesUp { DestroyEnv.all with findDestroy := false, destroy := false }
        Sample.served.registry 0 := by
  have prepared : Sample.system.Run [] _ := .init rfl
  have served : Sample.system.Run _ Sample.served :=
    prepared.step (@Module.Step.control _ (.regServer .all 7) (by decide))
  exact failed_unregister_iff served rfl rfl rfl (by decide)

/-- Two messages have been looked up and counted when their device is unregistered: the
call fails because of the references, and the device is gone from the table. -/
theorem failed_unregister_loses : ∃ ls s d nddata, Sample.system.Run ls s ∧ s.registry.Finds 7 d ∧
    s.registry.devs d = some nddata ∧ nddata.active = true ∧
    (Ker.call (ndmgmFindDestroy .all 7) s.registry).1 = .ok 1 ∧
    ¬ s.registry.Intact (Ker.call (ndmgmFindDestroy .all 7) s.registry).2 7 d nddata := by
  have prepared : Sample.system.Run [] _ := .init rfl
  have registered := prepared.step (@Module.Step.control _ (.regServer .all 7) (by decide))
  have started := registered.step (@Module.Step.start _ (.recv Sample.strayRead) ⟨true, 0, rfl⟩)
  have entered := started.step (@Module.Step.perform _ _ [] [] _ Sample.foEnv _ _ _ rfl rfl)
  have found := entered.step (@Module.Step.perform _ _ [] [] _ Sample.foEnv _ _ _ rfl rfl)
  have got := found.step (@Module.Step.perform _ _ [] [] _ Sample.foEnv _ _ _ rfl rfl)
  have started' := got.step (@Module.Step.start _ (.recv Sample.strayRead) ⟨true, 0, rfl⟩)
  have entered' := started'.step (@Module.Step.perform _ _ [_] [] _ Sample.foEnv _ _ _ rfl rfl)
  have found' := entered'.step (@Module.Step.perform _ _ [_] [] _ Sample.foEnv _ _ _ rfl rfl)
  have got' := found'.step (@Module.Step.perform _ _ [_] [] _ Sample.foEnv _ _ _ rfl rfl)
  refine ⟨_, _, 0, _, got', rfl, rfl, rfl, rfl, fun hintact => ?_⟩
  exact absurd hintact.table (by decide)

end Netdev.Kernel
