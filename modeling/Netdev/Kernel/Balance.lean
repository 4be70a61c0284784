-- SUMMARY: The calls that threads and registrations make keep the registry balanced, whether they return or stop.
import Netdev.Kernel.Netdevmgm
import Netdev.Kernel.References

/-!
# Balanced calls

One law for each function: what the call does to the surplus of the devices when it
returns. A call that stops leaves the surplus alone.
-/

namespace Netdev.Kernel
open Base Registry

/-- Balanced by `δ` for a call that returns, by nothing for one that stops. -/
def Keeps (reg : Registry) (δ : DevId → Int) {α : Type} : Except Halt α → Call → Prop
  | .ok _, c => reg.Balanced c.registry δ
  | .error _, c => reg.Balanced c.registry 0

/-- A call that only looks: nothing but the semaphores of a stopped call changes. -/
def Looks (c : Call) {α : Type} (Q : α → Prop) : Except Halt α → Call → Prop
  | .ok a, c' => c' = c ∧ Q a
  | .error e, c' => e = .fault ∧ c'.registry = c.registry

theorem Looks.keeps {c : Call} {α : Type} {Q : α → Prop} {r : Except Halt α} {c' : Call}
    (h : Looks c Q r c') (hwf : c.registry.Wf) : Keeps c.registry 0 r c' := by
  cases r with
  | ok a =>
      obtain ⟨rfl, -⟩ := h
      exact Balanced.refl hwf
  | error e =>
      rw [Keeps, h.2]
      exact Balanced.refl hwf

section Calls
variable {c : Call}

/-! ## References -/

theorem ndmgmGet_keeps (h : c.registry.Wf) (d : DevId) :
    Exec.wp (ndmgmGet d) (Keeps c.registry (Pi.single d 1)) c := by
  refine Ker.wp_dev (fun nddata hd => ?_) (fun _ => Balanced.refl h)
  exact balanced_setDev h hd rfl rfl

theorem ndmgmPut_keeps (h : c.registry.Wf) (d : DevId) :
    Exec.wp (ndmgmPut d) (Keeps c.registry (Pi.single d (-1))) c := by
  refine Ker.wp_dev (fun nddata hd => ?_) (fun _ => Balanced.refl h)
  exact balanced_setDev h hd rfl rfl

section Live
variable {α : Type} {Q : Except Halt α → Call → Prop} {f : Unit → Ker α} {d : DevId}
  {nddata : NetdevData}

theorem wp_ndmgmGet (hd : c.registry.devs d = some nddata)
    (h : Exec.wp (f ()) Q ⟨c.registry.setDev d { nddata with users := nddata.users + 1 }, c.own⟩) :
    Exec.wp (ndmgmGet d >>= f) Q c := by
  refine Exec.wp_bind_ok (a := ()) ?_ h
  change (Ker.deref (c.registry.devs d) >>= _ : Ker Unit) c = _
  rw [hd]
  rfl

theorem wp_ndmgmPut (hd : c.registry.devs d = some nddata)
    (h : Exec.wp (f ()) Q ⟨c.registry.setDev d { nddata with users := nddata.users - 1 }, c.own⟩) :
    Exec.wp (ndmgmPut d >>= f) Q c := by
  refine Exec.wp_bind_ok (a := ()) ?_ h
  change (Ker.deref (c.registry.devs d) >>= _ : Ker Unit) c = _
  rw [hd]
  rfl

theorem wp_freeData (hd : c.registry.devs d = some nddata)
    (h : Exec.wp (f ()) Q ⟨c.registry.freeDev d, c.own⟩) : Exec.wp (freeData d >>= f) Q c := by
  refine Exec.wp_bind_ok (a := ()) ?_ h
  change (Ker.deref (c.registry.devs d) >>= _ : Ker Unit) c = _
  rw [hd]
  rfl

theorem wp_ndmgmRefs {f : Int → Ker α} (hd : c.registry.devs d = some nddata)
    (h : Exec.wp (f nddata.users) Q c) : Exec.wp (ndmgmRefs d >>= f) Q c := by
  refine Exec.wp_bind_ok (a := nddata.users) ?_ h
  change (Ker.deref (c.registry.devs d) >>= _ : Ker Int) c = _
  rw [hd]
  rfl

end Live

theorem ndmgmIncseq_keeps (h : c.registry.Wf) (d : DevId) :
    Exec.wp (ndmgmIncseq d) (Keeps c.registry 0) c := by
  refine Ker.wp_dev (fun nddata hd => ?_) (fun _ => Balanced.refl h)
  exact Ker.wp_modify (balanced_setDev_users h hd rfl rfl)

/-! ## Lookups -/

theorem findDev_looks (nlpid : Int32) (ds : List DevId) :
    Exec.wp (findDev nlpid ds) (Looks c fun r => ∀ d, r = some d → d ∈ ds ∧
      ∃ nddata, c.registry.devs d = some nddata ∧ nddata.nlpid = nlpid.toUInt32) c := by
  induction ds with
  | nil => exact ⟨rfl, fun d hd => nomatch hd⟩
  | cons d ds ih =>
      refine Ker.wp_dev (fun nddata hd => ?_) (fun _ => ⟨rfl, rfl⟩)
      refine Exec.wp_ite (fun hpid => ⟨rfl, fun e he => ?_⟩) (fun _ => ih.mono fun r c' hr => ?_)
      · obtain rfl := Option.some.inj he
        exact ⟨List.mem_cons_self, nddata, hd, hpid⟩
      · cases r with
        | error e => exact hr
        | ok r =>
            refine ⟨hr.1, fun e he => ?_⟩
            obtain ⟨hmem, hdev⟩ := hr.2 e he
            exact ⟨List.mem_cons_of_mem d hmem, hdev⟩

theorem ndmgmFind_looks (free : Bool) (nlpid : Int32) :
    Exec.wp (ndmgmFind free nlpid) (Looks c fun r => ∀ d, r = some d →
      d ∈ c.registry.netdevHtable.values ∧ Ker.Free c .htable ∧
      ∃ nddata, c.registry.devs d = some nddata ∧ nddata.nlpid = nlpid.toUInt32) c := by
  refine Exec.wp_ite (fun _ => ⟨rfl, fun d hd => nomatch hd⟩) (fun _ => ?_)
  refine Ker.wp_downTrylock (fun _ hfree => ?_) (fun _ => ⟨rfl, fun d hd => nomatch hd⟩)
  refine Ker.wp_registry (Exec.wp_bind (findDev_looks nlpid _) ?_ ?_)
  · rintro r c' ⟨rfl, hr⟩
    refine Ker.wp_up ⟨?_, fun d hd => ?_⟩
    · rw [List.erase_cons_head]
      rfl
    · obtain ⟨hmem, hdev⟩ := hr d hd
      exact ⟨Hashtable.mem_of_mem_possible hmem, hfree, hdev⟩
  · intro e c' he
    exact he

theorem findAcc_looks (accessId : Int32) (as : List AccRef) :
    Exec.wp (findAcc accessId as) (Looks c fun r => ∀ a, r = some a → a ∈ as ∧
      ∃ data, c.registry.accs a = some data ∧ data.accessId = accessId) c := by
  induction as with
  | nil => exact ⟨rfl, fun a ha => nomatch ha⟩
  | cons a as ih =>
      refine Ker.wp_acc (fun data ha => ?_) (fun _ => ⟨rfl, rfl⟩)
      refine Exec.wp_ite (fun hid => ⟨rfl, fun b hb => ?_⟩) (fun _ => ih.mono fun r c' hr => ?_)
      · obtain rfl := Option.some.inj hb
        exact ⟨List.mem_cons_self, data, ha, hid⟩
      · cases r with
        | error e => exact hr
        | ok r =>
            refine ⟨hr.1, fun b hb => ?_⟩
            obtain ⟨hmem, hacc⟩ := hr.2 b hb
            exact ⟨List.mem_cons_of_mem a hmem, hacc⟩

theorem ndmgmFindAcc_looks (free : Bool) (d : DevId) (accessId : Int32) :
    Exec.wp (ndmgmFindAcc free d accessId) (Looks c fun r => ∀ a, r = some a →
      ∃ nddata data, c.registry.devs d = some nddata ∧ a ∈ nddata.foaccHtable.values ∧
        c.registry.accs a = some data ∧ data.accessId = accessId) c := by
  refine Ker.wp_dev (fun nddata hd => ?_) (fun _ => ⟨rfl, rfl⟩)
  refine Ker.wp_downTrylock (fun _ _ => ?_) (fun _ => ⟨rfl, fun a ha => nomatch ha⟩)
  refine Ker.wp_registry (Exec.wp_bind (findAcc_looks accessId _) ?_ ?_)
  · rintro r c' ⟨rfl, hr⟩
    refine Ker.wp_up ⟨?_, fun a ha => ?_⟩
    · rw [List.erase_cons_head]
      rfl
    · obtain ⟨hmem, data, hacc, hid⟩ := hr a ha
      exact ⟨nddata, data, hd, Hashtable.mem_of_mem_possible hmem, hacc, hid⟩
  · intro e c' he
    exact he

theorem ndmgmFindPid_looks (free : Bool) (minor : Nat) :
    Exec.wp (ndmgmFindPid free minor) (Looks c fun _ => True) c := by
  refine Ker.wp_downTrylock (fun _ _ => ?_) (fun _ => ⟨rfl, trivial⟩)
  refine Ker.wp_registry (Ker.wp_deref (fun minors _ => ?_) (fun _ => ⟨rfl, rfl⟩))
  refine Ker.wp_ofMem (fun pid _ => Ker.wp_up ⟨?_, trivial⟩) ⟨rfl, rfl⟩
  rw [List.erase_cons_head]
  rfl

/-! ## Registration -/

theorem ndmgmGetMinor_keeps (h : c.registry.Wf) (free : Bool) (pid : Int32) :
    Exec.wp (ndmgmGetMinor free pid) (Keeps c.registry 0) c := by
  have hsame : ∀ minors, c.registry.Balanced { c.registry with minors } 0 := fun _ =>
    .of_eq h rfl rfl rfl rfl rfl
  refine Ker.wp_downTrylock (fun _ _ => ?_) (fun _ => Balanced.refl h)
  refine Ker.wp_registry ?_
  refine Ker.wp_deref (fun minors _ => ?_) (fun _ => Balanced.refl h)
  refine Exec.wp_ite (fun _ => Balanced.refl h) (fun _ => ?_)
  cases minors.get pid with
  | error e => exact Ker.wp_up (Balanced.refl h)
  | ok r => exact Ker.wp_modify (Ker.wp_up (hsame _))

theorem newDev_spec (h : c.registry.Wf) (nlpid : Int32) (dummy : Bool) (minor : Nat) :
    Exec.wp (newDev nlpid dummy minor) (fun r c' => r = .ok c.registry.nextDev ∧
      c.registry.Balanced c'.registry 0 ∧ (∃ nddata, c'.registry.devs c.registry.nextDev = some nddata) ∧
      c'.registry.netdevHtable = c.registry.netdevHtable) c :=
  ⟨rfl, balanced_newDev h rfl rfl, ⟨_, setDev_self _ _⟩, rfl⟩

/-- The reference of the table, and the entry. -/
theorem hashDev_keeps (h : c.registry.Wf) {d : DevId} {nddata : NetdevData}
    (hd : c.registry.devs d = some nddata) (hnew : d ∉ c.registry.netdevHtable.values)
    (nlpid : Int32) : Exec.wp (hashDev d nlpid) (Keeps c.registry 0) c := by
  have hlt : d < c.registry.nextDev := h.devs_lt d (by rw [hd]; exact Option.some_ne_none _)
  have hget : c.registry.Balanced
      (c.registry.setDev d { nddata with users := nddata.users + 1 }) (Pi.single d 1) :=
    balanced_setDev h hd rfl rfl
  have hhash := hget.trans_single (balanced_hash hget.wf hlt hnew nlpid.toUInt32)
    (Int.add_right_neg 1)
  rw [Pi.single_zero] at hhash
  exact wp_ndmgmGet hd hhash

theorem ndmgmCreateServer_keeps (h : c.registry.Wf) (env : CreateEnv) (nlpid : Int32) :
    Exec.wp (ndmgmCreateServer env nlpid) (Keeps c.registry 0) c := by
  refine Exec.wp_ite (fun _ => Balanced.refl h) (fun _ => ?_)
  refine Exec.wp_bind (newDev_spec h nlpid false 0) ?_ (fun _ _ he => nomatch he.1)
  rintro d c' ⟨hd, hnew, ⟨nddata, hlive⟩, htable⟩
  obtain rfl := Except.ok.inj hd
  have hout : c.registry.nextDev ∉ c'.registry.netdevHtable.values := fun hmem =>
    Nat.lt_irrefl _ (h.table_lt _ (htable ▸ hmem))
  refine Exec.wp_bind (hashDev_keeps hnew.wf hlive hout nlpid) ?_ ?_
  · exact fun _ _ hr => hnew.trans_zero hr
  · exact fun _ _ hr => hnew.trans_zero hr

theorem ndmgmCreateDummy_keeps (h : c.registry.Wf) (env : CreateEnv) (nlpid : Int32) :
    Exec.wp (ndmgmCreateDummy env nlpid) (Keeps c.registry 0) c := by
  refine Exec.wp_bind (ndmgmGetMinor_keeps h env.minor nlpid) ?_ (fun _ _ hr => hr)
  intro minor c₁ hminor
  cases minor with
  | none => exact hminor
  | some minor =>
      refine Exec.wp_ite (fun _ => hminor) (fun _ => ?_)
      refine Exec.wp_bind (newDev_spec hminor.wf nlpid true minor) ?_ (fun _ _ he => nomatch he.1)
      rintro d c' ⟨hd, hnew, ⟨nddata, hlive⟩, htable⟩
      obtain rfl := Except.ok.inj hd
      have hnew' := hminor.trans_zero hnew
      have hout : c₁.registry.nextDev ∉ c'.registry.netdevHtable.values := fun hmem =>
        Nat.lt_irrefl _ (hminor.wf.table_lt _ (htable ▸ hmem))
      refine Exec.wp_ite (fun _ => ?_) (fun _ => Exec.wp_ite (fun _ => ?_) (fun _ => ?_))
      · exact Ker.wp_modify (hnew'.trans_zero (balanced_freeDev hnew.wf _))
      · exact Ker.wp_modify (hnew'.trans_zero (balanced_freeDev hnew.wf _))
      · refine Exec.wp_bind (hashDev_keeps hnew.wf hlive hout nlpid) ?_ ?_
        · exact fun _ _ hr => hnew'.trans_zero hr
        · exact fun _ _ hr => hnew'.trans_zero hr

/-! ## Open files -/

theorem foAccStart_keeps (h : c.registry.Wf) (env : StartEnv) (nddata : Option DevId) (pid : Int32) :
    Exec.wp (foAccStart env nddata pid) (Keeps c.registry 0) c := by
  cases nddata with
  | none => exact Balanced.refl h
  | some d =>
      refine Exec.wp_ite (fun _ => Balanced.refl h) (fun _ => ?_)
      refine Ker.wp_dev (fun nddata hd => ?_) (fun _ => Balanced.refl h)
      refine Exec.wp_ite (fun _ => Balanced.refl h) (fun _ => ?_)
      refine Ker.wp_downTrylock (fun _ _ => ?_) (fun _ => Balanced.refl h)
      refine Ker.wp_registry (Ker.wp_modify (Ker.wp_modify (Ker.wp_modify ?_)))
      have hstart := @balanced_startAcc c.registry d nddata h hd pid.toUInt32
        { accessId := pid, queue := .fresh, server := ⟨none⟩ } [] FoAccess.Queued.fresh
      refine wp_ndmgmGet (setDev_self _ _) (Ker.wp_up ?_)
      have hget := @balanced_setDev _ d _ hstart.wf (setDev_self _ _)
        { nddata with
          foaccHtable := nddata.foaccHtable.add pid.toUInt32 ⟨c.registry.nextAcc, d⟩
          users := nddata.users + 1 } 1 rfl rfl
      have htotal := hstart.trans_single hget (Int.add_left_neg 1)
      rw [Pi.single_zero] at htotal
      exact htotal

theorem foAccDestroy_keeps (h : c.registry.Wf) (a : AccRef) :
    Exec.wp (foAccDestroy a) (Keeps c.registry 0) c := by
  refine Ker.wp_acc (fun data ha => ?_) (fun _ => Balanced.refl h)
  refine Ker.wp_dev (fun nddata hd => ?_) (fun _ => Balanced.refl h)
  refine Ker.wp_downWrite (fun _ => ?_) (fun _ => Balanced.refl h) (fun _ _ => Balanced.refl h)
  refine Ker.wp_dev (fun nddata' hd' => ?_) (fun _ => Balanced.refl h)
  refine Ker.wp_modify (wp_ndmgmPut (setDev_self _ _) (Ker.wp_up ?_))
  have hlive : c.registry.accs a ≠ none := by
    rw [ha]
    exact Option.some_ne_none _
  have hdestroy := @balanced_destroyAcc c.registry nddata' h a hlive hd'
    { nddata' with foaccHtable := nddata'.foaccHtable.del a, users := nddata'.users - 1 } 0 rfl
    (by simp only; omega)
  rw [Pi.single_zero] at hdestroy
  rw [setDev_setDev]
  exact hdestroy

end Calls

end Netdev.Kernel
