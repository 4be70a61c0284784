-- SUMMARY: All outcomes of `ndmgm_destroy`, `ndmgm_find_destroy` and `ndmgm_end`: kept, freed, or waiting for itself.
import Netdev.Kernel.Balance

/-!
# Unregistration

One law for each of the three functions says how a call can end and what it has done
to the registry by then; the facts about calls follow from these laws. Freeing a
device needs a counter of at most one; a dummy device with an open file makes the
call wait for a semaphore that it holds.
-/

namespace Netdev.Kernel
open Base Registry

variable {c : Call} {env : DestroyEnv} {d : DevId} {nddata : NetdevData}

/-! ## Open files -/

theorem freeQueue_spec (h : c.registry.Wf) {a : AccRef} (ha : c.registry.accs a ≠ none) :
    Exec.wp (freeQueue a) (fun r c' => r = .ok 0 ∧ c'.own = c.own ∧
      c.registry.Balanced c'.registry 0 ∧ c'.registry.devs = c.registry.devs ∧
      c'.registry.minors = c.registry.minors ∧ c'.registry.stuck = c.registry.stuck ∧
      c'.registry.accs a ≠ none) c := by
  obtain ⟨data, hdata⟩ := Option.ne_none_iff_exists'.mp ha
  obtain ⟨ps, hqueued⟩ := h.queued a data hdata
  obtain ⟨queue, hfree, hempty⟩ := hqueued.foAccFreeQueue c.registry.reqs
  refine Ker.wp_acc (fun data' hdata' => ?_) (fun hnone => absurd hnone ha)
  obtain rfl := Option.some.inj (hdata.symm.trans hdata')
  refine Ker.wp_registry ?_
  rw [hfree]
  have hset := @balanced_setAcc c.registry h a ha { data with queue } [] hempty
  refine Ker.wp_modify (Ker.wp_modify ⟨rfl, rfl, ?_, rfl, rfl, rfl, ?_⟩)
  · exact hset.trans_zero (.of_eq hset.wf rfl rfl rfl rfl rfl)
  · exact (setAcc_self c.registry { data with queue }).trans_ne (Option.some_ne_none _)

/-- An open file of a device cannot be destroyed under the lock of the device. -/
theorem foAccDestroy_own {a : AccRef} (ha : c.registry.accs a ≠ none)
    (hd : c.registry.devs a.nddata ≠ none) (hown : Sem.dev a.nddata ∈ c.own) :
    Exec.wp (foAccDestroy a) (fun r c' => r = .error .deadlock ∧ c' = c) c := by
  refine Ker.wp_acc (fun _ _ => ?_) (fun hnone => absurd hnone ha)
  refine Ker.wp_dev (fun _ _ => ?_) (fun hnone => absurd hnone hd)
  exact Ker.wp_downWrite (fun hfree => absurd hown hfree.1) (fun _ => ⟨rfl, rfl⟩)
    (fun hout _ => absurd hown hout)

/-! ## How far a call gets -/

/-- The lock of the device is taken. -/
def LocksDev (c : Call) (env : DestroyEnv) (d : DevId) : Prop :=
  env.destroy = true ∧ Ker.Free c (.dev d)

/-- The lock of the table is taken in `ndmgm_destroy_allacc`. -/
def LocksTable (c : Call) (env : DestroyEnv) : Prop :=
  env.destroyAllacc = true ∧ Ker.Free c .htable

/-- The lock of the minors is taken in `ndmgm_put_minor`. -/
def LocksMinors (c : Call) (env : DestroyEnv) : Prop := env.putMinor = true ∧ Ker.Free c .minor

/-- `ndmgm_destroy_allacc` meets an open file. -/
structure ReachesFiles (c : Call) (env : DestroyEnv) (d : DevId) (nddata : NetdevData) : Prop where
  dummy : nddata.dummy = true
  dev : LocksDev c env d
  table : LocksTable c env
  files : nddata.foaccHtable.values ≠ []

/-- The counter is compared. -/
structure ReachesCheck (c : Call) (env : DestroyEnv) (d : DevId) (nddata : NetdevData) : Prop where
  dev : LocksDev c env d
  dummy : nddata.dummy = true → LocksTable c env ∧ nddata.foaccHtable.values = []

/-- The device without `active`. -/
def NetdevData.deactivated (nddata : NetdevData) : NetdevData := { nddata with active := false }

/-- The minors after a dummy device was freed. -/
structure PutsMinor (c : Call) (env : DestroyEnv) (minor : Nat) (minors : Option Minors) : Prop where
  locked : LocksMinors c env → ∃ m m', c.registry.minors = some m ∧ m.put minor = .ok m' ∧
    minors = some m'
  busy : ¬ LocksMinors c env → minors = c.registry.minors

/-- The ends of `ndmgm_destroy`. -/
inductive Destroyed (c : Call) (env : DestroyEnv) (d : DevId) (nddata : NetdevData) :
    Except Halt Int32 → Call → Prop where
  | deadlock {c' : Call} (hfiles : ReachesFiles c env d nddata)
      (hbal : c.registry.Balanced c'.registry
        (if d ∈ c.registry.netdevHtable.values then (Pi.single d 1 : DevId → Int) else 0))
      (hdevs : c'.registry.devs = (c.registry.setDev d nddata.deactivated).devs)
      (hminors : c'.registry.minors = c.registry.minors)
      (hstuck : c'.registry.stuck = c.registry.stuck) :
      Destroyed c env d nddata (.error .deadlock) c'
  | busy (hbusy : ¬ LocksDev c env d) : Destroyed c env d nddata (.ok 1) c
  | kept (hdev : LocksDev c env d) (hfiles : ¬ ReachesFiles c env d nddata)
      (hcheck : ReachesCheck c env d nddata → 1 < nddata.users) :
      Destroyed c env d nddata (.ok 1) ⟨c.registry.setDev d nddata.deactivated, c.own⟩
  | fault {c' : Call} (hdummy : nddata.dummy = true) (hcheck : ReachesCheck c env d nddata)
      (husers : nddata.users ≤ 1) (hminors : LocksMinors c env)
      (hput : ∀ m m', c.registry.minors = some m → m.put nddata.minor ≠ .ok m')
      (hreg : c'.registry = c.registry.setDev d nddata.deactivated) :
      Destroyed c env d nddata (.error .fault) c'
  | freed {minors : Option Minors} (hcheck : ReachesCheck c env d nddata) (husers : nddata.users ≤ 1)
      (hdummy : nddata.dummy = true → PutsMinor c env nddata.minor minors)
      (hserver : nddata.dummy = false → minors = c.registry.minors) :
      Destroyed c env d nddata (.ok 0)
        ⟨({ c.registry.setDev d nddata.deactivated with minors } : Registry).freeDev d, c.own⟩

/-! ## Destroying a device -/

/-- The loop of `ndmgm_destroy_allacc` ends at the first open file. -/
theorem destroyAccs_spec (h : c.registry.Wf) (hd : c.registry.devs d = some nddata) {as : List AccRef}
    (has : ∀ a ∈ as, a ∈ nddata.foaccHtable.values) (hown : Sem.dev d ∈ c.own) :
    Exec.wp (destroyAccs d as) (fun r c' =>
      (as = [] → r = .ok 0 ∧ c' = ⟨c.registry, c.own.erase .htable⟩) ∧
      (as ≠ [] → r = .error .deadlock ∧ c.registry.Balanced c'.registry
        (if d ∈ c.registry.netdevHtable.values then (Pi.single d 1 : DevId → Int) else 0) ∧
        c'.registry.devs = c.registry.devs ∧ c'.registry.minors = c.registry.minors ∧
        c'.registry.stuck = c.registry.stuck)) c := by
  cases as with
  | nil => exact Ker.wp_up ⟨fun _ => ⟨rfl, rfl⟩, fun hne => absurd rfl hne⟩
  | cons a as =>
      obtain ⟨rfl, ha⟩ := (h.mem_files d nddata hd a).mp (has a List.mem_cons_self)
      have hunhash := balanced_unhash h a.nddata
      refine Ker.wp_modify ?_
      refine Exec.wp_bind (freeQueue_spec (c := ⟨_, _⟩) hunhash.wf ha) ?_ (fun _ _ he => nomatch he.1)
      rintro n c' ⟨hn, hown', hbal, hdevs, hminors, hstuck, ha'⟩
      obtain rfl := Except.ok.inj hn
      refine Exec.wp_ite (fun hne => absurd rfl hne) (fun _ => ?_)
      have hd' : c'.registry.devs a.nddata ≠ none := by
        rw [hdevs]
        exact hd.trans_ne (Option.some_ne_none _)
      refine Exec.wp_bind (foAccDestroy_own ha' hd' (hown' ▸ hown)) (fun _ _ he => nomatch he.1) ?_
      rintro e c'' ⟨he, rfl⟩
      refine ⟨fun hnil => absurd hnil (List.cons_ne_nil _ _), fun _ => ⟨?_, ?_, hdevs, hminors, hstuck⟩⟩
      · rw [Except.error.inj he]
      · exact hunhash.trans_zero hbal

/-- `ndmgm_destroy_allacc` under the lock of the device. -/
theorem ndmgmDestroyAllacc_spec (h : c.registry.Wf) (hd : c.registry.devs d = some nddata)
    (hown : Sem.dev d ∈ c.own) :
    Exec.wp (ndmgmDestroyAllacc env d) (fun r c' =>
      (¬ LocksTable c env ∧ r = .ok 1 ∧ c' = c) ∨
      (LocksTable c env ∧ nddata.foaccHtable.values = [] ∧ r = .ok 0 ∧ c' = c) ∨
      (LocksTable c env ∧ nddata.foaccHtable.values ≠ [] ∧ r = .error .deadlock ∧
        c.registry.Balanced c'.registry
          (if d ∈ c.registry.netdevHtable.values then (Pi.single d 1 : DevId → Int) else 0) ∧
        c'.registry.devs = c.registry.devs ∧ c'.registry.minors = c.registry.minors ∧
        c'.registry.stuck = c.registry.stuck)) c := by
  refine Ker.wp_downTrylock (fun hlock hfree => ?_) (fun hbusy => .inl ⟨hbusy, rfl, rfl⟩)
  refine Ker.wp_dev_live hd ?_
  refine Ker.wp_registry ((destroyAccs_spec (c := ⟨c.registry, .htable :: c.own⟩) h hd
    (fun a ha => Hashtable.mem_forEach.mp ha) (List.mem_cons_of_mem _ hown)).mono ?_)
  rintro r c' ⟨hnil, hcons⟩
  by_cases hfiles : nddata.foaccHtable.values = []
  · obtain ⟨hr, hc⟩ := hnil (Hashtable.forEach_eq_nil.mpr hfiles)
    rw [List.erase_cons_head] at hc
    exact .inr (.inl ⟨⟨hlock, hfree⟩, hfiles, hr, hc⟩)
  · obtain ⟨hr, hsame⟩ := hcons fun hempty => hfiles (Hashtable.forEach_eq_nil.mp hempty)
    exact .inr (.inr ⟨⟨hlock, hfree⟩, hfiles, hr, hsame⟩)

/-- `ndmgm_put_minor` leaves everything but the minors alone. -/
theorem ndmgmPutMinor_spec (minor : Nat) :
    Exec.wp (ndmgmPutMinor env.putMinor minor) (fun r c' =>
      (∃ minors, PutsMinor c env minor minors ∧ r = .ok () ∧ c' = ⟨{ c.registry with minors }, c.own⟩) ∨
      (LocksMinors c env ∧ (∀ m m', c.registry.minors = some m → m.put minor ≠ .ok m') ∧
        r = .error .fault ∧ c'.registry = c.registry)) c := by
  refine Ker.wp_downTrylock (fun hlock hfree => ?_) (fun hbusy => ?_)
  · refine Ker.wp_registry (Ker.wp_deref (fun m hm => ?_) (fun hnone => .inr ⟨⟨hlock, hfree⟩, ?_, rfl, rfl⟩))
    · cases hput : m.put minor with
      | error e =>
          refine .inr ⟨⟨hlock, hfree⟩, fun m₁ m' hm₁ => ?_, rfl, rfl⟩
          obtain rfl := Option.some.inj (hm.symm.trans hm₁)
          rw [hput]
          exact fun h => nomatch h
      | ok m' =>
          refine .inl ⟨some m', ⟨fun _ => ⟨m, m', hm, hput, rfl⟩, fun hbusy => ?_⟩, rfl, ?_⟩
          · exact absurd ⟨hlock, hfree⟩ hbusy
          · exact congrArg (Call.mk _) (List.erase_cons_head Sem.minor c.own)
    · exact fun m _ hm => nomatch hnone.symm.trans hm
  · exact .inl ⟨c.registry.minors, ⟨fun hlocks => absurd hlocks hbusy, fun _ => rfl⟩, rfl, rfl⟩

theorem ndmgmDestroyServer_spec (hd : c.registry.devs d = some nddata)
    (hserver : nddata.dummy = false) :
    Exec.wp (ndmgmDestroyServer env d) (Destroyed c env d nddata) c := by
  have hno : nddata.dummy ≠ true := by
    rw [hserver]
    exact Bool.false_ne_true
  refine Ker.wp_downTrylock (fun hlock hfree => ?_) (fun hbusy => .busy hbusy)
  refine Ker.wp_dev_live hd ?_
  refine Ker.wp_modify (wp_ndmgmRefs (setDev_self _ _) (Exec.wp_ite (fun hrefs => ?_) (fun hrefs => ?_)))
  · refine Ker.wp_up ?_
    rw [List.erase_cons_head]
    exact .kept ⟨hlock, hfree⟩ (fun hf => hno hf.dummy) fun _ => hrefs
  · refine Ker.wp_up (wp_freeData (setDev_self _ _) ?_)
    rw [List.erase_cons_head]
    exact .freed ⟨⟨hlock, hfree⟩, fun hdummy => absurd hdummy hno⟩ (Int.not_lt.mp hrefs)
      (fun hdummy => absurd hdummy hno) fun _ => rfl

theorem ndmgmDestroyDummy_spec (h : c.registry.Wf) (hd : c.registry.devs d = some nddata)
    (hdummy : nddata.dummy = true) :
    Exec.wp (ndmgmDestroyDummy env d) (Destroyed c env d nddata) c := by
  have hset : c.registry.Balanced (c.registry.setDev d nddata.deactivated) 0 :=
    balanced_setDev_users h hd rfl rfl
  refine Ker.wp_downTrylock (fun hlock hfree => ?_) (fun hbusy => .busy hbusy)
  refine Ker.wp_dev_live hd ?_
  -- under the lock of the device that of the table is as free as before
  have htable : LocksTable ⟨c.registry.setDev d nddata.deactivated, .dev d :: c.own⟩ env ↔
      LocksTable c env :=
    and_congr_right fun _ => and_congr_left fun _ =>
      not_congr (List.mem_cons.trans (or_iff_right Sem.noConfusion))
  refine Ker.wp_modify (Exec.wp_bind (ndmgmDestroyAllacc_spec
    (c := ⟨c.registry.setDev d nddata.deactivated, .dev d :: c.own⟩) hset.wf (setDev_self _ _)
    List.mem_cons_self) ?_ ?_)
  · rintro n c' (⟨hbusy, hn, rfl⟩ | ⟨htab, hempty, hn, rfl⟩ | ⟨-, -, hn, -⟩)
    · obtain rfl := Except.ok.inj hn
      rw [htable] at hbusy
      refine Exec.wp_ite (fun _ => Ker.wp_up ?_) (fun hne => absurd (by decide) hne)
      rw [List.erase_cons_head]
      exact .kept ⟨hlock, hfree⟩ (fun hf => hbusy hf.table) fun hc => absurd (hc.dummy hdummy).1 hbusy
    · obtain rfl := Except.ok.inj hn
      have hcheck : ReachesCheck c env d nddata :=
        ⟨⟨hlock, hfree⟩, fun _ => ⟨htable.mp htab, hempty⟩⟩
      refine Exec.wp_ite (fun hne => absurd rfl hne) (fun _ => ?_)
      refine wp_ndmgmRefs (setDev_self _ _) (Exec.wp_ite (fun hrefs => Ker.wp_up ?_)
        (fun hrefs => Ker.wp_up ?_))
      · rw [List.erase_cons_head]
        exact .kept ⟨hlock, hfree⟩ (fun hf => hf.files hempty) fun _ => hrefs
      · rw [List.erase_cons_head]
        refine Ker.wp_dev (fun nddata' hd' => ?_) (fun hnone => nomatch (setDev_self _ _).symm.trans hnone)
        obtain rfl := Option.some.inj ((setDev_self _ _).symm.trans hd')
        refine Exec.wp_bind (ndmgmPutMinor_spec (c := ⟨_, _⟩) nddata.minor) ?_ ?_
        · rintro _ c' (⟨minors, hput, -, rfl⟩ | ⟨-, -, hr, -⟩)
          · refine wp_freeData (setDev_self _ _) ?_
            exact .freed hcheck (Int.not_lt.mp hrefs) (fun _ => ⟨hput.locked, hput.busy⟩)
              fun hserver => nomatch hdummy.symm.trans hserver
          · exact nomatch hr
        · rintro e c' (⟨_, -, hr, -⟩ | ⟨hlocks, hput, hr, hreg⟩)
          · exact nomatch hr
          · obtain rfl := Except.error.inj hr
            exact .fault hdummy hcheck (Int.not_lt.mp hrefs) hlocks hput hreg
    · exact nomatch hn
  · rintro e c' (⟨-, hn, -⟩ | ⟨-, -, hn, -⟩ | ⟨htab, hfiles, hn, hbal, hdevs, hminors, hstuck⟩)
    · exact nomatch hn
    · exact nomatch hn
    · obtain rfl := Except.error.inj hn
      exact .deadlock ⟨hdummy, ⟨hlock, hfree⟩, htable.mp htab, hfiles⟩ (hset.zero_trans hbal) hdevs
        hminors hstuck

theorem ndmgmDestroy_spec (h : c.registry.Wf) (hd : c.registry.devs d = some nddata) :
    Exec.wp (ndmgmDestroy env d) (Destroyed c env d nddata) c := by
  refine Ker.wp_dev_live hd ?_
  refine Exec.wp_ite (fun hdummy => ndmgmDestroyDummy_spec h hd hdummy) (fun hserver => ?_)
  exact ndmgmDestroyServer_spec hd (Bool.eq_false_of_not_eq_true hserver)

namespace Destroyed
variable {r : Except Halt Int32} {c' : Call}

/-- A call that does not wait for itself changes no balance. -/
theorem balanced (hdestroy : Destroyed c env d nddata r c') (h : c.registry.Wf)
    (hd : c.registry.devs d = some nddata) (hr : r ≠ .error .deadlock) :
    c.registry.Balanced c'.registry 0 := by
  have hset : c.registry.Balanced (c.registry.setDev d nddata.deactivated) 0 :=
    balanced_setDev_users h hd rfl rfl
  cases hdestroy with
  | deadlock => exact absurd rfl hr
  | busy => exact .refl h
  | kept => exact hset
  | fault hdummy hcheck husers hminors hput hreg =>
      rw [hreg]
      exact hset
  | @freed minors =>
      have hsame := hset.trans_zero (@Balanced.of_eq _
        { c.registry.setDev d nddata.deactivated with minors } hset.wf rfl rfl rfl rfl rfl)
      exact hsame.trans_zero (balanced_freeDev hsame.wf d)

theorem devs_of_ne (hdestroy : Destroyed c env d nddata r c') {e : DevId} (he : e ≠ d) :
    c'.registry.devs e = c.registry.devs e := by
  cases hdestroy with
  | deadlock hfiles hbal hdevs =>
      rw [hdevs]
      exact setDev_of_ne _ _ he
  | busy => rfl
  | kept => exact setDev_of_ne _ _ he
  | fault hdummy hcheck husers hminors hput hreg =>
      rw [hreg]
      exact setDev_of_ne _ _ he
  | freed => exact (freeDev_of_ne _ he).trans (setDev_of_ne _ _ he)

theorem stuck (hdestroy : Destroyed c env d nddata r c') : c'.registry.stuck = c.registry.stuck := by
  cases hdestroy with
  | deadlock hfiles hbal hdevs hminors hstuck => exact hstuck
  | fault hdummy hcheck husers hminors hput hreg =>
      rw [hreg]
      rfl
  | _ => rfl

theorem accs (hdestroy : Destroyed c env d nddata r c') (hfiles : nddata.foaccHtable.values = []) :
    c'.registry.accs = c.registry.accs := by
  cases hdestroy with
  | deadlock hreaches => exact absurd hfiles hreaches.files
  | fault hdummy hcheck husers hminors hput hreg =>
      rw [hreg]
      rfl
  | _ => rfl

/-- A call that returns has released what it took. -/
theorem own {n : Int32} (hdestroy : Destroyed c env d nddata (.ok n) c') : c'.own = c.own := by
  cases hdestroy with
  | _ => rfl

theorem table {n : Int32} (hdestroy : Destroyed c env d nddata (.ok n) c') :
    c'.registry.netdevHtable = c.registry.netdevHtable := by
  cases hdestroy with
  | _ => rfl

/-- The device is gone exactly when the call returns 0. -/
theorem freed_iff (hdestroy : Destroyed c env d nddata r c') (hd : c.registry.devs d = some nddata) :
    c'.registry.devs d = none ↔ r = .ok 0 := by
  have hkept : (c.registry.setDev d nddata.deactivated).devs d ≠ none :=
    (setDev_self c.registry nddata.deactivated).trans_ne (Option.some_ne_none _)
  cases hdestroy with
  | deadlock hfiles hbal hdevs =>
      rw [hdevs]
      exact iff_of_false hkept fun h => nomatch h
  | busy => exact iff_of_false (hd.trans_ne (Option.some_ne_none _)) (by decide)
  | kept => exact iff_of_false hkept (by decide)
  | fault hdummy hcheck husers hminors hput hreg =>
      rw [hreg]
      exact iff_of_false hkept fun h => nomatch h
  | freed => exact iff_of_true (freeDev_self _) rfl

/-- A call waits for itself exactly when it meets an open file. -/
theorem deadlock_iff (hdestroy : Destroyed c env d nddata r c') :
    r = .error .deadlock ↔ ReachesFiles c env d nddata := by
  cases hdestroy with
  | deadlock hfiles => exact iff_of_true rfl hfiles
  | busy hbusy => exact iff_of_false (fun h => nomatch h) fun hfiles => hbusy hfiles.dev
  | kept hdev hfiles => exact iff_of_false (fun h => nomatch h) hfiles
  | fault hdummy hcheck =>
      exact iff_of_false (fun h => nomatch h) fun hfiles => hfiles.files (hcheck.dummy hdummy).2
  | freed hcheck =>
      exact iff_of_false (fun h => nomatch h) fun hfiles => hfiles.files (hcheck.dummy hfiles.dummy).2

/-- While the lock of the table is held, an unregistration does not get to the open
files. -/
theorem ne_deadlock (hdestroy : Destroyed c env d nddata r c') (hown : Sem.htable ∈ c.own) :
    r ≠ .error .deadlock := by
  cases hdestroy with
  | deadlock hfiles => exact absurd hown hfiles.table.2.1
  | _ => exact fun h => nomatch h

end Destroyed

/-! ## Taking a device out of the table -/

/-- The device without the reference of the table. -/
def NetdevData.put (nddata : NetdevData) : NetdevData := { nddata with users := nddata.users - 1 }

/-- The module after `hash_del` and `ndmgm_put`. -/
def Call.unlink (c : Call) (d : DevId) (nddata : NetdevData) : Call :=
  ⟨(c.registry.unhash d).setDev d nddata.put, c.own⟩

theorem unlink_of_ne {e : DevId} (he : e ≠ d) : (c.unlink d nddata).registry.devs e = c.registry.devs e :=
  setDev_of_ne _ _ he

theorem unlink_balanced (h : c.registry.Wf) (hd : c.registry.devs d = some nddata)
    (hmem : d ∈ c.registry.netdevHtable.values) :
    c.registry.Balanced (c.unlink d nddata).registry 0 := by
  have hunhash := balanced_unhash h d
  rw [if_pos hmem] at hunhash
  have hput : (c.registry.unhash d).Balanced ((c.registry.unhash d).setDev d nddata.put)
      (Pi.single d (-1)) := balanced_setDev hunhash.wf hd rfl rfl
  have htotal := hunhash.trans_single hput (Int.add_right_neg 1)
  rwa [Pi.single_zero] at htotal

/-- The device and the module when `ndmgm_find_destroy` goes on to destroy it. -/
def NetdevData.found (env : DestroyEnv) (nddata : NetdevData) : NetdevData :=
  if env.findDestroy then nddata.put else nddata

def Call.found (c : Call) (env : DestroyEnv) (d : DevId) (nddata : NetdevData) : Call :=
  if env.findDestroy then c.unlink d nddata else c

theorem found_balanced (h : c.registry.Wf) (hd : c.registry.devs d = some nddata)
    (hmem : d ∈ c.registry.netdevHtable.values) :
    c.registry.Balanced (c.found env d nddata).registry 0 := by
  unfold Call.found
  by_cases hlock : env.findDestroy
  · rw [if_pos hlock]
    exact unlink_balanced h hd hmem
  · rw [if_neg hlock]
    exact .refl h

theorem found_live (hd : c.registry.devs d = some nddata) :
    (c.found env d nddata).registry.devs d = some (nddata.found env) := by
  unfold Call.found NetdevData.found
  by_cases hlock : env.findDestroy
  · rw [if_pos hlock, if_pos hlock]
    exact setDev_self _ _
  · rw [if_neg hlock, if_neg hlock]
    exact hd

theorem found_of_ne {e : DevId} (he : e ≠ d) :
    (c.found env d nddata).registry.devs e = c.registry.devs e := by
  unfold Call.found
  by_cases hlock : env.findDestroy
  · rw [if_pos hlock]
    exact unlink_of_ne he
  · rw [if_neg hlock]

theorem unlinkDev_spec (hd : c.registry.devs d = some nddata) (hfree : Ker.Free c .htable) :
    Exec.wp (unlinkDev env.findDestroy d) (fun r c' => r = .ok () ∧ c' = c.found env d nddata) c := by
  unfold Call.found
  refine Ker.wp_downTrylock (fun hlock _ => ?_) (fun hbusy => ?_)
  · rw [if_pos hlock]
    refine Ker.wp_modify (wp_ndmgmPut hd ⟨rfl, ?_⟩)
    exact congrArg (Call.mk _) (List.erase_cons_head Sem.htable c.own)
  · rw [if_neg fun hlock => hbusy ⟨hlock, hfree⟩]
    exact ⟨rfl, rfl⟩

/-- The ends of `ndmgm_find_destroy`. -/
inductive Unregistered (c : Call) (env : DestroyEnv) (nlpid : Int32) :
    Except Halt Int32 → Call → Prop where
  | unknown : Unregistered c env nlpid (.ok 1) c
  | fault {c' : Call} (hreg : c'.registry = c.registry) :
      Unregistered c env nlpid (.error .fault) c'
  | found {d : DevId} {nddata : NetdevData} {r : Except Halt Int32} {c' : Call}
      (hfind : ndmgmFind env.find nlpid c = (.ok (some d), c))
      (hmem : d ∈ c.registry.netdevHtable.values) (hd : c.registry.devs d = some nddata)
      (hpid : nlpid ≠ -1 ∧ nddata.nlpid = nlpid.toUInt32) (hfree : Ker.Free c .htable)
      (hdestroy : Destroyed (c.found env d nddata) env d (nddata.found env) r c') :
      Unregistered c env nlpid r c'

theorem ndmgmFindDestroy_spec (h : c.registry.Wf) (env : DestroyEnv) (nlpid : Int32) :
    Exec.wp (ndmgmFindDestroy env nlpid) (Unregistered c env nlpid) c := by
  by_cases hpid : nlpid = -1
  · have hfind : ndmgmFind env.find nlpid = pure none := if_pos hpid
    exact Exec.wp_bind_ok (congrFun hfind c) .unknown
  refine Exec.wp_bind (ndmgmFind_looks env.find nlpid).outcome ?_ ?_
  · rintro r c' ⟨⟨rfl, hr⟩, hfind⟩
    cases r with
    | none => exact .unknown
    | some d =>
        obtain ⟨hmem, hfree, nddata, hd, hnlpid⟩ := hr d rfl
        refine Exec.wp_bind (unlinkDev_spec hd hfree) ?_ (fun _ _ he => by cases he.1)
        rintro _ c' ⟨-, rfl⟩
        exact (ndmgmDestroy_spec (found_balanced h hd hmem).wf (found_live hd)).mono
          fun r c' hdestroy => .found hfind hmem hd ⟨hpid, hnlpid⟩ hfree hdestroy
  · rintro e c' ⟨⟨rfl, hreg⟩, -⟩
    exact .fault hreg

theorem ndmgmFindDestroy_of_find (h : c.registry.Wf) {nlpid : Int32}
    (hfind : ndmgmFind env.find nlpid c = (.ok (some d), c)) (hd : c.registry.devs d = some nddata) :
    Exec.wp (ndmgmFindDestroy env nlpid) (Destroyed (c.found env d nddata) env d (nddata.found env)) c := by
  have hlooks := ndmgmFind_looks (c := c) env.find nlpid
  rw [Exec.wp, hfind] at hlooks
  obtain ⟨hmem, hfree, -⟩ := hlooks.2 d rfl
  refine Exec.wp_bind_ok hfind ?_
  refine Exec.wp_bind (unlinkDev_spec hd hfree) ?_ (fun _ _ he => by cases he.1)
  rintro _ c' ⟨-, rfl⟩
  exact ndmgmDestroy_spec (found_balanced h hd hmem).wf (found_live hd)

/-! ## The end of the module -/

/-- The ends of the loop of `ndmgm_end`. -/
inductive Ended (env : DevId → DestroyEnv) : Call → List DevId → Except Halt Unit → Call → Prop where
  | done {c : Call} : Ended env c [] (.ok ()) c
  | dead {c : Call} {d : DevId} {ds : List DevId} (hd : c.registry.devs d = none) :
      Ended env c (d :: ds) (.error .fault) ⟨c.registry.unhash d, c.own⟩
  | halt {c c' : Call} {d : DevId} {ds : List DevId} {nddata : NetdevData} {e : Halt}
      (hd : c.registry.devs d = some nddata)
      (hdestroy : Destroyed (c.unlink d nddata) (env d) d nddata.put (.error e) c') :
      Ended env c (d :: ds) (.error e) c'
  | next {c c₁ c' : Call} {d : DevId} {ds : List DevId} {nddata : NetdevData} {n : Int32}
      {r : Except Halt Unit} (hd : c.registry.devs d = some nddata)
      (hdestroy : Destroyed (c.unlink d nddata) (env d) d nddata.put (.ok n) c₁)
      (hrest : Ended env c₁ ds r c') : Ended env c (d :: ds) r c'

theorem endDevs_spec (env : DevId → DestroyEnv) (ds : List DevId) :
    ∀ {c : Call}, c.registry.Wf → Exec.wp (endDevs env ds) (Ended env c ds) c := by
  induction ds with
  | nil => exact fun _ => .done
  | cons d ds ih =>
      intro c h
      have hunhash := balanced_unhash h d
      refine Ker.wp_modify ?_
      cases hd : c.registry.devs d with
      | none =>
          refine Exec.wp_bind_error (e := .fault) ?_ (.dead hd)
          change (Ker.deref (c.registry.devs d) >>= _ : Ker Unit) _ = _
          rw [hd]
          rfl
      | some nddata =>
          have hput : (c.registry.unhash d).Balanced (c.unlink d nddata).registry (Pi.single d (-1)) :=
            balanced_setDev hunhash.wf hd rfl rfl
          have hlive : (c.unlink d nddata).registry.devs d = some nddata.put := setDev_self _ _
          refine wp_ndmgmPut (c := ⟨_, _⟩) hd ?_
          refine Exec.wp_bind (ndmgmDestroy_spec (c := c.unlink d nddata) hput.wf hlive) ?_ ?_
          · intro n c₁ hdestroy
            exact (ih (hdestroy.balanced hput.wf hlive (fun h => nomatch h)).wf).mono
              fun r c' hrest => .next hd hdestroy hrest
          · exact fun e c' hdestroy => .halt hd hdestroy

theorem unlink_live : (c.unlink d nddata).registry.devs d = some nddata.put := setDev_self _ _

namespace Ended
variable {env : DevId → DestroyEnv} {ds : List DevId} {r : Except Halt Unit} {c' : Call}

/-- Under the lock of the table no device waits for itself. -/
theorem ne_deadlock (h : Ended env c ds r c') (hown : Sem.htable ∈ c.own) : r ≠ .error .deadlock := by
  induction h with
  | done => exact fun h => nomatch h
  | dead => exact fun h => nomatch h
  | halt hd hdestroy =>
      intro hr
      rw [Except.error.inj hr] at hdestroy
      exact hdestroy.ne_deadlock hown rfl
  | next hd hdestroy hrest ih =>
      refine ih ?_
      rw [hdestroy.own]
      exact hown

theorem own (h : Ended env c ds (.ok ()) c') : c'.own = c.own := by
  generalize hr : Except.ok () = r at h
  induction h with
  | done => rfl
  | dead => cases hr
  | halt => cases hr
  | next hd hdestroy hrest ih => exact (ih hr).trans hdestroy.own

theorem devs_of_not_mem (h : Ended env c ds r c') (hd : d ∉ ds) :
    c'.registry.devs d = c.registry.devs d := by
  induction h with
  | done => rfl
  | dead => rfl
  | halt he hdestroy =>
      have hne := List.ne_of_not_mem_cons hd
      rw [hdestroy.devs_of_ne hne, unlink_of_ne hne]
  | next he hdestroy hrest ih =>
      have hne := List.ne_of_not_mem_cons hd
      rw [ih (List.not_mem_of_not_mem_cons hd), hdestroy.devs_of_ne hne, unlink_of_ne hne]

/-- When all locks are free but that of the table, a server with at most one user goes,
and no dummy device. -/
theorem freed_iff (h : Ended (fun _ => .all) c ds (.ok ()) c') (hown : c.own = [.htable])
    (hstuck : ∀ e, Sem.dev e ∉ c.registry.stuck) (hnodup : ds.Nodup) (hd : d ∈ ds) :
    ∃ nddata, c.registry.devs d = some nddata ∧
      (c'.registry.devs d = none ↔ nddata.dummy = false ∧ nddata.users ≤ 2) := by
  generalize hr : Except.ok () = r at h
  induction h with
  | done => exact absurd hd List.not_mem_nil
  | dead => cases hr
  | halt => cases hr
  | @next c c₁ c' e ds nddata n r he hdestroy hrest ih =>
      have hout := (List.nodup_cons.mp hnodup).1
      rcases List.mem_cons.mp hd with rfl | hmem
      · refine ⟨nddata, he, ?_⟩
        have hlocks : LocksDev (c.unlink d nddata) .all d := by
          refine ⟨rfl, ?_, ?_⟩
          · change Sem.dev d ∉ c.own
            rw [hown]
            exact fun hin => nomatch List.mem_singleton.mp hin
          · exact hstuck d
        have hbusy : ¬ LocksTable (c.unlink d nddata) .all := fun hlock => by
          refine hlock.2.1 ?_
          change Sem.htable ∈ c.own
          rw [hown]
          exact List.mem_singleton_self _
        rw [hrest.devs_of_not_mem hout, hdestroy.freed_iff unlink_live]
        cases hdestroy with
        | busy hlock => exact absurd hlocks hlock
        | kept hdev hfiles hcheck =>
            refine iff_of_false (by decide) fun hserver => ?_
            have hmany := hcheck ⟨hlocks, fun hdummy => nomatch hserver.1.symm.trans hdummy⟩
            change 1 < nddata.users - 1 at hmany
            omega
        | freed hcheck husers =>
            refine iff_of_true rfl ⟨?_, ?_⟩
            · cases hdummy : nddata.dummy with
              | false => rfl
              | true => exact absurd (hcheck.dummy hdummy).1 hbusy
            · change nddata.users - 1 ≤ 1 at husers
              omega
      · have hne : d ≠ e := ne_of_mem_of_not_mem hmem hout
        obtain ⟨x, hx, hiff⟩ := ih (hdestroy.own.trans hown) (fun e => hdestroy.stuck ▸ hstuck e)
          (List.nodup_cons.mp hnodup).2 hmem hr
        rw [hdestroy.devs_of_ne hne, unlink_of_ne hne] at hx
        exact ⟨x, hx, hiff⟩

/-- The loop keeps the balance. -/
theorem balanced (h : Ended env c ds r c') (hwf : c.registry.Wf) (hown : Sem.htable ∈ c.own)
    (hnodup : ds.Nodup) (hmem : ∀ d ∈ ds, d ∈ c.registry.netdevHtable.values) :
    c.registry.Balanced c'.registry 0 := by
  induction h with
  | done => exact .refl hwf
  | @dead c d ds hd =>
      have hunhash := balanced_unhash hwf d
      rw [if_pos (hmem d List.mem_cons_self)] at hunhash
      exact hunhash.single_dead hd
  | @halt c c' d ds nddata e hd hdestroy =>
      have hunlink := unlink_balanced hwf hd (hmem d List.mem_cons_self)
      refine hunlink.trans_zero (hdestroy.balanced hunlink.wf unlink_live fun hr => ?_)
      exact hdestroy.ne_deadlock hown hr
  | @next c c₁ c' d ds nddata n r hd hdestroy hrest ih =>
      have hunlink := unlink_balanced hwf hd (hmem d List.mem_cons_self)
      have hstep := hunlink.trans_zero (hdestroy.balanced hunlink.wf unlink_live fun hr => nomatch hr)
      refine hstep.trans_zero (ih hstep.wf (hdestroy.own ▸ hown) (List.nodup_cons.mp hnodup).2 ?_)
      intro e he
      rw [hdestroy.table]
      refine Hashtable.mem_values_del.mpr ⟨hmem e (List.mem_cons_of_mem d he), ?_⟩
      exact ne_of_mem_of_not_mem he (List.nodup_cons.mp hnodup).1

end Ended

/-- The ends of `ndmgm_end`. -/
inductive ModuleEnded (c : Call) (free : Bool) (env : DevId → DestroyEnv) :
    Except Halt Int32 → Call → Prop where
  | busy (hbusy : ¬ (free = true ∧ Ker.Free c .htable)) : ModuleEnded c free env (.ok 1) c
  | halt {e : Halt} {c' : Call} (hlock : free = true ∧ Ker.Free c .htable)
      (h : Ended env ⟨c.registry, .htable :: c.own⟩
        (c.registry.netdevHtable.forEach c.registry.hashMin) (.error e) c') :
      ModuleEnded c free env (.error e) c'
  | done {c₁ : Call} (hlock : free = true ∧ Ker.Free c .htable)
      (h : Ended env ⟨c.registry, .htable :: c.own⟩
        (c.registry.netdevHtable.forEach c.registry.hashMin) (.ok ()) c₁) :
      ModuleEnded c free env (.ok 0) ⟨{ c₁.registry with minors := none }, c.own⟩

theorem ndmgmEnd_spec (h : c.registry.Wf) (free : Bool) (env : DevId → DestroyEnv) :
    Exec.wp (ndmgmEnd free env) (ModuleEnded c free env) c := by
  refine Ker.wp_downTrylock (fun hlock hfree => ?_) (fun hbusy => .busy hbusy)
  refine Ker.wp_registry (Exec.wp_bind (endDevs_spec env _ (c := ⟨_, _⟩) h) ?_ ?_)
  · intro _ c₁ hended
    refine Ker.wp_modify (Ker.wp_up ?_)
    have hown := hended.own
    rw [hown, List.erase_cons_head]
    exact .done ⟨hlock, hfree⟩ hended
  · exact fun e c' hended => .halt ⟨hlock, hfree⟩ hended

end Netdev.Kernel
