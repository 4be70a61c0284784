-- SUMMARY: A dummy device that is freed gives its minor back exactly when `ndmgm_put_minor` gets the lock of the minors.
import Netdev.Kernel.Frame
import Netdev.Kernel.Lifetime
import Netdev.Kernel.Register

/-!
# Giving a minor back

`ndmgm_put_minor` has no result, and does nothing when the lock of the minors is held
by a reader. The entry of a freed device then keeps the pid of its daemon.
-/

namespace Netdev.Kernel
open Base Registry

/-- A live dummy device with this pid and minor. -/
def Registry.DummyAt (reg : Registry) (d : DevId) (nlpid : UInt32) (minor : Nat) : Prop :=
  (reg.devs d).map NetdevData.ident = some (nlpid, true, minor)

/-- The table of the minors is there, and the entry of each dummy device is its pid. The
pid -1 cannot be told from a free entry. -/
structure Marked (reg : Registry) (m : Minors) : Prop where
  minors : reg.minors = some m
  bounded : m.Bounded
  lt : ∀ {d nlpid minor}, reg.DummyAt d nlpid minor → minor < NETDEV_MAX_DEVICES
  used : ∀ {d nlpid minor}, reg.DummyAt d nlpid minor → nlpid.toInt32 ≠ -1 →
    m.used[minor]? = some nlpid.toInt32
  distinct : ∀ {d e nlpid nlpid' minor}, reg.DummyAt d nlpid minor → reg.DummyAt e nlpid' minor →
    nlpid.toInt32 ≠ -1 → nlpid'.toInt32 ≠ -1 → d = e

namespace Marked
variable {reg reg' : Registry} {m m' : Minors} {d : DevId} {nddata : NetdevData}

/-- Devices may go, and the minors stay. -/
theorem mono (h : Marked reg m) (hminors : reg'.minors = reg.minors)
    (hdevs : ∀ d nlpid minor, reg'.DummyAt d nlpid minor → reg.DummyAt d nlpid minor) : Marked reg' m where
  minors := hminors.trans h.minors
  bounded := h.bounded
  lt hd := h.lt (hdevs _ _ _ hd)
  used hd := h.used (hdevs _ _ _ hd)
  distinct hd he := h.distinct (hdevs _ _ _ hd) (hdevs _ _ _ he)

theorem frame (h : Marked reg m) (hsame : reg.SameFrame reg') : Marked reg' m :=
  h.mono hsame.minors fun d _ _ hd => (hsame.devs d).symm.trans hd

/-- `ndmgm_get_minor` takes an entry of nobody. -/
theorem get (h : Marked reg m) {pid : Int32} {o : Option Nat} (hget : m.get pid = .ok (o, m')) :
    Marked { reg with minors := some m' } m' := by
  obtain ⟨hnone, hsome⟩ := Minors.get_eq hget
  refine ⟨rfl, Minors.get_bounded h.bounded hget, h.lt, ?_, h.distinct⟩
  intro d nlpid minor hd hpid
  cases o with
  | none =>
      rw [hnone rfl]
      exact h.used hd hpid
  | some i => exact (Minors.used_of_taken (hsome i rfl).1 (h.used hd hpid) hpid).2

/-- A registered device is the new one or an old one. -/
theorem dummyAt_register {nlpid' : UInt32} {minor minor' : Nat} {nlpid : Int32} {dummy : Bool}
    (hd : (reg.register nlpid dummy minor).DummyAt d nlpid' minor') :
    (d = reg.nextDev ∧ nlpid' = nlpid.toUInt32 ∧ dummy = true ∧ minor' = minor) ∨
      reg.DummyAt d nlpid' minor' := by
  by_cases hnew : d = reg.nextDev
  · subst hnew
    have hself : (reg.register nlpid dummy minor).devs reg.nextDev = some (.registered nlpid dummy minor) :=
      Function.update_self ..
    rw [DummyAt, hself] at hd
    have hident := Option.some.inj hd
    exact .inl ⟨rfl, (congrArg Prod.fst hident).symm, congrArg (fun p => p.2.1) hident,
      (congrArg (fun p => p.2.2) hident).symm⟩
  · rw [DummyAt, register_of_ne hnew] at hd
    exact .inr hd

theorem registerServer (h : Marked reg m) (nlpid : Int32) : Marked (reg.register nlpid false 0) m := by
  refine h.mono rfl fun d nlpid' minor hd => ?_
  rcases dummyAt_register hd with ⟨-, -, hdummy, -⟩ | hd
  · cases hdummy
  · exact hd

theorem abandon (h : Marked reg m) : Marked reg.abandon m := by
  refine h.mono rfl fun d nlpid minor hd => ?_
  by_cases hnew : d = reg.nextDev
  · subst hnew
    have hself : reg.abandon.devs reg.nextDev = none := Function.update_self ..
    rw [DummyAt, hself] at hd
    cases hd
  · rw [DummyAt, abandon_of_ne hnew] at hd
    exact hd

theorem registerDummy (h : Marked reg m) {nlpid : Int32} {minor : Nat}
    (hget : m.get nlpid = .ok (some minor, m')) :
    Marked (({ reg with minors := some m' } : Registry).register nlpid true minor) m' := by
  obtain ⟨htaken, -⟩ := (Minors.get_eq hget).2 minor rfl
  have hold := h.get hget
  have hnew : m'.used[minor]? = some nlpid := by
    rw [htaken.used, List.getElem?_set_self]
    exact (List.getElem?_eq_some_iff.mp htaken.free).1
  have hne : ∀ {d nlpid'}, reg.DummyAt d nlpid' minor → nlpid'.toInt32 ≠ -1 → False := fun hd hpid =>
    (Minors.used_of_taken htaken (h.used hd hpid) hpid).1 rfl
  refine ⟨rfl, hold.bounded, fun hd => ?_, fun hd hpid => ?_, fun hd he hpid hpid' => ?_⟩
  · rcases dummyAt_register hd with ⟨-, -, -, rfl⟩ | hd
    · exact Minors.lt_of_used htaken.free
    · exact hold.lt hd
  · rcases dummyAt_register hd with ⟨-, rfl, -, rfl⟩ | hd
    · exact hnew
    · exact hold.used hd hpid
  · rcases dummyAt_register hd with ⟨rfl, -, -, rfl⟩ | hold_d
    · rcases dummyAt_register he with ⟨rfl, -⟩ | hold_e
      · rfl
      · exact (hne hold_e hpid').elim
    · rcases dummyAt_register he with ⟨rfl, -, -, rfl⟩ | hold_e
      · exact (hne hold_d hpid).elim
      · exact hold.distinct hold_d hold_e hpid hpid'

theorem dummyAt_of_live (hd : reg.devs d = some nddata) (hdummy : nddata.dummy = true) :
    reg.DummyAt d nddata.nlpid nddata.minor := by
  rw [DummyAt, hd, ← hdummy]
  rfl

/-- A dummy device is freed, and its entry as well. -/
theorem put (h : Marked reg m) {nlpid : UInt32} {minor : Nat} (hd : reg.DummyAt d nlpid minor)
    (hpid : nlpid.toInt32 ≠ -1) (hput : m.put minor = .ok m') (hminors : reg'.minors = some m')
    (hdevs : ∀ e nlpid minor, reg'.DummyAt e nlpid minor → e ≠ d ∧ reg.DummyAt e nlpid minor) :
    Marked reg' m' ∧ m'.used[minor]? = some (-1) := by
  obtain ⟨m₁, hput', hset, hbound⟩ := Minors.put_ok (h.lt hd) h.bounded
  obtain rfl := Except.ok.inj (hput.symm.trans hput')
  have hlt : minor < m.used.length := m.length.symm ▸ h.lt hd
  refine ⟨⟨hminors, hbound, fun he => h.lt (hdevs _ _ _ he).2, ?_, fun he hx => ?_⟩, ?_⟩
  · intro e nlpid' minor' he hpid'
    obtain ⟨hne, hold⟩ := hdevs _ _ _ he
    have hminor : minor ≠ minor' := by
      rintro rfl
      exact hne (h.distinct hold hd hpid' hpid)
    rw [hset, List.getElem?_set_ne hminor]
    exact h.used hold hpid'
  · exact h.distinct (hdevs _ _ _ he).2 (hdevs _ _ _ hx).2
  · rw [hset, List.getElem?_set_self hlt]

end Marked

/-! ## Unregistration -/

section Found
variable {c : Call} {env : DestroyEnv} {d : DevId} {nddata : NetdevData}

/-- `ndmgm_find_destroy` has changed neither the minors nor a lock before it destroys. -/
theorem found_same : (c.found env d nddata).registry.minors = c.registry.minors ∧
    (c.found env d nddata).registry.stuck = c.registry.stuck ∧ (c.found env d nddata).own = c.own := by
  unfold Call.found
  by_cases hlock : env.findDestroy
  · rw [if_pos hlock]
    exact ⟨rfl, rfl, rfl⟩
  · rw [if_neg hlock]
    exact ⟨rfl, rfl, rfl⟩

theorem found_ident : (nddata.found env).ident = nddata.ident := by
  unfold NetdevData.found
  by_cases hlock : env.findDestroy
  · rw [if_pos hlock]
    rfl
  · rw [if_neg hlock]

theorem dummyAt_found (hd : c.registry.devs d = some nddata) {e : DevId} {nlpid : UInt32} {minor : Nat} :
    (c.found env d nddata).registry.DummyAt e nlpid minor ↔ c.registry.DummyAt e nlpid minor := by
  unfold DummyAt
  by_cases heq : e = d
  · subst heq
    rw [found_live hd, hd, Option.map_some, Option.map_some, found_ident]
  · rw [found_of_ne heq]

theorem locksMinors_found : LocksMinors (c.found env d nddata) env ↔ LocksMinors c env := by
  unfold LocksMinors Ker.Free
  rw [found_same.2.1, found_same.2.2]

end Found

/-- The entry of the minor is free. -/
def Registry.MarksFree (reg : Registry) (minor : Nat) : Prop :=
  ∃ m, reg.minors = some m ∧ m.used[minor]? = some (-1)

section Destroy
variable {c c' : Call} {env : DestroyEnv} {d : DevId} {nddata : NetdevData} {m : Minors}
  {r : Except Halt Int32}

theorem Destroyed.dummyAt (hdestroy : Destroyed c env d nddata r c') (hd : c.registry.devs d = some nddata)
    {e : DevId} {nlpid : UInt32} {minor : Nat} (he : c'.registry.DummyAt e nlpid minor) :
    c.registry.DummyAt e nlpid minor := by
  by_cases heq : e = d
  · subst heq
    have hset : ((c.registry.setDev e nddata.deactivated).devs e).map NetdevData.ident =
        (c.registry.devs e).map NetdevData.ident := by
      rw [setDev_self, hd]
      rfl
    unfold DummyAt at he ⊢
    cases hdestroy with
    | deadlock hfiles hbal hdevs =>
        rw [← hset, ← hdevs]
        exact he
    | busy => exact he
    | kept => exact hset ▸ he
    | fault hdummy hcheck husers hminors hput hreg =>
        rw [← hset, ← hreg]
        exact he
    | freed =>
        rw [freeDev_self] at he
        cases he
  · rw [DummyAt, hdestroy.devs_of_ne heq] at he
    exact he

/-- The marks after `ndmgm_destroy`; a freed dummy device has given its minor back when
the lock was free. -/
theorem Destroyed.marked (hdestroy : Destroyed c env d nddata r c') (h : Marked c.registry m)
    (hd : c.registry.devs d = some nddata) (hpid : nddata.nlpid.toInt32 ≠ -1) :
    (∃ m', Marked c'.registry m') ∧ (nddata.dummy = true → r = .ok 0 →
      (c'.registry.MarksFree nddata.minor ↔ LocksMinors c env)) := by
  have hsub : ∀ e nlpid minor, c'.registry.DummyAt e nlpid minor → c.registry.DummyAt e nlpid minor :=
    fun e nlpid minor he => hdestroy.dummyAt hd he
  have hold : c'.registry.minors = c.registry.minors → ∃ m', Marked c'.registry m' :=
    fun hminors => ⟨m, h.mono hminors hsub⟩
  cases hdestroy with
  | deadlock hfiles hbal hdevs hminors hstuck => exact ⟨hold hminors, fun _ hr => nomatch hr⟩
  | busy => exact ⟨hold rfl, fun _ hr => nomatch hr⟩
  | kept => exact ⟨hold rfl, fun _ hr => nomatch hr⟩
  | fault hdummy hcheck husers hlocks hput hreg => exact ⟨hold (by rw [hreg]; rfl), fun _ hr => nomatch hr⟩
  | @freed minors hcheck husers hdummy hserver =>
      by_cases hdum : nddata.dummy = true
      · have hat := Marked.dummyAt_of_live hd hdum
        by_cases hlocks : LocksMinors c env
        · obtain ⟨m₁, m', hm, hput, rfl⟩ := (hdummy hdum).locked hlocks
          obtain rfl := Option.some.inj (h.minors.symm.trans hm)
          have hgone : ∀ e nlpid minor, DummyAt (({ c.registry.setDev d nddata.deactivated with
              minors := some m' } : Registry).freeDev d) e nlpid minor → e ≠ d := by
            rintro e nlpid minor he rfl
            rw [DummyAt, freeDev_self] at he
            cases he
          obtain ⟨hmarked, hfree⟩ := @Marked.put _ _ _ _ _ h _ _ hat hpid hput rfl
            fun e nlpid minor he => ⟨hgone e nlpid minor he, hsub e nlpid minor he⟩
          exact ⟨⟨m', hmarked⟩, fun _ _ => iff_of_true ⟨m', rfl, hfree⟩ hlocks⟩
        · have hminors := (hdummy hdum).busy hlocks
          refine ⟨hold hminors, fun _ _ => iff_of_false ?_ hlocks⟩
          rintro ⟨m', hm', hfree⟩
          obtain rfl := Option.some.inj ((hminors.trans h.minors).symm.trans hm')
          exact hpid (Option.some.inj ((h.used hat hpid).symm.trans hfree))
      · exact ⟨hold (hserver (Bool.eq_false_of_not_eq_true hdum)), fun hdum' => absurd hdum' hdum⟩

theorem Unregistered.marked {nlpid : Int32} (hr : Unregistered c env nlpid r c') (h : Marked c.registry m) :
    (∃ m', Marked c'.registry m') ∧ ∀ d nddata, c.registry.devs d = some nddata → nddata.dummy = true →
      c'.registry.devs d = none → (c'.registry.MarksFree nddata.minor ↔ LocksMinors c env) := by
  cases hr with
  | unknown => exact ⟨⟨m, h⟩, fun d nddata hd _ hdead => nomatch hd.symm.trans hdead⟩
  | fault hreg =>
      rw [hreg]
      exact ⟨⟨m, h⟩, fun d nddata hd _ hdead => nomatch hd.symm.trans hdead⟩
  | @found e nddata r c' hfind hmem he hpid hfree hdestroy =>
      have hfound : Marked (c.found env e nddata).registry m :=
        h.mono found_same.1 fun _ _ _ hat => (dummyAt_found he).mp hat
      have hnlpid : (nddata.found env).nlpid = nddata.nlpid := congrArg Prod.fst found_ident
      have hdummy : (nddata.found env).dummy = nddata.dummy := congrArg (fun p => p.2.1) found_ident
      have hminor : (nddata.found env).minor = nddata.minor := congrArg (fun p => p.2.2) found_ident
      obtain ⟨hmarked, hfreed⟩ := hdestroy.marked hfound (found_live he) (by
        rw [hnlpid, hpid.2]
        exact hpid.1)
      refine ⟨hmarked, fun d nddata' hd hdum hdead => ?_⟩
      by_cases heq : d = e
      · subst heq
        obtain rfl := Option.some.inj (he.symm.trans hd)
        rw [hdummy, hminor, locksMinors_found] at hfreed
        exact hfreed hdum ((hdestroy.freed_iff (found_live he)).mp hdead)
      · rw [hdestroy.devs_of_ne heq, found_of_ne heq, hd] at hdead
        cases hdead

end Destroy

/-! ## Runs -/

/-- A message keeps the marks. -/
theorem Marked.control {reg : Registry} {m : Minors} (h : Marked reg m) (hwf : reg.Wf) (msg : Control) :
    ∃ m', Marked (msg.after reg) m' := by
  have hstuck : ∀ {reg' : Registry} (stuck : List Sem), (∃ m', Marked reg' m') →
      ∃ m', Marked { reg' with stuck } m' := by
    rintro reg' stuck ⟨m', h'⟩
    exact ⟨m', h'.mono rfl fun _ _ _ hd => hd⟩
  cases msg with
  | regDummy env pid =>
      refine Ker.call_of_wp (P := fun _ reg' => ∃ m', Marked reg' m')
        ((ndmgmCreateDummy_spec (c := ⟨reg, []⟩) env pid).mono fun r c' hr => hstuck _ ?_)
      cases hr with
      | noMinor hminor =>
          cases hminor with
          | got hlock hm hget =>
              obtain rfl := Option.some.inj (h.minors.symm.trans hm)
              exact ⟨_, h.get hget⟩
          | _ => exact ⟨m, h⟩
      | fault hminor =>
          cases hminor with
          | _ => exact ⟨m, h⟩
      | minor hminor hcreated =>
          cases hminor with
          | got hlock hm hget =>
              obtain rfl := Option.some.inj (h.minors.symm.trans hm)
              cases hcreated with
              | noMemory => exact ⟨_, h.get hget⟩
              | failed => exact ⟨_, (h.get hget).abandon⟩
              | created => exact ⟨_, h.registerDummy hget⟩
  | regServer env pid =>
      refine Ker.call_of_wp (P := fun _ reg' => ∃ m', Marked reg' m')
        ((ndmgmCreateServer_spec (c := ⟨reg, []⟩) env pid).mono fun r c' hr => hstuck _ ?_)
      cases hr with
      | failed => exact ⟨m, h⟩
      | created => exact ⟨m, h.registerServer pid⟩
  | unregister env pid =>
      refine Ker.call_of_wp (P := fun _ reg' => ∃ m', Marked reg' m')
        ((ndmgmFindDestroy_spec (c := ⟨reg, []⟩) hwf env pid).mono fun r c' hr => hstuck _ ?_)
      exact (hr.marked h).1

/-- The module is not removed. -/
def Module.Label.Stays : Module.Label → Prop
  | .exit .. => False
  | _ => True

section Runs
variable {hashMin : UInt32 → Fin 32} {reqs : Requests} {ls : List Module.Label} {s s' : Module.State}

theorem marked_run (hrun : ((Module.system hashMin reqs).restrict fun _ l => l.Stays).Run ls s) :
    ∃ m, Marked s.registry m := by
  induction hrun with
  | @init s hs =>
      obtain rfl : s = _ := hs
      refine ⟨.prepare, rfl, Minors.prepare_bounded, ?_, ?_, ?_⟩
      · intro d nlpid minor hd
        cases hd
      · intro d nlpid minor hd
        cases hd
      · intro d e nlpid nlpid' minor hd
        cases hd
  | @step ls l s s' hrun hstep ih =>
      obtain ⟨m, h⟩ := ih
      obtain ⟨leaked, hcounted⟩ := Counted.run hrun.of_restrict
      obtain ⟨hstep, hstays⟩ := hstep
      cases hstep with
      | control => exact h.control hcounted.wf _
      | exit => exact hstays.elim
      | start => exact ⟨m, h⟩
      | @perform reg reg' ts ts' t env op k r hprog hexec =>
          have hframe := exec_frame reg env op
          rw [hexec] at hframe
          exact ⟨m, h.frame hframe⟩
      | @oops reg reg' ts ts' t env op k e hprog hexec =>
          have hframe := exec_frame reg env op
          rw [hexec] at hframe
          exact ⟨m, h.frame hframe⟩
      | finish => exact ⟨m, h⟩

/-- A dummy device that an unregistration frees has its minor marked as free exactly when
`ndmgm_put_minor` meets nobody at the lock of the minors. -/
theorem freed_minor_iff (hrun : ((Module.system hashMin reqs).restrict fun _ l => l.Stays).Run ls s)
    {env : DestroyEnv} {pid : Int32} (hstep : Module.Step s (.control (.unregister env pid)) s')
    {d : DevId} {nddata : NetdevData} (hd : s.registry.devs d = some nddata)
    (hdummy : nddata.dummy = true) (hdead : s'.registry.devs d = none) :
    s'.registry.MarksFree nddata.minor ↔ env.putMinor = true ∧ Sem.minor ∉ s.registry.stuck := by
  obtain ⟨m, h⟩ := marked_run hrun
  obtain ⟨leaked, hcounted⟩ := Counted.run hrun.of_restrict
  cases hstep with
  | control hpid =>
      have hlocks : LocksMinors ⟨s.registry, []⟩ env ↔ env.putMinor = true ∧ Sem.minor ∉ s.registry.stuck :=
        and_congr_right fun _ => and_iff_right List.not_mem_nil
      rw [← hlocks]
      refine Ker.call_of_wp (P := fun _ reg' => reg'.devs d = none →
          (reg'.MarksFree nddata.minor ↔ LocksMinors ⟨s.registry, []⟩ env))
        ((ndmgmFindDestroy_spec (c := ⟨s.registry, []⟩) hcounted.wf env pid).mono fun r c' hr => ?_) hdead
      exact (hr.marked h).2 d nddata hd hdummy

theorem freed_minor_iff_registered :
    ((Control.unregister .all 7).after ((Control.regDummy .all 7).after
      (.prepare Sample.hashMin Sample.requests))).MarksFree 0 ↔
        DestroyEnv.all.putMinor = true ∧ Sem.minor ∉ ((Control.regDummy .all 7).after
          (.prepare Sample.hashMin Sample.requests)).stuck := by
  have prepared : (Sample.system.restrict fun _ l => l.Stays).Run [] _ := .init rfl
  have registered := prepared.step ⟨@Module.Step.control _ (.regDummy .all 7) (by decide), trivial⟩
  exact @freed_minor_iff _ _ _ _ _ registered _ _ (@Module.Step.control _ (.unregister .all 7) (by decide)) 0
    (.registered 7 true 0) rfl rfl rfl

/-- Process 3 is in `ndmgm_find_pid` of its open when the device of the daemon 7 is freed. -/
theorem freed_minor_taken : ∃ ls s s' env d nddata,
    (Sample.system.restrict fun _ l => l.Stays).Run ls s ∧
    Module.Step s (.control (.unregister env 7)) s' ∧ s.registry.devs d = some nddata ∧
    nddata.dummy = true ∧ s'.registry.devs d = none ∧ ¬ s'.registry.MarksFree nddata.minor := by
  have prepared : (Sample.system.restrict fun _ l => l.Stays).Run [] _ := .init rfl
  have registered := prepared.step ⟨@Module.Step.control _ (.regDummy .all 7) (by decide), trivial⟩
  have opening := registered.step
    ⟨@Module.Step.start _ (.open 0 3 0) ⟨0, .registered 7 true 0, rfl, rfl, rfl⟩, trivial⟩
  refine ⟨_, _, _, { DestroyEnv.all with putMinor := false }, 0, .registered 7 true 0, opening,
    @Module.Step.control _ (.unregister _ 7) (by decide), rfl, rfl, rfl, ?_⟩
  rintro ⟨m, hm, hfree⟩
  obtain rfl := Option.some.inj hm
  exact absurd hfree (by decide)

end Runs

end Netdev.Kernel
