-- SUMMARY: When a device is freed nobody uses it, unless the counter passes its test with one reference too many.
import Netdev.Kernel.Frame
import Netdev.Kernel.Register
import Netdev.Kernel.SectionCounts

/-!
# Freed devices

`ndmgm_destroy` frees a device whose counter is at most one. The reference of the
table is dropped before, so that the one which is left belongs to a user; and between
the comparison and the end of the device others can take references.
-/

namespace Netdev.Kernel
open Base Registry

variable {d : DevId} {nddata : NetdevData}

/-! ## What an operation does to a device -/

/-- The counter of `d` does not grow, and `d` is not freed unless `freed`. -/
structure Registry.Wears (reg reg' : Registry) (d : DevId) (freed : Prop) : Prop where
  nextDev : reg.nextDev ≤ reg'.nextDev
  users : ∀ x', reg'.devs d = some x' → ∃ x, reg.devs d = some x ∧ x'.users ≤ x.users
  live : reg'.devs d = none → reg.devs d = none ∨ freed

namespace Registry.Wears
variable {reg reg' reg'' : Registry} {freed : Prop}

/-- Changes of other memory. -/
theorem of_eq (hdevs : reg'.devs d = reg.devs d) (hnext : reg.nextDev ≤ reg'.nextDev) : reg.Wears reg' d freed :=
  ⟨hnext, fun x' hx => ⟨x', hdevs ▸ hx, le_rfl⟩, fun hnone => .inl (hdevs ▸ hnone)⟩

theorem refl (reg : Registry) : reg.Wears reg d freed := of_eq rfl le_rfl

theorem trans (h : reg.Wears reg' d freed) (h' : reg'.Wears reg'' d freed) : reg.Wears reg'' d freed where
  nextDev := h.nextDev.trans h'.nextDev
  users x'' hx'' := by
    obtain ⟨x', hx', hle'⟩ := h'.users x'' hx''
    obtain ⟨x, hx, hle⟩ := h.users x' hx'
    exact ⟨x, hx, hle'.trans hle⟩
  live hnone := (h'.live hnone).elim h.live .inr

theorem setDev {e : DevId} {x x' : NetdevData} (he : reg.devs e = some x) (husers : x'.users ≤ x.users) :
    reg.Wears (reg.setDev e x') d freed := by
  by_cases heq : d = e
  · subst heq
    refine ⟨le_rfl, fun y hy => ?_, fun hnone => nomatch (setDev_self _ _).symm.trans hnone⟩
    obtain rfl := Option.some.inj ((setDev_self _ _).symm.trans hy)
    exact ⟨x, he, husers⟩
  · exact of_eq (setDev_of_ne _ _ heq) le_rfl

theorem freeDev (reg : Registry) (e : DevId) : reg.Wears (reg.freeDev e) d (d = e) := by
  by_cases heq : d = e
  · subst heq
    exact ⟨le_rfl, fun y hy => (nomatch (freeDev_self _).symm.trans hy), fun _ => .inr rfl⟩
  · exact of_eq (freeDev_of_ne _ heq) le_rfl

theorem imp {freed' : Prop} (h : reg.Wears reg' d freed) (hfreed : freed → freed') : reg.Wears reg' d freed' :=
  ⟨h.nextDev, h.users, fun hnone => (h.live hnone).imp_right hfreed⟩

end Registry.Wears

section Operations
variable {c : Call} {freed : Prop}

theorem Looks.wears {α : Type} {Q : α → Prop} {r : Except Halt α} {c' : Call} (h : Looks c Q r c') :
    c.registry.Wears c'.registry d freed := by
  cases r with
  | ok a => exact h.1 ▸ .refl _
  | error e => exact .of_eq (congrFun (congrArg devs h.2) d) (congrArg nextDev h.2).ge

theorem ndmgmPut_wears (e : DevId) :
    Exec.wp (ndmgmPut e) (fun _ c' => c.registry.Wears c'.registry d freed) c := by
  refine Ker.wp_dev (fun x hx => ?_) (fun _ => .refl _)
  exact .setDev hx (Int.sub_le_self _ Int.one_nonneg)

theorem unhash_put_wears (e : DevId) :
    Exec.wp (ndmgmPut e) (fun _ c' => c.registry.Wears c'.registry d freed) ⟨c.registry.unhash e, c.own⟩ := by
  have hunhash : c.registry.Wears (c.registry.unhash e) d freed := .of_eq rfl le_rfl
  exact (ndmgmPut_wears e).mono fun _ _ hr => hunhash.trans hr

theorem foAccDestroy_wears (acc : AccRef) :
    Exec.wp (foAccDestroy acc) (fun _ c' => c.registry.Wears c'.registry d freed) c := by
  refine Ker.wp_acc (fun _ _ => ?_) (fun _ => .refl _)
  refine Ker.wp_dev (fun _ _ => ?_) (fun _ => .refl _)
  refine Ker.wp_downWrite (fun _ => ?_) (fun _ => .refl _) (fun _ _ => .refl _)
  refine Ker.wp_dev (fun x hx => ?_) (fun _ => .refl _)
  refine Ker.wp_modify (wp_ndmgmPut (setDev_self _ _) (Ker.wp_up ?_))
  have hfiles : c.registry.Wears (c.registry.setDev acc.nddata
      { x with foaccHtable := x.foaccHtable.del acc }) d freed := .setDev hx le_rfl
  refine (hfiles.trans (.setDev (setDev_self _ _) ?_)).trans (.of_eq rfl le_rfl)
  exact Int.sub_le_self _ Int.one_nonneg

theorem freeQueue_wears (acc : AccRef) :
    Exec.wp (freeQueue acc) (fun _ c' => c.registry.Wears c'.registry d freed) c := by
  refine Ker.wp_acc (fun data _ => Ker.wp_registry ?_) (fun _ => .refl _)
  cases foAccFreeQueue data.queue c.registry.reqs with
  | none => exact .refl _
  | some r => exact Ker.wp_modify (Ker.wp_modify (.of_eq rfl le_rfl))

theorem GotMinor.wears {free : Bool} {pid : Int32} {r : Except Halt (Option Nat)} {c' : Call}
    (h : GotMinor c free pid r c') : c.registry.Wears c'.registry d freed :=
  .of_eq (congrFun h.devs d) h.nextDev.ge

theorem ServerCreated.wears {env : CreateEnv} {nlpid : Int32} {r : Except Halt Int32} {c' : Call}
    (h : ServerCreated c env nlpid r c') (hd : d < c.registry.nextDev) : c.registry.Wears c'.registry d freed := by
  refine .of_eq (h.devs_of_ne (Nat.ne_of_lt hd)) ?_
  cases h with
  | failed => exact le_rfl
  | created => exact Nat.le_succ _

theorem DummyCreated.wears {env : CreateEnv} {nlpid : Int32} {minor : Nat} {r : Except Halt Int32} {c' : Call}
    (h : DummyCreated c env nlpid minor r c') (hd : d < c.registry.nextDev) :
    c.registry.Wears c'.registry d freed := by
  cases h with
  | noMemory => exact .refl _
  | failed => exact .of_eq (abandon_of_ne (Nat.ne_of_lt hd)) (Nat.le_succ _)
  | created => exact .of_eq (register_of_ne (Nat.ne_of_lt hd)) (Nat.le_succ _)

/-- An operation of a message takes no reference to a device that exists, and one of them frees it. -/
theorem MgmOp.exec_wears (hd : d < c.registry.nextDev) (env : MgmEnv) (op : MgmOp) :
    Exec.wp (op.exec env) (fun _ c' => c.registry.Wears c'.registry d (op = .free d)) c := by
  have hlock : ∀ sem, Exec.wp (Ker.downTrylock sem env.free)
      (fun _ c' => c.registry.Wears c'.registry d False) c := fun sem =>
    (downTrylock_registry sem env.free).mono fun _ _ hr => by
      rw [hr]
      exact .refl _
  have hdev : ∀ {α : Type} (e : DevId) (f : NetdevData → α),
      Exec.wp (Ker.dev e >>= fun x => (return f x : Ker α)) (fun _ c' => c.registry.Wears c'.registry d False) c :=
    fun e f => Ker.wp_dev (fun _ _ => .refl _) (fun _ => .refl _)
  cases op with
  | getMinor pid => exact (ndmgmGetMinor_spec env.free pid).mono fun _ _ hr => hr.wears
  | publishDummy nlpid minor => exact (publishDummy_spec env.create nlpid minor).mono fun _ _ hr => hr.wears hd
  | publishServer nlpid => exact (ndmgmCreateServer_spec env.create nlpid).mono fun _ _ hr => hr.wears hd
  | find nlpid => exact (ndmgmFind_looks env.free nlpid).mono fun _ _ hr => hr.wears
  | unlink e =>
      refine Ker.wp_downTrylock (fun _ _ => Ker.wp_modify ?_) (fun _ => .refl _)
      refine Exec.wp_bind (@unhash_put_wears d ⟨c.registry, .htable :: c.own⟩ (MgmOp.unlink e = .free d) e) ?_ ?_
      · exact fun _ _ hr => hr
      · exact fun _ _ hr => hr
  | dummy e => exact (hdev e _).mono fun _ _ hr => hr.imp False.elim
  | lockDev e => exact (hlock _).mono fun _ _ hr => hr.imp False.elim
  | lockFiles e => exact (hlock _).mono fun _ _ hr => hr.imp False.elim
  | lockTable => exact (hlock _).mono fun _ _ hr => hr.imp False.elim
  | up sem => exact Wears.refl _
  | deactivate e => exact Ker.wp_dev (fun _ hx => .setDev hx le_rfl) (fun _ => .refl _)
  | files e => exact Ker.wp_dev (fun _ _ => .refl _) (fun _ => .refl _)
  | unhash e => exact .of_eq rfl le_rfl
  | freeQueue acc => exact freeQueue_wears acc
  | accDestroy acc => exact foAccDestroy_wears acc
  | refs e => exact (hdev e _).mono fun _ _ hr => hr.imp False.elim
  | putMinor e =>
      refine Ker.wp_dev (fun x _ => ?_) (fun _ => .refl _)
      refine (@ndmgmPutMinor_spec _ { DestroyEnv.all with putMinor := env.free } x.minor).mono ?_
      rintro r c' (⟨minors, -, -, rfl⟩ | ⟨-, -, -, hreg⟩)
      · exact .of_eq rfl le_rfl
      · rw [hreg]
        exact .refl _
  | free e =>
      refine Ker.wp_dev (fun _ _ => ?_) (fun _ => .refl _)
      exact (Wears.freeDev c.registry e).imp fun heq => heq ▸ rfl
  | devices => exact Wears.refl _
  | take e => exact Ker.wp_modify (unhash_put_wears e)
  | freeMinors => exact .of_eq rfl le_rfl

/-- The operations of a task that take a reference. -/
def FoOp.Takes (op : FoOp) (d : DevId) : Prop := op = .get (some d) ∨ ∃ pid, op = .accStart (some d) pid

theorem FoOp.exec_wears (env : FoEnv) (op : FoOp) (htakes : op.Takes d → c.registry.devs d = none) :
    Exec.wp (op.exec env) (fun _ c' => c.registry.Wears c'.registry d False) c := by
  cases op with
  | enter => exact Wears.refl _
  | findPid minor => exact (ndmgmFindPid_looks env.free minor).mono fun _ _ hr => hr.wears
  | find nlpid => exact (ndmgmFind_looks env.free nlpid).mono fun _ _ hr => hr.wears
  | get nddata =>
      cases nddata with
      | none => exact .refl _
      | some e =>
          refine Ker.wp_dev (fun x hx => ?_) (fun _ => .refl _)
          have hne : d ≠ e := by
            rintro rfl
            exact nomatch (htakes (.inl rfl)).symm.trans hx
          exact .of_eq (setDev_of_ne _ _ hne) le_rfl
  | put e => exact ndmgmPut_wears e
  | findAcc e accessId => exact (ndmgmFindAcc_looks env.free e accessId).mono fun _ _ hr => hr.wears
  | accStart nddata pid =>
      cases nddata with
      | none => exact .refl _
      | some e =>
          refine Exec.wp_ite (fun _ => .refl _) (fun _ => ?_)
          refine Ker.wp_dev (fun nddata hx => ?_) (fun _ => .refl _)
          have hne : d ≠ e := by
            rintro rfl
            exact nomatch (htakes (.inr ⟨pid, rfl⟩)).symm.trans hx
          refine Exec.wp_ite (fun _ => .refl _) (fun _ => ?_)
          refine Ker.wp_downTrylock (fun _ _ => ?_) (fun _ => .refl _)
          refine Ker.wp_registry (Ker.wp_modify (Ker.wp_modify (Ker.wp_modify ?_)))
          refine wp_ndmgmGet (setDev_self _ _) (Ker.wp_up ?_)
          exact .of_eq ((setDev_of_ne _ _ hne).trans (setDev_of_ne _ _ hne)) le_rfl
  | accDestroy acc => exact foAccDestroy_wears acc
  | dummy e => exact Ker.wp_dev (fun _ _ => .refl _) (fun _ => .refl _)
  | active acc =>
      refine Ker.wp_acc (fun _ _ => ?_) (fun _ => .refl _)
      exact Ker.wp_dev (fun _ _ => .refl _) (fun _ => .refl _)
  | newReq acc call =>
      refine Ker.wp_acc (fun _ _ => ?_) (fun _ => .refl _)
      refine Ker.wp_dev (fun _ _ => ?_) (fun _ => .refl _)
      cases env.addr with
      | none => exact .refl _
      | some p => exact .of_eq rfl le_rfl
  | foreqAdd acc req => exact Ker.wp_acc (fun _ _ => .of_eq rfl le_rfl) (fun _ => .refl _)
  | kzalloc => exact Wears.refl _
  | incseq e => exact Ker.wp_dev (fun _ hx => .setDev hx le_rfl) (fun _ => .refl _)
  | setSeq req seq => exact .of_eq rfl le_rfl
  | netlinkSend e => exact Ker.wp_dev (fun _ _ => .refl _) (fun _ => .refl _)
  | wait req => exact Ker.wp_registry (Exec.wp_ite (fun _ => .refl _) (fun _ => .refl _))
  | freeReq acc req =>
      refine Ker.wp_acc (fun _ _ => ?_) (fun _ => .refl _)
      refine Ker.wp_dev (fun _ _ => ?_) (fun _ => .refl _)
      exact Ker.wp_deref (fun _ _ => .refl _) (fun _ => .refl _)
  | foreqFind acc seq =>
      refine Ker.wp_acc (fun data _ => Ker.wp_registry ?_) (fun _ => .refl _)
      cases foAccForeqFind env.free c.registry.reqs data.queue seq with
      | none => exact .refl _
      | some found => exact .of_eq rfl le_rfl
  | deserializeToreq req data =>
      exact Ker.wp_registry (Ker.wp_ofMem (fun _ _ => .of_eq rfl le_rfl) (.refl _))
  | complete req => exact .of_eq rfl le_rfl
  | execute acc nlh =>
      refine Ker.wp_acc (fun _ _ => ?_) (fun _ => .refl _)
      refine Ker.wp_dev (fun _ _ => ?_) (fun _ => .refl _)
      exact Ker.wp_ofMem (fun _ _ => .of_eq rfl le_rfl) (.refl _)

end Operations

/-! ## What is known after the comparison -/

/-- The counter of a device that exists has fallen to zero. -/
def Registry.Spent (reg : Registry) (d : DevId) : Prop :=
  d < reg.nextDev ∧ ∀ x, reg.devs d = some x → x.users ≤ 0

theorem Registry.Spent.wears {reg reg' : Registry} {freed : Prop} (h : reg.Spent d)
    (hwears : reg.Wears reg' d freed) : reg'.Spent d := by
  refine ⟨h.1.trans_le hwears.nextDev, fun x' hx' => ?_⟩
  obtain ⟨x, hx, hle⟩ := hwears.users x' hx'
  exact hle.trans (h.2 x hx)

namespace Sections

/-- How `Caller.past` changes. -/
abbrev track : Prog.Env MgmI (Option DevId) := fun past e past' => past' = (passed e).or past

section Programs
variable {α : Type} {past : Option DevId}

/-- The program frees no device but the one whose counter has passed its test last. -/
abbrev Frees (prog : MgmM α) (past : Option DevId) : Prop :=
  prog.meets track (fun past op => ∀ d, op = .free d → past = some d) (fun _ _ => True) past

theorem frees_call {op : MgmOp} {k : op.Res → MgmM α} (hfree : ∀ d, op = .free d → past = some d)
    (hk : ∀ r, Frees (k r) ((passed ⟨op, r⟩).or past)) : Frees (.call op k) past := by
  refine ⟨hfree, fun r past' hpast => ?_⟩
  rw [hpast]
  exact hk r

theorem frees_ret (a : α) : Frees (.ret a) past := trivial

theorem destroyAccs_frees (d : DevId) (accs : List AccRef) : Frees (destroyAccs d accs) past := by
  induction accs with
  | nil => exact frees_call nofun fun _ => frees_ret _
  | cons acc accs ih =>
      refine frees_call nofun fun _ => ?_
      refine frees_call nofun fun n => ?_
      refine Prog.meets_ite (fun _ => frees_ret _) (fun _ => ?_)
      exact frees_call nofun fun _ => ih

theorem ndmgmDestroyAllacc_frees (d : DevId) : Frees (ndmgmDestroyAllacc d) past := by
  refine frees_call nofun fun taken => ?_
  refine Prog.meets_ite (fun _ => ?_) (fun _ => frees_ret _)
  exact frees_call nofun fun accs => destroyAccs_frees d accs

/-- The end of a destructor, whose counter has passed its test. -/
theorem passed_refs {d : DevId} {n : Int} (hn : ¬ n > 1) : (passed ⟨.refs d, n⟩).or past = some d := by
  rw [show passed ⟨.refs d, n⟩ = some d from if_pos (Int.not_lt.mp hn)]
  rfl

theorem frees_free (d : DevId) (rvalue : Int32) :
    Frees (mgm (.free d) >>= fun _ => (return rvalue : MgmM Int32)) (some d) := by
  refine frees_call (fun e he => ?_) fun _ => frees_ret _
  cases he
  rfl

theorem ndmgmDestroyDummy_frees (d : DevId) : Frees (ndmgmDestroyDummy d) past := by
  refine frees_call nofun fun taken => ?_
  refine Prog.meets_ite (fun _ => ?_) (fun _ => frees_ret _)
  refine frees_call nofun fun _ => ?_
  change Frees (ndmgmDestroyAllacc d >>= _) _
  refine Prog.meets_bind (ndmgmDestroyAllacc_frees d) fun n past' _ => ?_
  refine Prog.meets_ite (fun _ => frees_call nofun fun _ => frees_ret _) (fun _ => ?_)
  refine frees_call nofun fun n => ?_
  refine Prog.meets_ite (fun _ => frees_call nofun fun _ => frees_ret _) (fun hn => ?_)
  rw [passed_refs hn]
  refine frees_call nofun fun _ => ?_
  refine frees_call nofun fun _ => ?_
  exact frees_free d 0

theorem ndmgmDestroyServer_frees (d : DevId) : Frees (ndmgmDestroyServer d) past := by
  refine frees_call nofun fun taken => ?_
  refine Prog.meets_ite (fun _ => ?_) (fun _ => frees_ret _)
  refine frees_call nofun fun _ => ?_
  refine frees_call nofun fun n => ?_
  refine Prog.meets_ite (fun _ => frees_call nofun fun _ => frees_ret _) (fun hn => ?_)
  rw [passed_refs hn]
  refine frees_call nofun fun _ => ?_
  exact frees_free d 0

theorem ndmgmDestroy_frees (d : DevId) : Frees (ndmgmDestroy d) past := by
  refine frees_call nofun fun dummy => ?_
  exact Prog.meets_ite (fun _ => ndmgmDestroyDummy_frees d) (fun _ => ndmgmDestroyServer_frees d)

theorem endDevs_frees (ds : List DevId) : Frees (endDevs ds) past := by
  induction ds generalizing past with
  | nil => exact frees_ret _
  | cons d ds ih =>
      refine frees_call nofun fun _ => ?_
      change Frees (ndmgmDestroy d >>= _) _
      exact Prog.meets_bind (ndmgmDestroy_frees d) fun _ _ _ => ih

theorem Callee.prog_frees (callee : Callee) : Frees callee.prog past := by
  cases callee with
  | createDummy pid =>
      refine frees_call nofun fun minor => ?_
      cases minor with
      | none => exact frees_ret _
      | some minor => exact frees_call nofun fun _ => frees_ret _
  | createServer pid => exact frees_call nofun fun _ => frees_ret _
  | findDestroy pid =>
      refine frees_call nofun fun nddata => ?_
      cases nddata with
      | none => exact frees_ret _
      | some d => exact frees_call nofun fun _ => ndmgmDestroy_frees d
  | moduleEnd =>
      refine frees_call nofun fun taken => ?_
      refine Prog.meets_ite (fun _ => ?_) (fun _ => frees_ret _)
      refine frees_call nofun fun ds => ?_
      change Frees (endDevs ds >>= _) _
      refine Prog.meets_bind (endDevs_frees ds) fun _ _ _ => ?_
      refine frees_call nofun fun _ => ?_
      exact frees_call nofun fun _ => frees_ret _

end Programs

/-- What a message has compared, and what it will free. -/
structure Caller.Careful (reg : Registry) (c : Caller) : Prop where
  frees : Frees c.prog c.past
  spent : ∀ d, c.past = some d → reg.Spent d

/-- Whenever a counter is compared, it is not one: that is a reference of a user, or of the
table. While a device whose counter has passed the test still exists, nobody takes a
reference to it. -/
def Guarded (s : State) : Label → Prop
  | .task (.perform n _) => ∀ t op k d, s.threads[n]? = some t → t.prog = .call op k → op.Takes d →
      s.registry.devs d ≠ none → ∀ c ∈ s.callers, c.past ≠ some d
  | .perform n env => Linked s (.perform n env) ∧
      ∀ c op k d x, s.callers[n]? = some c → c.prog = .call op k → op = .refs d →
        s.registry.devs d = some x → x.users ≠ 1
  | _ => True

theorem Guarded.linked {s : State} {l : Label} (h : Guarded s l) : Linked s l := by
  cases l with
  | perform n env => exact h.1
  | _ => trivial

/-- An operation of a task, as the messages see it. -/
theorem task_wears {reg reg' : Registry} {env : FoEnv} {op : FoOp} {r : Except Halt op.Res}
    (hexec : Ker.call (op.exec env) reg = (r, reg')) (htakes : op.Takes d → reg.devs d = none) :
    reg.Wears reg' d False := by
  have hwears := Ker.call_of_wp (P := fun _ reg' => reg.Wears reg' d False)
    ((FoOp.exec_wears (c := ⟨reg, []⟩) env op htakes).mono fun _ _ h => h.trans (.of_eq rfl le_rfl))
  rwa [hexec] at hwears

/-- An operation of a message, as the others see it. -/
theorem message_wears {reg : Registry} {c : Caller} {c' : Call} {env : MgmEnv} {op : MgmOp}
    {r : Except Halt op.Res} (hexec : op.exec env (c.enter reg) = (r, c')) (hd : d < reg.nextDev) :
    reg.Wears (settle c') d (op = .free d) := by
  have hwears := MgmOp.exec_wears (c := c.enter reg) hd env op
  rw [Exec.wp, hexec] at hwears
  have henter : reg.Wears (c.enter reg).registry d (op = .free d) := .of_eq rfl le_rfl
  exact (henter.trans hwears).trans (.of_eq rfl le_rfl)

/-- What `ndmgm_refs` answers. -/
theorem refs_users {reg : Registry} {c : Caller} {c' : Call} {env : MgmEnv} {e : DevId} {n : Int}
    (hexec : (MgmOp.refs e).exec env (c.enter reg) = (.ok n, c')) :
    ∃ x, reg.devs e = some x ∧ x.users = n ∧ c' = c.enter reg := by
  have hrefs : Exec.wp (ndmgmRefs e) (fun r c' => ∀ n, r = .ok n →
      ∃ x, reg.devs e = some x ∧ x.users = n ∧ c' = c.enter reg) (c.enter reg) :=
    Ker.wp_dev (fun x hx n hn => ⟨x, hx, Except.ok.inj hn, rfl⟩) nofun
  change Exec.wp ((MgmOp.refs e).exec env) _ _ at hrefs
  rw [Exec.wp, hexec] at hrefs
  exact hrefs n rfl

/-- A device whose counter has just passed its test. -/
theorem spent_of_passed {reg : Registry} (hwf : reg.Wf) {c : Caller} {c' : Call} {env : MgmEnv} {op : MgmOp}
    {r : op.Res} (hexec : op.exec env (c.enter reg) = (.ok r, c'))
    (hguard : ∀ d x, op = .refs d → reg.devs d = some x → x.users ≠ 1)
    (hpassed : passed ⟨op, r⟩ = some d) : (settle c').Spent d := by
  cases op with
  | refs e =>
      change (if r ≤ (1 : Int) then some e else none) = some d at hpassed
      by_cases hle : r ≤ (1 : Int)
      · rw [if_pos hle] at hpassed
        obtain rfl : e = d := Option.some.inj hpassed
        obtain ⟨x, hx, husers, rfl⟩ := refs_users hexec
        have hne := hguard e x rfl hx
        have hone : x.users ≤ 1 := husers ▸ hle
        refine ⟨hwf.devs_lt e (hx.trans_ne (Option.some_ne_none _)), fun y hy => ?_⟩
        obtain rfl : x = y := Option.some.inj (hx.symm.trans hy)
        omega
      · rw [if_neg hle] at hpassed
        exact nomatch hpassed
  | _ => exact nomatch hpassed

/-- The call that has performed an operation. -/
theorem Caller.Careful.next {reg : Registry} (hwf : reg.Wf) {c : Caller} {c' : Call} {env : MgmEnv} {op : MgmOp}
    {k : op.Res → MgmM Int32} {r : op.Res} (h : c.Careful reg) (hprog : c.prog = .call op k)
    (hexec : op.exec env (c.enter reg) = (.ok r, c'))
    (hguard : ∀ d x, op = .refs d → reg.devs d = some x → x.users ≠ 1) :
    (c.next ⟨op, r⟩ (k r) c'.own).Careful (settle c') := by
  refine ⟨?_, fun d hpast => ?_⟩
  · have hfrees := h.frees
    rw [hprog] at hfrees
    exact hfrees.2 r _ rfl
  · change (passed ⟨op, r⟩).or c.past = some d at hpast
    cases hpassed : passed ⟨op, r⟩ with
    | none =>
        rw [hpassed] at hpast
        have hspent := h.spent d hpast
        exact hspent.wears (message_wears hexec hspent.1)
    | some e =>
        rw [hpassed] at hpast
        obtain rfl : e = d := Option.some.inj hpast
        exact spent_of_passed hwf hexec hguard hpassed

/-- Others. -/
theorem Caller.Careful.wears {reg reg' : Registry} {c : Caller} (h : c.Careful reg) {freed : DevId → Prop}
    (hwears : ∀ d, c.past = some d → d < reg.nextDev → reg.Wears reg' d (freed d)) : c.Careful reg' :=
  ⟨h.frees, fun d hpast => (h.spent d hpast).wears (hwears d hpast (h.spent d hpast).1)⟩

/-- Every call is careful in a run whose steps are guarded. -/
theorem careful_step {s s' : State} {l : Label} {leaked : DevId → Int} (hcounted : Counted False s.tasks leaked)
    (h : ∀ c ∈ s.callers, c.Careful s.registry) (hstep : Step s l s') (hguard : Guarded s l) :
    ∀ c ∈ s'.callers, c.Careful s'.registry := by
  cases hstep with
  | @task reg reg' ts ts' cs l hl hstep =>
      cases hstep with
      | control => exact hl.elim
      | exit => exact hl.elim
      | start henabled => exact h
      | @perform _ _ ts₁ ts₂ t env op k r hprog hexec =>
          intro c hc
          refine (h c hc).wears fun d hpast _ => task_wears hexec fun htakes => ?_
          by_contra hlive
          exact hguard t op k d (by simp) hprog htakes hlive c hc hpast
      | @oops _ _ ts₁ ts₂ t env op k e hprog hexec he =>
          intro c hc
          refine (h c hc).wears fun d hpast _ => task_wears hexec fun htakes => ?_
          by_contra hlive
          exact hguard t op k d (by simp) hprog htakes hlive c hc hpast
      | finish hprog => exact h
  | @call s callee henabled =>
      intro c hc
      rcases List.mem_cons.mp hc with rfl | hmem
      · exact ⟨callee.prog_frees, nofun⟩
      · exact h c hmem
  | @perform reg ts cs cs' caller env op k r c' hprog hexec =>
      have hget : (cs ++ caller :: cs')[cs.length]? = some caller := by simp
      have hothers : ∀ c ∈ cs ++ caller :: cs', c.Careful (settle c') := fun c hc =>
        (h c hc).wears fun d _ hd => message_wears hexec hd
      intro c hc
      rcases List.mem_append.mp hc with hmem | hmem
      · exact hothers c (List.mem_append_left _ hmem)
      · rcases List.mem_cons.mp hmem with rfl | hmem
        · exact (h caller (by simp)).next hcounted.wf hprog hexec fun d x hop hx =>
            hguard.2 caller op k d x hget hprog hop hx
        · exact hothers c (List.mem_append_right _ (List.mem_cons_of_mem _ hmem))
  | @oops reg ts cs cs' caller env op k c' hprog hexec =>
      intro c hc
      have hmem : c ∈ cs ++ caller :: cs' := by
        rcases List.mem_append.mp hc with hmem | hmem
        · exact List.mem_append_left _ hmem
        · exact List.mem_append_right _ (List.mem_cons_of_mem _ hmem)
      exact (h c hmem).wears fun d _ hd => message_wears hexec hd
  | @«return» reg ts cs cs' caller rvalue hprog =>
      intro c hc
      rcases List.mem_append.mp hc with hmem | hmem
      · exact h c (List.mem_append_left _ hmem)
      · exact h c (List.mem_append_right _ (List.mem_cons_of_mem _ hmem))

theorem careful_run {hashMin : UInt32 → Fin 32} {reqs : Requests} {ls : List Label} {s : State}
    (hrun : ((system hashMin reqs).restrict Guarded).Run ls s) :
    (∃ leaked, Counted False s.tasks leaked) ∧ ∀ c ∈ s.callers, c.Careful s.registry := by
  refine ⟨@Counted.section_run False _ _ _ _ _ hrun (fun _ _ h => h.linked) False.elim, ?_⟩
  induction hrun with
  | init hs =>
      rw [hs]
      exact fun c hc => (List.not_mem_nil hc).elim
  | step hrun hstep ih =>
      obtain ⟨leaked, h⟩ := @Counted.section_run False _ _ _ _ _ hrun (fun _ _ h => h.linked) False.elim
      exact careful_step h ih hstep.1 hstep.2

/-- A step of a message that meets the conditions, from the state that a run has reached. -/
theorem guarded_next {hashMin : UInt32 → Fin 32} {reqs : Requests} {reg : Registry} {ts : List Thread}
    {cs cs' : List Caller} {c : Caller} {env : MgmEnv} {op : MgmOp} {k : op.Res → MgmM Int32} {r : op.Res}
    {c' : Call} {ls : List Label}
    (_ : ((system hashMin reqs).restrict Guarded).Run ls ⟨reg, ts, cs ++ c :: cs'⟩) (hprog : c.prog = .call op k)
    (hexec : op.exec env (c.enter reg) = (.ok r, c')) (hlinked : op.Linked env (c.enter reg))
    (hrefs : ∀ d x, op = .refs d → reg.devs d = some x → x.users ≠ 1) :
    ((system hashMin reqs).restrict Guarded).step ⟨reg, ts, cs ++ c :: cs'⟩ (.perform cs.length env)
      ⟨settle c', ts, cs ++ c.next ⟨op, r⟩ (k r) c'.own :: cs'⟩ := by
  have hmid : (cs ++ c :: cs')[cs.length]? = some c := by simp
  refine ⟨.perform hprog hexec, fun c₁ op₁ k₁ hget hprog₁ => ?_, fun c₁ op₁ k₁ d x hget hprog₁ hop hx => ?_⟩
  · obtain rfl : c = c₁ := Option.some.inj (hmid.symm.trans hget)
    cases hprog.symm.trans hprog₁
    exact hlinked
  · obtain rfl : c = c₁ := Option.some.inj (hmid.symm.trans hget)
    cases hprog.symm.trans hprog₁
    exact hrefs d x hop hx

end Sections

/-! ## Freed devices are not used -/

/-- Nobody uses a device that the step from `s` to `s'` frees. -/
structure Unused (s s' : Sections.State) (d : DevId) (nddata : NetdevData) : Prop where
  files : nddata.foaccHtable.values = []
  tasks : ∀ t ∈ s.threads, t.held d = 0
  table : d ∉ s'.registry.netdevHtable.values

/-- A counter of zero has no references. -/
theorem Counted.unused {sound : Prop} {s : Module.State} {leaked : DevId → Int}
    (h : Counted sound s leaked) (hd : s.registry.devs d = some nddata) (husers : nddata.users ≤ 0) :
    nddata.foaccHtable.values = [] ∧ (∀ t ∈ s.threads, t.held d = 0) ∧ d ∉ s.registry.netdevHtable.values := by
  have hsurplus := h.surplus d nddata hd
  have hleaked : 0 ≤ leaked d := h.nonneg d
  have hheld := heldBy_nonneg h.proper d
  by_cases hmem : d ∈ s.registry.netdevHtable.values
  · rw [Registry.surplus, references, if_pos hmem] at hsurplus
    omega
  · rw [Registry.surplus, references, if_neg hmem] at hsurplus
    refine ⟨List.length_eq_zero_iff.mp (by omega), fun t ht => ?_, hmem⟩
    exact held_eq_zero h.proper (by omega) ht

namespace Sections

/-- The operation of a message that frees a device. -/
theorem freed_message {reg : Registry} {ts : List Thread} {leaked : DevId → Int}
    (h : Counted False ⟨reg, ts⟩ leaked) {c : Caller} {c' : Call} {env : MgmEnv} {op : MgmOp}
    {k : op.Res → MgmM Int32} {r : Except Halt op.Res} (hcareful : c.Careful reg) (hprog : c.prog = .call op k)
    (hexec : op.exec env (c.enter reg) = (r, c')) (hd : reg.devs d = some nddata)
    (hdead : (settle c').devs d = none) :
    nddata.foaccHtable.values = [] ∧ (∀ t ∈ ts, t.held d = 0) ∧ d ∉ (settle c').netdevHtable.values := by
  have hlt : d < reg.nextDev := h.wf.devs_lt d (hd.trans_ne (Option.some_ne_none _))
  have hop : op = .free d := by
    rcases (message_wears hexec hlt).live hdead with hnone | hop
    · exact nomatch hd.symm.trans hnone
    · exact hop
  subst hop
  have hfrees := hcareful.frees
  rw [hprog] at hfrees
  obtain ⟨hfiles, htasks, htable⟩ := h.unused hd ((hcareful.spent d (hfrees.1 d rfl)).2 nddata hd)
  refine ⟨hfiles, htasks, ?_⟩
  have hsame : Exec.wp (freeData d) (fun _ c' => c'.registry.netdevHtable = reg.netdevHtable) (c.enter reg) :=
    Ker.wp_dev (fun _ _ => rfl) (fun _ => rfl)
  change Exec.wp ((MgmOp.free d).exec env) _ _ at hsame
  rw [Exec.wp, hexec] at hsame
  change d ∉ c'.registry.netdevHtable.values
  rw [hsame]
  exact htable

end Sections

/-- In a run in which the counter never has that value when it is compared, and in which no reference is
taken after it, a device is freed only when nobody uses it. -/
theorem freed_unused {hashMin : UInt32 → Fin 32} {reqs : Requests} {ls : List Sections.Label}
    {s s' : Sections.State} {l : Sections.Label}
    (hrun : ((Sections.system hashMin reqs).restrict Sections.Guarded).Run ls s)
    (hstep : ((Sections.system hashMin reqs).restrict Sections.Guarded).step s l s')
    (hd : s.registry.devs d = some nddata) (hdead : s'.registry.devs d = none) :
    Unused s s' d nddata := by
  obtain ⟨⟨leaked, hcounted⟩, hcareful⟩ := Sections.careful_run hrun
  obtain ⟨hstep, hguard⟩ := hstep
  cases hstep with
  | @task reg reg' ts ts' cs l hl hstep =>
      cases hstep with
      | control => exact hl.elim
      | exit => exact hl.elim
      | start => exact nomatch hd.symm.trans hdead
      | @perform _ _ ts₁ ts₂ t env op k r hprog hexec =>
          have hframe := exec_frame reg env op
          rw [hexec] at hframe
          exact nomatch hd.symm.trans ((hframe.live_iff d).mp hdead)
      | @oops _ _ ts₁ ts₂ t env op k e hprog hexec he =>
          have hframe := exec_frame reg env op
          rw [hexec] at hframe
          exact nomatch hd.symm.trans ((hframe.live_iff d).mp hdead)
      | finish => exact nomatch hd.symm.trans hdead
  | call => exact nomatch hd.symm.trans hdead
  | perform hprog hexec =>
      obtain ⟨hfiles, htasks, htable⟩ :=
        Sections.freed_message hcounted (hcareful _ (by simp)) hprog hexec hd hdead
      exact ⟨hfiles, htasks, htable⟩
  | oops hprog hexec =>
      obtain ⟨hfiles, htasks, htable⟩ :=
        Sections.freed_message hcounted (hcareful _ (by simp)) hprog hexec hd hdead
      exact ⟨hfiles, htasks, htable⟩
  | «return» => exact nomatch hd.symm.trans hdead

/-- A message for the device waits for its turn while the device, which nobody uses, is
unregistered. -/
theorem freed_unused_served : ∃ ls s l s' nddata, (Sections.Sample.system.restrict Sections.Guarded).Run ls s ∧
    s.threads.length = 1 ∧ (Sections.Sample.system.restrict Sections.Guarded).step s l s' ∧
    s.registry.devs 0 = some nddata ∧ s'.registry.devs 0 = none ∧ Unused s s' 0 nddata := by
  have prepared : (Sections.Sample.system.restrict Sections.Guarded).Run [] _ := .init rfl
  have called := prepared.step ⟨@Sections.Step.call _ (.createServer 7) (by decide : (7 : Int32) ≠ 0), trivial⟩
  have created := called.step (@Sections.guarded_next _ _ _ _ [] [] _ .all _ _ _ _ _ called rfl rfl trivial nofun)
  have returned := created.step ⟨@Sections.Step.return _ _ [] [] _ _ rfl, trivial⟩
  have started := returned.step ⟨@Sections.Step.task _ _ _ _ _ (.start (.recv Sample.strayRead)) trivial
    (.start ⟨true, 0, rfl⟩), trivial⟩
  have leaving := started.step ⟨@Sections.Step.call _ (.findDestroy 7) (by decide : (7 : Int32) ≠ 0), trivial⟩
  have found := leaving.step (@Sections.guarded_next _ _ _ _ [] [] _ .all _ _ _ _ _ leaving rfl rfl trivial nofun)
  have unlinked := found.step (@Sections.guarded_next _ _ _ _ [] [] _ .all _ _ _ _ _ found rfl rfl
    (fun _ _ => by decide) nofun)
  have server := unlinked.step (@Sections.guarded_next _ _ _ _ [] [] _ .all _ _ _ _ _ unlinked rfl rfl trivial nofun)
  have locked := server.step (@Sections.guarded_next _ _ _ _ [] [] _ .all _ _ _ _ _ server rfl rfl trivial nofun)
  have inactive := locked.step (@Sections.guarded_next _ _ _ _ [] [] _ .all _ _ _ _ _ locked rfl rfl trivial nofun)
  have compared := inactive.step (@Sections.guarded_next _ _ _ _ [] [] _ .all _ _ _ _ _ inactive rfl rfl trivial
    fun d x hop hx => by
      cases hop
      obtain rfl := Option.some.inj hx
      decide)
  have unlocked := compared.step (@Sections.guarded_next _ _ _ _ [] [] _ .all _ _ _ _ _ compared rfl rfl trivial nofun)
  have freed := @Sections.guarded_next _ _ _ _ [] [] _ .all _ _ _ _ _ unlocked rfl rfl trivial nofun
  exact ⟨_, _, _, _, _, unlocked, rfl, freed, rfl, rfl, freed_unused unlocked freed rfl rfl⟩

/-- A message has been looked up and counted when its device is unregistered: the
counter is one, and the device is freed under the thread. -/
theorem freed_in_use : ∃ ls s l s' d nddata, Sections.Sample.system.Run ls s ∧
    Sections.Sample.system.step s l s' ∧ s.registry.devs d = some nddata ∧ s'.registry.devs d = none ∧
    ¬ Unused s s' d nddata := by
  have prepared : Sections.Sample.system.Run [] _ := .init rfl
  have called := prepared.step (@Sections.Step.call _ (.createServer 7) (by decide : (7 : Int32) ≠ 0))
  have created := called.step (@Sections.Step.perform _ _ [] [] _ .all _ _ _ _ rfl rfl)
  have returned := created.step (@Sections.Step.return _ _ [] [] _ _ rfl)
  have started := returned.step (@Sections.Step.task _ _ _ _ _ (.start (.recv Sample.strayRead)) trivial
    (.start ⟨true, 0, rfl⟩))
  have entered := started.step (@Sections.Step.task _ _ _ _ _ (.perform 0 Sample.foEnv) trivial
    (@Module.Step.perform _ _ [] [] _ Sample.foEnv _ _ _ rfl rfl))
  have looked := entered.step (@Sections.Step.task _ _ _ _ _ (.perform 0 Sample.foEnv) trivial
    (@Module.Step.perform _ _ [] [] _ Sample.foEnv _ _ _ rfl rfl))
  have got := looked.step (@Sections.Step.task _ _ _ _ _ (.perform 0 Sample.foEnv) trivial
    (@Module.Step.perform _ _ [] [] _ Sample.foEnv _ _ _ rfl rfl))
  have leaving := got.step (@Sections.Step.call _ (.findDestroy 7) (by decide : (7 : Int32) ≠ 0))
  have found := leaving.step (@Sections.Step.perform _ _ [] [] _ .all _ _ _ _ rfl rfl)
  have unlinked := found.step (@Sections.Step.perform _ _ [] [] _ .all _ _ _ _ rfl rfl)
  have server := unlinked.step (@Sections.Step.perform _ _ [] [] _ .all _ _ _ _ rfl rfl)
  have locked := server.step (@Sections.Step.perform _ _ [] [] _ .all _ _ _ _ rfl rfl)
  have inactive := locked.step (@Sections.Step.perform _ _ [] [] _ .all _ _ _ _ rfl rfl)
  have compared := inactive.step (@Sections.Step.perform _ _ [] [] _ .all _ _ _ _ rfl rfl)
  have unlocked := compared.step (@Sections.Step.perform _ _ [] [] _ .all _ _ _ _ rfl rfl)
  refine ⟨_, _, _, _, 0, _, unlocked, @Sections.Step.perform _ _ [] [] _ .all _ _ _ _ rfl rfl, rfl, rfl, ?_⟩
  intro hunused
  exact absurd (hunused.tasks _ List.mem_cons_self) (by decide)

/-! ## Waiting for itself -/

/-- The device of an unregistration is a dummy device with an open file, and the locks
on the way to the file are free. -/
def MeetsFiles (reg : Registry) (env : DestroyEnv) (nlpid : Int32) : Prop :=
  ∃ d nddata, ndmgmFind env.find nlpid ⟨reg, []⟩ = (.ok (some d), ⟨reg, []⟩) ∧
    reg.devs d = some nddata ∧ ReachesFiles ⟨reg, []⟩ env d nddata

theorem reachesFiles_found {c : Call} {env : DestroyEnv} :
    ReachesFiles (c.found env d nddata) env d (nddata.found env) ↔ ReachesFiles c env d nddata := by
  unfold Call.found NetdevData.found
  by_cases hlock : env.findDestroy
  · rw [if_pos hlock, if_pos hlock]
    exact ⟨fun h => ⟨h.dummy, h.dev, h.table, h.files⟩, fun h => ⟨h.dummy, h.dev, h.table, h.files⟩⟩
  · rw [if_neg hlock, if_neg hlock]

/-- In every reachable state `ndmgm_find_destroy` waits for a semaphore of its own
exactly when it meets an open file, and `ndmgm_end` never does. -/
theorem unregister_waits_iff {hashMin : UInt32 → Fin 32} {reqs : Requests} {ls : List Module.Label}
    {s : Module.State} (hrun : (Module.system hashMin reqs).Run ls s) :
    (∀ env nlpid, (Ker.call (ndmgmFindDestroy env nlpid) s.registry).1 ≠ .error .deadlock ↔
      ¬ MeetsFiles s.registry env nlpid) ∧
    ∀ free env, (Ker.call (ndmgmEnd free env) s.registry).1 ≠ .error .deadlock := by
  obtain ⟨leaked, h⟩ := Counted.run hrun
  refine ⟨fun env nlpid => not_congr ⟨fun hdeadlock => ?_, fun hmeets => ?_⟩, fun free env => ?_⟩
  · refine Ker.call_of_wp (P := fun r _ => r = .error .deadlock → MeetsFiles s.registry env nlpid)
      ((ndmgmFindDestroy_spec (c := ⟨s.registry, []⟩) h.wf env nlpid).mono ?_) hdeadlock
    intro r c' hr hwait
    cases hr with
    | unknown => exact nomatch hwait
    | fault => exact nomatch hwait
    | found hfind hmem hd hpid hfree hdestroy =>
        exact ⟨_, _, hfind, hd, reachesFiles_found.mp (hdestroy.deadlock_iff.mp hwait)⟩
  · obtain ⟨d, nddata, hfind, hd, hfiles⟩ := hmeets
    refine Ker.call_of_wp (P := fun r _ => r = .error .deadlock)
      ((ndmgmFindDestroy_of_find (c := ⟨s.registry, []⟩) h.wf hfind hd).mono fun r c' hdestroy => ?_)
    exact hdestroy.deadlock_iff.mpr (reachesFiles_found.mpr hfiles)
  · refine Ker.call_of_wp (P := fun r _ => r ≠ .error .deadlock)
      ((ndmgmEnd_spec (c := ⟨s.registry, []⟩) h.wf free env).mono fun r c' hr => ?_)
    cases hr with
    | busy => exact fun h => nomatch h
    | halt hlock hended =>
        intro hwait
        refine hended.ne_deadlock List.mem_cons_self ?_
        rw [Except.error.inj hwait]
    | done => exact fun h => nomatch h

/-- The daemon 7 has registered a dummy device, and process 3 has its node open. -/
theorem opened_run : ∃ ls s, Sample.system.Run ls s ∧
    (∃ nddata, s.registry.devs 0 = some nddata ∧ nddata.dummy = true ∧ nddata.foaccHtable.values ≠ []) ∧
    (Ker.call (ndmgmFindDestroy .all 7) s.registry).1 = .error .deadlock ∧
    (Ker.call (ndmgmFindDestroy { DestroyEnv.all with destroy := false } 7) s.registry).1 = .ok 1 := by
  have prepared : Sample.system.Run [] _ := .init rfl
  have registered := prepared.step (@Module.Step.control _ (.regDummy .all 7) (by decide))
  have started := registered.step (@Module.Step.start _ (.open 0 3 0) ⟨0, _, rfl, rfl, rfl⟩)
  have minor := started.step (@Module.Step.perform _ _ [] [] _ Sample.foEnv _ _ _ rfl rfl)
  have found := minor.step (@Module.Step.perform _ _ [] [] _ Sample.foEnv _ _ _ rfl rfl)
  have opened := found.step (@Module.Step.perform _ _ [] [] _ Sample.foEnv _ _ _ rfl rfl)
  exact ⟨_, _, opened, ⟨_, rfl, rfl, List.cons_ne_nil _ _⟩, rfl, rfl⟩

/-- There the call meets the open file when it gets its locks, and does not when another thread
has the lock of the device. -/
theorem unregister_waits_iff_opened : ∃ ls s, Sample.system.Run ls s ∧
    (∃ nddata, s.registry.devs 0 = some nddata ∧ nddata.dummy = true ∧ nddata.foaccHtable.values ≠ []) ∧
    MeetsFiles s.registry .all 7 ∧ ¬ MeetsFiles s.registry { DestroyEnv.all with destroy := false } 7 := by
  obtain ⟨ls, s, hrun, hopen, hwaits, hreturns⟩ := opened_run
  refine ⟨ls, s, hrun, hopen, ?_, ?_⟩
  · by_contra hmeets
    exact ((unregister_waits_iff hrun).1 .all 7).mpr hmeets hwaits
  · refine ((unregister_waits_iff hrun).1 _ 7).mp ?_
    rw [hreturns]
    exact nofun

/-- The daemon unregisters it. -/
theorem unregister_waits : ∃ ls s, Sample.system.Run ls s ∧
    (Ker.call (ndmgmFindDestroy .all 7) s.registry).1 = .error .deadlock := by
  obtain ⟨ls, s, hrun, -, hwaits, -⟩ := opened_run
  exact ⟨ls, s, hrun, hwaits⟩

end Netdev.Kernel
