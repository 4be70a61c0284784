-- SUMMARY: In every run the counter of a device covers all references.
import Netdev.Kernel.Holding

/-!
# Lifetime of devices

The counter of a live device is the number of its references: of the table, of the
open files, of the tasks that run, and of those that ended without dropping theirs.
-/

namespace Netdev.Kernel
open Base Registry

/-! ## Counting -/

/-- The references that tasks hold. -/
def heldBy (ts : List Thread) (d : DevId) : Int := (ts.map fun t => t.held d).sum

theorem heldBy_append (ts ts' : List Thread) (d : DevId) :
    heldBy (ts ++ ts') d = heldBy ts d + heldBy ts' d := by
  rw [heldBy, List.map_append, List.sum_append]
  rfl

theorem heldBy_cons (t : Thread) (ts : List Thread) (d : DevId) :
    heldBy (t :: ts) d = t.held d + heldBy ts d := by
  rw [heldBy, List.map_cons, List.sum_cons]
  rfl

/-- The rest of a thread is proper; it has not given up if `sound`. -/
def Thread.Proper (sound : Prop) (t : Thread) : Prop :=
  ∃ lost, (sound → lost = false) ∧ t.task.Proper t.prog ⟨t.held, t.started, lost⟩

theorem Thread.Proper.fair {sound : Prop} {t : Thread} (h : t.Proper sound) :
    ∃ lost, (⟨t.held, t.started, lost⟩ : Local).Fair := by
  obtain ⟨lost, -, hproper⟩ := h
  rw [Task.Proper] at hproper
  cases hprog : t.prog with
  | ret a =>
      rw [hprog] at hproper
      exact ⟨lost, hproper.toFair⟩
  | call op k =>
      rw [hprog] at hproper
      exact ⟨lost, hproper.1⟩

theorem Thread.Proper.nonneg {sound : Prop} {t : Thread} (h : t.Proper sound) : 0 ≤ t.held := by
  obtain ⟨lost, hfair⟩ := h.fair
  exact hfair.nonneg

/-- A task that has not entered `fo_send` or `fo_recv` holds nothing. -/
theorem Thread.Proper.started {sound : Prop} {t : Thread} (h : t.Proper sound)
    (hstarted : t.started = false) : t.held = 0 := by
  obtain ⟨lost, hfair⟩ := h.fair
  exact hfair.started hstarted

theorem heldBy_nonneg {sound : Prop} {ts : List Thread} (h : ∀ t ∈ ts, t.Proper sound) (d : DevId) :
    0 ≤ heldBy ts d := by
  induction ts with
  | nil => exact le_rfl
  | cons t ts ih =>
      have hhead : 0 ≤ t.held d := (h t List.mem_cons_self).nonneg d
      have hrest := ih fun t' ht' => h t' (List.mem_cons_of_mem t ht')
      rw [heldBy_cons]
      omega

/-- Nobody holds what in total is not held. -/
theorem held_eq_zero {sound : Prop} {ts : List Thread} (h : ∀ t ∈ ts, t.Proper sound) {d : DevId}
    (hzero : heldBy ts d = 0) {t : Thread} (ht : t ∈ ts) : t.held d = 0 := by
  obtain ⟨ts₁, ts₂, rfl⟩ := List.append_of_mem ht
  have hnonneg : 0 ≤ t.held d := (h t ht).nonneg d
  have h₁ := heldBy_nonneg (fun t' ht' => h t' (List.mem_append_left _ ht')) d
  have h₂ := heldBy_nonneg (fun t' ht' => h t' (List.mem_append_right _ (List.mem_cons_of_mem t ht'))) d
  rw [heldBy_append, heldBy_cons] at hzero
  omega

/-- The counters of the live devices, where `leaked` are the references of tasks that
have ended. If `sound`, no live device has such references. -/
structure Counted (sound : Prop) (s : Module.State) (leaked : DevId → Int) : Prop where
  wf : s.registry.Wf
  proper : ∀ t ∈ s.threads, t.Proper sound
  nonneg : 0 ≤ leaked
  surplus : ∀ d nddata, s.registry.devs d = some nddata →
    s.registry.surplus d nddata = leaked d + heldBy s.threads d
  fresh : ∀ d, s.registry.nextDev ≤ d → leaked d + heldBy s.threads d = 0
  live : sound → ∀ d, s.registry.devs d ≠ none → leaked d = 0

namespace Counted
variable {sound : Prop} {s : Module.State} {leaked : DevId → Int} {reg' : Registry} {δ : DevId → Int}

theorem prepare (hashMin : UInt32 → Fin 32) (reqs : Requests) :
    Counted sound ⟨.prepare hashMin reqs, []⟩ 0 where
  wf := prepare_wf hashMin reqs
  proper _ ht := (List.not_mem_nil ht).elim
  nonneg := le_rfl
  surplus _ _ hd := nomatch hd
  fresh _ _ := rfl
  live _ _ _ := rfl

/-- A balanced change of the registry, matched by the references of the tasks. -/
theorem change (h : Counted sound s leaked) {ts' : List Thread} {leaked' : DevId → Int}
    (hbal : s.registry.Balanced reg' δ) (hproper : ∀ t ∈ ts', t.Proper sound) (hleaked : 0 ≤ leaked')
    (hsum : ∀ d, leaked' d + heldBy ts' d = leaked d + heldBy s.threads d + δ d)
    (hlive : sound → ∀ d, reg'.devs d ≠ none → leaked' d = 0) : Counted sound ⟨reg', ts'⟩ leaked' where
  wf := hbal.wf
  proper := hproper
  nonneg := hleaked
  surplus := by
    intro d nddata' hd
    rcases hbal.surplus d nddata' hd with ⟨nddata, hold, hs⟩ | ⟨hnew, hs⟩
    · rw [hs, h.surplus d nddata hold, hsum]
    · rw [hs, hsum, h.fresh d hnew, zero_add]
  fresh := by
    intro d hd
    have hδ : δ d = 0 := by
      by_contra hne
      exact absurd (hbal.delta_lt d hne) (Nat.not_lt.mpr hd)
    rw [hsum, h.fresh d (hbal.nextDev.trans hd), hδ, add_zero]
  live := hlive

/-- New devices have no references of the past. -/
theorem live_of_balanced (h : Counted sound s leaked) (hbal : s.registry.Balanced reg' δ)
    (hsound : sound) (d : DevId) (hd : reg'.devs d ≠ none) : leaked d = 0 := by
  obtain ⟨nddata, hnddata⟩ := Option.ne_none_iff_exists'.mp hd
  rcases hbal.surplus d nddata hnddata with ⟨x, hold, -⟩ | ⟨hnew, -⟩
  · exact h.live hsound d (hold.trans_ne (Option.some_ne_none _))
  · have hsum := h.fresh d hnew
    have hleaked : 0 ≤ leaked d := h.nonneg d
    have hheld := heldBy_nonneg h.proper d
    omega

/-- Nobody holds a device that does not exist yet. -/
theorem held_of_fresh (h : Counted sound s leaked) {d : DevId} (hd : s.registry.nextDev ≤ d)
    {t : Thread} (ht : t ∈ s.threads) : t.held d = 0 := by
  have hsum := h.fresh d hd
  have hleaked : 0 ≤ leaked d := h.nonneg d
  have hheld := heldBy_nonneg h.proper d
  exact held_eq_zero h.proper (by omega) ht

/-- A change that no reference of a task takes part in. -/
theorem registry (h : Counted sound s leaked) (hbal : s.registry.Balanced reg' 0) :
    Counted sound { s with registry := reg' } leaked := by
  refine h.change hbal h.proper h.nonneg (fun d => ?_) (h.live_of_balanced hbal)
  rw [Pi.zero_apply, add_zero]

end Counted

/-! ## One step -/

/-- Calls leave the stuck semaphores behind, which no reference depends on. -/
theorem balanced_call {α : Type} {m : Ker α} {reg : Registry} {P : Except Halt α → Registry → Prop}
    (hstuck : ∀ r (c : Call), P r c.registry → P r { c.registry with stuck := c.own ++ c.registry.stuck })
    (h : Exec.wp m (fun r c => P r c.registry) ⟨reg, []⟩) : P (Ker.call m reg).1 (Ker.call m reg).2 :=
  Ker.call_of_wp (h.mono hstuck)

theorem Registry.Balanced.stuck {reg reg' : Registry} {δ : DevId → Int} (h : reg.Balanced reg' δ)
    (stuck : List Sem) : reg.Balanced { reg' with stuck } δ :=
  h.trans_zero (.of_eq h.wf rfl rfl rfl rfl rfl)

/-- An unregistration that waits for itself may take the device out of the table without its
reference. -/
theorem ndmgmFindDestroy_balanced {reg : Registry} (h : reg.Wf) (env : DestroyEnv) (nlpid : Int32) :
    (∃ d, reg.Balanced (Ker.call (ndmgmFindDestroy env nlpid) reg).2 (Pi.single d 1)) ∨
    reg.Balanced (Ker.call (ndmgmFindDestroy env nlpid) reg).2 0 := by
  refine balanced_call (P := fun _ reg' => (∃ d, reg.Balanced reg' (Pi.single d 1)) ∨ reg.Balanced reg' 0) ?_ ?_
  · rintro r c (⟨d, hbal⟩ | hbal)
    · exact .inl ⟨d, hbal.stuck _⟩
    · exact .inr (hbal.stuck _)
  refine (ndmgmFindDestroy_spec h env nlpid).mono ?_
  intro r c' hr
  cases hr with
  | unknown => exact .inr (.refl h)
  | fault hreg =>
      rw [hreg]
      exact .inr (.refl h)
  | @found d nddata r c' hfind hmem hd hpid hfree hdestroy =>
      have hfound : reg.Balanced ((⟨reg, []⟩ : Call).found env d nddata).registry 0 :=
        found_balanced (c := ⟨reg, []⟩) h hd hmem
      by_cases hr : r = .error .deadlock
      · subst hr
        cases hdestroy with
        | deadlock hfiles hbal hdevs hminors hstuck =>
            have htotal := hfound.zero_trans hbal
            by_cases hin : d ∈ ((⟨reg, []⟩ : Call).found env d nddata).registry.netdevHtable.values
            · rw [if_pos hin] at htotal
              exact .inl ⟨d, htotal⟩
            · rw [if_neg hin] at htotal
              exact .inr htotal
      · exact .inr (hfound.trans_zero (hdestroy.balanced hfound.wf (found_live hd) hr))

theorem Control.after_balanced {reg : Registry} (h : reg.Wf) (msg : Control) :
    (∃ d, reg.Balanced (msg.after reg) (Pi.single d 1)) ∨ reg.Balanced (msg.after reg) 0 := by
  have hkeeps : ∀ {m : Ker Int32}, Exec.wp m (Keeps reg 0) ⟨reg, []⟩ →
      reg.Balanced (Ker.call m reg).2 0 := by
    intro m hm
    refine balanced_call (P := fun _ reg' => reg.Balanced reg' 0) (fun _ _ hbal => hbal.stuck _)
      (hm.mono fun r c hr => ?_)
    cases r with
    | ok a => exact hr
    | error e => exact hr
  cases msg with
  | regDummy env pid => exact .inr (hkeeps (ndmgmCreateDummy_keeps h env pid))
  | regServer env pid => exact .inr (hkeeps (ndmgmCreateServer_keeps h env pid))
  | unregister env pid => exact ndmgmFindDestroy_balanced h env pid

theorem ended_balanced {reg : Registry} (h : reg.Wf) (free : Bool) (env : DevId → DestroyEnv) :
    reg.Balanced (reg.ended free env) 0 := by
  refine balanced_call (P := fun _ reg' => reg.Balanced reg' 0) (fun _ _ hbal => hbal.stuck _) ?_
  have hnodup : (reg.netdevHtable.forEach reg.hashMin).Nodup := Hashtable.nodup_forEach h.table_nodup
  have hmem : ∀ d ∈ reg.netdevHtable.forEach reg.hashMin, d ∈ reg.netdevHtable.values :=
    fun d hd => Hashtable.mem_forEach.mp hd
  refine (ndmgmEnd_spec h free env).mono ?_
  intro r c' hr
  cases hr with
  | busy => exact .refl h
  | halt hlock hended => exact hended.balanced h List.mem_cons_self hnodup hmem
  | done hlock hended =>
      have hbal := hended.balanced h List.mem_cons_self hnodup hmem
      exact hbal.trans_zero (.of_eq hbal.wf rfl rfl rfl rfl rfl)

theorem exec_keeps {reg : Registry} (h : reg.Wf) (env : FoEnv) (op : FoOp) :
    (∀ r, (Ker.call (op.exec env) reg).1 = .ok r →
      reg.Balanced (Ker.call (op.exec env) reg).2 op.hold) ∧
    (∀ e, (Ker.call (op.exec env) reg).1 = .error e → reg.Balanced (Ker.call (op.exec env) reg).2 0) := by
  refine balanced_call (P := fun r reg' => (∀ a, r = .ok a → reg.Balanced reg' op.hold) ∧
    (∀ e, r = .error e → reg.Balanced reg' 0)) ?_ ?_
  · rintro r c ⟨hok, herror⟩
    exact ⟨fun a ha => (hok a ha).stuck _, fun e he => (herror e he).stuck _⟩
  · refine (FoOp.exec_keeps (c := ⟨reg, []⟩) h env op).mono fun r c hr => ?_
    cases r with
    | ok a => exact ⟨fun _ _ => hr, fun _ he => by cases he⟩
    | error e => exact ⟨fun _ ha => (by cases ha), fun _ _ => hr⟩

/-- A step of a task after which no reference to a live device is left behind: no early exit
of `fo_recv`, and no fault of a task that holds one. -/
def Module.Drops (s : Module.State) : Module.Label → Prop
  | .perform n env => ∀ t op k, s.threads[n]? = some t → t.prog = .call op k →
      (∀ r, (Ker.call (op.exec env) s.registry).1 = .ok r → t.task.loses ⟨op, r⟩ = false) ∧
      ((∃ d, s.registry.devs d ≠ none ∧ t.held d ≠ 0) →
        ∀ e, (Ker.call (op.exec env) s.registry).1 = .error e → e = .blocked)
  | _ => True

namespace Counted
variable {sound : Prop} {leaked : DevId → Int} {reg reg' : Registry} {ts ts' : List Thread} {t : Thread}

/-- A thread that is gone leaves its references behind. -/
theorem remove (h : Counted sound ⟨reg, ts ++ t :: ts'⟩ leaked) (hbal : reg.Balanced reg' 0)
    (hlive : sound → ∀ d, reg'.devs d ≠ none → t.held d = 0) :
    Counted sound ⟨reg', ts ++ ts'⟩ (leaked + t.held) := by
  have ht : t ∈ ts ++ t :: ts' := List.mem_append_right ts List.mem_cons_self
  refine h.change hbal (fun t' ht' => h.proper t' ?_) (add_nonneg h.nonneg (h.proper t ht).nonneg)
    (fun d => ?_) (fun hsound d hd => ?_)
  · rcases List.mem_append.mp ht' with hmem | hmem
    · exact List.mem_append_left _ hmem
    · exact List.mem_append_right _ (List.mem_cons_of_mem t hmem)
  · rw [Pi.add_apply, heldBy_append, heldBy_append, heldBy_cons, Pi.zero_apply]
    omega
  · rw [Pi.add_apply, h.live_of_balanced hbal hsound d hd, hlive hsound d hd, add_zero]

/-- A thread goes on after an operation. -/
theorem perform (h : Counted sound ⟨reg, ts ++ t :: ts'⟩ leaked) {op : FoOp} {k : op.Res → FoM Int32}
    {r : op.Res} (hprog : t.prog = .call op k) (hbal : reg.Balanced reg' op.hold)
    (hloses : sound → t.task.loses ⟨op, r⟩ = false) :
    Counted sound ⟨reg', ts ++ t.next op (k r) :: ts'⟩ leaked := by
  have ht : t ∈ ts ++ t :: ts' := List.mem_append_right ts List.mem_cons_self
  obtain ⟨lost, hlost, hproper⟩ := h.proper t ht
  rw [Task.Proper, hprog] at hproper
  have hnext : (t.next op (k r)).Proper sound := by
    refine ⟨lost || t.task.loses ⟨op, r⟩, fun hsound => ?_, hproper.2 r _ rfl⟩
    rw [hlost hsound, hloses hsound]
    rfl
  refine h.change hbal (fun t' ht' => ?_) h.nonneg (fun d => ?_) (h.live_of_balanced hbal)
  · rcases List.mem_append.mp ht' with hmem | hmem
    · exact h.proper t' (List.mem_append_left _ hmem)
    · rcases List.mem_cons.mp hmem with rfl | hmem
      · exact hnext
      · exact h.proper t' (List.mem_append_right _ (List.mem_cons_of_mem t hmem))
  · have hheld : (t.next op (k r)).held d = t.held d + op.hold d := rfl
    rw [heldBy_append, heldBy_append, heldBy_cons, heldBy_cons, hheld]
    omega

theorem task {s s' : Module.State} {l : Module.Label} (h : Counted sound s leaked) (hl : Module.OfTask l)
    (hstep : Module.Step s l s') (hdrops : sound → Module.Drops s l) :
    ∃ leaked', Counted sound s' leaked' := by
  cases hstep with
  | control => exact hl.elim
  | exit => exact hl.elim
  | @start s task henabled =>
      refine ⟨leaked, h.change (.refl h.wf) (fun t ht => ?_) h.nonneg (fun d => ?_) h.live⟩
      · rcases List.mem_append.mp ht with hmem | hmem
        · exact h.proper t hmem
        · rw [List.mem_singleton.mp hmem]
          exact ⟨false, fun _ => rfl, task.proper⟩
      · have hzero : heldBy [task.thread] d = 0 := rfl
        rw [heldBy_append, hzero, Pi.zero_apply, add_zero, add_zero]
  | @perform reg reg' ts ts' t env op k r hprog hexec =>
      have hbal := (exec_keeps h.wf env op).1 r (congrArg Prod.fst hexec)
      rw [hexec] at hbal
      refine ⟨leaked, h.perform hprog hbal fun hsound => ?_⟩
      exact (hdrops hsound t op k (by simp) hprog).1 r (congrArg Prod.fst hexec)
  | @oops reg reg' ts ts' t env op k e hprog hexec he =>
      have hbal := (exec_keeps h.wf env op).2 e (congrArg Prod.fst hexec)
      rw [hexec] at hbal
      refine ⟨leaked + t.held, h.remove hbal fun hsound d hd => ?_⟩
      by_contra hheld
      refine he ((hdrops hsound t op k (by simp) hprog).2 ⟨d, ?_, hheld⟩ e (congrArg Prod.fst hexec))
      obtain ⟨nddata, hnddata⟩ := Option.ne_none_iff_exists'.mp hd
      rcases hbal.surplus d nddata hnddata with ⟨x, hold, -⟩ | ⟨hnew, -⟩
      · exact hold.trans_ne (Option.some_ne_none _)
      · exact absurd (h.held_of_fresh hnew (List.mem_append_right ts List.mem_cons_self)) hheld
  | @finish reg ts ts' t rvalue hprog =>
      have ht : t ∈ ts ++ t :: ts' := List.mem_append_right ts List.mem_cons_self
      obtain ⟨lost, hlost, hproper⟩ := h.proper t ht
      rw [Task.Proper, hprog] at hproper
      refine ⟨leaked + t.held, h.remove (.refl h.wf) fun hsound d _ => ?_⟩
      exact congrFun (hproper.lost (hlost hsound)) d

theorem step {s s' : Module.State} {l : Module.Label} (h : Counted False s leaked)
    (hstep : Module.Step s l s') : ∃ leaked', Counted False s' leaked' := by
  cases hstep with
  | @control s msg hpid =>
      rcases Control.after_balanced h.wf msg with ⟨d, hbal⟩ | hbal
      · have hone : (0 : DevId → Int) ≤ Pi.single d 1 := Task.holding_nonneg d
        refine ⟨leaked + Pi.single d 1, h.change hbal h.proper (add_nonneg h.nonneg hone) (fun e => ?_)
          False.elim⟩
        rw [Pi.add_apply]
        omega
      · exact ⟨leaked, h.registry hbal⟩
  | @exit s free env => exact ⟨leaked, h.registry (ended_balanced h.wf free env)⟩
  | start henabled => exact h.task (l := .start _) trivial (.start henabled) False.elim
  | perform hprog hexec => exact h.task (l := .perform _ _) trivial (.perform hprog hexec) False.elim
  | oops hprog hexec he => exact h.task (l := .perform _ _) trivial (.oops hprog hexec he) False.elim
  | finish hprog => exact h.task (l := .finish _) trivial (.finish hprog) False.elim

theorem run {hashMin : UInt32 → Fin 32} {reqs : Requests} {ls : List Module.Label} {s : Module.State}
    (hrun : (Module.system hashMin reqs).Run ls s) : ∃ leaked, Counted False s leaked := by
  induction hrun with
  | init hs =>
      rw [hs]
      exact ⟨0, prepare hashMin reqs⟩
  | step _ hstep ih =>
      obtain ⟨leaked, h⟩ := ih
      exact h.step hstep

end Counted

end Netdev.Kernel
