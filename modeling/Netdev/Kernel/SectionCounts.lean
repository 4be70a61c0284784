-- SUMMARY: The counters of the devices while messages and tasks interrupt each other.
import Netdev.Kernel.Lifetime
import Netdev.Kernel.Sections

/-!
# Counters between lock sections

Each operation of a message keeps the counters, except for a `hash_del` that takes a device
out of the table without its reference, and for a `ndmgm_put` without an entry of the table.
-/

namespace Netdev.Kernel
open Base Registry

/-! ## One operation -/

/-- The references that an operation of a message leaves behind: `hash_del` in
`ndmgm_destroy_allacc` comes without a `ndmgm_put`. -/
def MgmOp.leaves (reg : Registry) : MgmOp → DevId → Int
  | .unhash d => if d ∈ reg.netdevHtable.values then Pi.single d 1 else 0
  | _ => 0

/-- A device whose counter is decremented for its entry in the table is in the table. -/
def MgmOp.Linked (env : MgmEnv) (c : Call) : MgmOp → Prop
  | .unlink d => env.free = true → Ker.Free c .htable → d ∈ c.registry.netdevHtable.values
  | .take d => d ∈ c.registry.netdevHtable.values
  | _ => True

section Operations
variable {c : Call}

theorem Keeps.balanced {reg : Registry} {α : Type} {r : Except Halt α} {c' : Call} (h : Keeps reg 0 r c') :
    reg.Balanced c'.registry 0 := by
  cases r with
  | ok a => exact h
  | error e => exact h

theorem downTrylock_registry (sem : Sem) (free : Bool) :
    Exec.wp (Ker.downTrylock sem free) (fun _ c' => c'.registry = c.registry) c := by
  refine Exec.wp_bind_ok (s := c) (Exec.get_apply c) ?_
  exact Exec.wp_ite (fun _ => rfl) (fun _ => rfl)

theorem unhash_put_keeps (h : c.registry.Wf) {d : DevId} (hmem : d ∈ c.registry.netdevHtable.values) :
    Exec.wp (ndmgmPut d) (fun _ c' => c.registry.Balanced c'.registry 0) ⟨c.registry.unhash d, c.own⟩ := by
  have hunhash := balanced_unhash h d
  rw [if_pos hmem] at hunhash
  refine Ker.wp_dev (fun nddata hd => ?_) (fun hnone => hunhash.single_dead hnone)
  exact unlink_balanced h hd hmem

theorem freeQueue_keeps (h : c.registry.Wf) (a : AccRef) :
    Exec.wp (freeQueue a) (fun _ c' => c.registry.Balanced c'.registry 0) c := by
  cases ha : c.registry.accs a with
  | none => exact Ker.wp_acc (fun _ hdata => nomatch ha.symm.trans hdata) (fun _ => .refl h)
  | some data =>
      have hlive : c.registry.accs a ≠ none := ha.trans_ne (Option.some_ne_none _)
      exact (freeQueue_spec h hlive).mono fun _ _ hr => hr.2.2.1

theorem putMinor_keeps (h : c.registry.Wf) (free : Bool) (minor : Nat) :
    Exec.wp (ndmgmPutMinor free minor) (fun _ c' => c.registry.Balanced c'.registry 0) c := by
  refine (@ndmgmPutMinor_spec _ { DestroyEnv.all with putMinor := free } minor).mono ?_
  rintro r c' (⟨minors, -, -, rfl⟩ | ⟨-, -, -, hreg⟩)
  · exact .of_eq h rfl rfl rfl rfl rfl
  · rw [hreg]
    exact .refl h

theorem publishDummy_keeps (h : c.registry.Wf) (env : CreateEnv) (nlpid : Int32) (minor : Nat) :
    Exec.wp (publishDummy env nlpid minor) (Keeps c.registry 0) c := by
  refine Exec.wp_ite (fun _ => .refl h) (fun _ => ?_)
  refine Exec.wp_bind (newDev_spec h nlpid true minor) ?_ (fun _ _ he => nomatch he.1)
  rintro d c' ⟨hd, hnew, ⟨nddata, hlive⟩, htable⟩
  obtain rfl := Except.ok.inj hd
  have hout : c.registry.nextDev ∉ c'.registry.netdevHtable.values := fun hmem =>
    Nat.lt_irrefl _ (h.table_lt _ (htable ▸ hmem))
  refine Exec.wp_ite (fun _ => ?_) (fun _ => Exec.wp_ite (fun _ => ?_) (fun _ => ?_))
  · exact Ker.wp_modify (hnew.trans_zero (balanced_freeDev hnew.wf _))
  · exact Ker.wp_modify (hnew.trans_zero (balanced_freeDev hnew.wf _))
  · refine Exec.wp_bind (hashDev_keeps hnew.wf hlive hout nlpid) ?_ ?_
    · exact fun _ _ hr => hnew.trans_zero hr
    · exact fun _ _ hr => hnew.trans_zero hr

theorem MgmOp.exec_balanced (h : c.registry.Wf) (env : MgmEnv) (op : MgmOp) (hlinked : op.Linked env c) :
    Exec.wp (op.exec env) (fun _ c' => c.registry.Balanced c'.registry (op.leaves c.registry)) c := by
  have hlock : ∀ sem, Exec.wp (Ker.downTrylock sem env.free)
      (fun _ c' => c.registry.Balanced c'.registry 0) c := fun sem =>
    (downTrylock_registry sem env.free).mono fun _ _ hr => by
      rw [hr]
      exact .refl h
  have hdev : ∀ {α : Type} (d : DevId) (f : NetdevData → α),
      Exec.wp (Ker.dev d >>= fun x => (return f x : Ker α)) (fun _ c' => c.registry.Balanced c'.registry 0) c :=
    fun d f => Ker.wp_dev (fun _ _ => .refl h) (fun _ => .refl h)
  cases op with
  | getMinor pid => exact (ndmgmGetMinor_keeps h env.free pid).mono fun _ _ hr => hr.balanced
  | publishDummy nlpid minor => exact (publishDummy_keeps h env.create nlpid minor).mono fun _ _ hr => hr.balanced
  | publishServer nlpid => exact (ndmgmCreateServer_keeps h env.create nlpid).mono fun _ _ hr => hr.balanced
  | find nlpid => exact (ndmgmFind_looks env.free nlpid).mono fun _ _ hr => (hr.keeps h).balanced
  | unlink d =>
      refine Ker.wp_downTrylock (fun hfree hsem => ?_) (fun _ => .refl h)
      refine Ker.wp_modify (Exec.wp_bind (unhash_put_keeps (c := ⟨c.registry, .htable :: c.own⟩) h
        (hlinked hfree hsem)) ?_ ?_)
      · exact fun _ _ hr => hr
      · exact fun _ _ hr => hr
  | dummy d => exact hdev d _
  | lockDev d => exact hlock _
  | lockFiles d => exact hlock _
  | lockTable => exact hlock _
  | up sem => exact Balanced.refl h
  | deactivate d =>
      refine Ker.wp_dev (fun nddata hd => ?_) (fun _ => .refl h)
      exact balanced_setDev_users h hd rfl rfl
  | files d => exact Ker.wp_dev (fun _ _ => .refl h) (fun _ => .refl h)
  | unhash d => exact balanced_unhash h d
  | freeQueue acc => exact freeQueue_keeps h acc
  | accDestroy acc => exact (foAccDestroy_keeps h acc).mono fun _ _ hr => hr.balanced
  | refs d => exact hdev d _
  | putMinor d => exact Ker.wp_dev (fun nddata _ => putMinor_keeps h env.free nddata.minor) (fun _ => .refl h)
  | free d => exact Ker.wp_dev (fun _ _ => balanced_freeDev h d) (fun _ => .refl h)
  | devices => exact Balanced.refl h
  | take d => exact Ker.wp_modify (unhash_put_keeps h hlinked)
  | freeMinors => exact .of_eq h rfl rfl rfl rfl rfl

end Operations

/-! ## One step -/

namespace Sections

/-- The registry before and after an operation, as the others see it. -/
theorem balanced_settle {reg : Registry} (h : reg.Wf) {caller : Caller} {env : MgmEnv} {op : MgmOp}
    (hlinked : op.Linked env (caller.enter reg)) {r : Except Halt op.Res} {c' : Call}
    (hexec : op.exec env (caller.enter reg) = (r, c')) : reg.Balanced (settle c') (op.leaves reg) := by
  have henter : reg.Balanced (caller.enter reg).registry 0 := .of_eq h rfl rfl rfl rfl rfl
  have hop := MgmOp.exec_balanced henter.wf env op hlinked
  rw [Exec.wp, hexec] at hop
  exact (henter.zero_trans hop).stuck _

/-- A step that takes no device out of the table a second time. -/
def Linked (s : State) : Label → Prop
  | .perform n env => ∀ c op k, s.callers[n]? = some c → c.prog = .call op k →
      op.Linked env (c.enter s.registry)
  | _ => True

/-- A step after which no reference to a live device is left behind. -/
def Drops (s : State) : Label → Prop
  | .task l => Module.Drops s.tasks l
  | .perform n env => Linked s (.perform n env) ∧
      ∀ c op k d, s.callers[n]? = some c → c.prog = .call op k → op = .unhash d →
        s.registry.devs d ≠ none → d ∉ s.registry.netdevHtable.values
  | _ => True

theorem Drops.linked {s : State} {l : Label} (h : Drops s l) : Linked s l := by
  cases l with
  | perform n env => exact h.1
  | _ => trivial

end Sections

theorem MgmOp.leaves_nonneg (reg : Registry) (op : MgmOp) : 0 ≤ op.leaves reg := by
  cases op with
  | unhash d =>
      change (0 : DevId → Int) ≤ if d ∈ reg.netdevHtable.values then Pi.single d 1 else 0
      split
      · exact Task.holding_nonneg d
      · exact le_rfl
  | _ => exact le_rfl

/-- A reference is left behind for a device of the table, by one operation. -/
theorem MgmOp.leaves_eq_zero {reg : Registry} {op : MgmOp} {d : DevId}
    (h : op = .unhash d → d ∉ reg.netdevHtable.values) : op.leaves reg d = 0 := by
  cases op with
  | unhash e =>
      change (if e ∈ reg.netdevHtable.values then (Pi.single e 1 : DevId → Int) else 0) d = 0
      by_cases heq : e = d
      · rw [if_neg (heq ▸ h (heq ▸ rfl)), Pi.zero_apply]
      · split
        · exact Pi.single_eq_of_ne (Ne.symm heq) _
        · rfl
  | _ => rfl

namespace Counted
open Sections
variable {sound : Prop} {leaked : DevId → Int}

/-- An operation of a message. -/
theorem message {reg : Registry} {ts : List Thread} (h : Counted sound ⟨reg, ts⟩ leaked) {caller : Caller}
    {env : MgmEnv} {op : MgmOp} (hlinked : op.Linked env (caller.enter reg))
    {r : Except Halt op.Res} {c' : Call} (hexec : op.exec env (caller.enter reg) = (r, c'))
    (hdrops : sound → ∀ d, op = .unhash d → reg.devs d ≠ none → d ∉ reg.netdevHtable.values) :
    ∃ leaked', Counted sound ⟨settle c', ts⟩ leaked' := by
  have hbal := balanced_settle h.wf hlinked hexec
  refine ⟨leaked + op.leaves reg, h.change hbal h.proper (add_nonneg h.nonneg (op.leaves_nonneg reg))
    (fun d => ?_) (fun hsound d hd => ?_)⟩
  · change leaked d + op.leaves reg d + heldBy ts d = leaked d + heldBy ts d + op.leaves reg d
    omega
  · rw [Pi.add_apply, h.live_of_balanced hbal hsound d hd, zero_add]
    by_contra hne
    obtain ⟨nddata, hnddata⟩ := Option.ne_none_iff_exists'.mp hd
    rcases hbal.surplus d nddata hnddata with ⟨old, hold, -⟩ | ⟨hnew, -⟩
    · exact hne (MgmOp.leaves_eq_zero fun hop => hdrops hsound d hop (hold.trans_ne (Option.some_ne_none _)))
    · refine hne (MgmOp.leaves_eq_zero fun _ hmem => ?_)
      exact absurd (h.wf.table_lt d hmem) (Nat.not_lt.mpr hnew)

/-- Every step keeps the counters, as long as no device is taken out of the table twice. -/
theorem section_step {s s' : Sections.State} {l : Sections.Label} (h : Counted sound s.tasks leaked)
    (hstep : Sections.Step s l s') (hlinked : Sections.Linked s l) (hdrops : sound → Sections.Drops s l) :
    ∃ leaked', Counted sound s'.tasks leaked' := by
  cases hstep with
  | task hl hstep => exact h.task hl hstep hdrops
  | call henabled => exact ⟨leaked, h⟩
  | @perform reg ts cs cs' caller env op k r c' hprog hexec =>
      have hget : (cs ++ caller :: cs')[cs.length]? = some caller := by simp
      refine h.message (hlinked caller op k hget hprog) hexec fun hsound d hop => ?_
      exact (hdrops hsound).2 caller op k d hget hprog hop
  | @oops reg ts cs cs' caller env op k c' hprog hexec =>
      have hget : (cs ++ caller :: cs')[cs.length]? = some caller := by simp
      refine h.message (hlinked caller op k hget hprog) hexec fun hsound d hop => ?_
      exact (hdrops hsound).2 caller op k d hget hprog hop
  | «return» hprog => exact ⟨leaked, h⟩

/-- In every run of steps that meet `C`. -/
theorem section_run {hashMin : UInt32 → Fin 32} {reqs : Requests} {C : Sections.State → Sections.Label → Prop}
    {ls : List Sections.Label} {s : Sections.State}
    (hrun : ((Sections.system hashMin reqs).restrict C).Run ls s)
    (hlinked : ∀ s l, C s l → Sections.Linked s l) (hdrops : sound → ∀ s l, C s l → Sections.Drops s l) :
    ∃ leaked, Counted sound s.tasks leaked := by
  induction hrun with
  | init hs =>
      rw [hs]
      exact ⟨0, prepare hashMin reqs⟩
  | step _ hstep ih =>
      obtain ⟨leaked, h⟩ := ih
      exact h.section_step hstep.1 (hlinked _ _ hstep.2) fun hsound => hdrops hsound _ _ hstep.2

end Counted

/-! ## Exact counters -/

/-- No call of `fo_send` or `fo_recv` is running. -/
def Sections.State.Quiet (s : Sections.State) : Prop := ∀ t ∈ s.threads, t.started = false

/-- The counter of each live device is the number of references that the registry knows
of. -/
def Registry.Exact (reg : Registry) : Prop :=
  ∀ d nddata, reg.devs d = some nddata → nddata.users = reg.references d nddata

theorem heldBy_quiet {sound : Prop} {ts : List Thread} (h : ∀ t ∈ ts, t.Proper sound)
    (hquiet : ∀ t ∈ ts, t.started = false) (d : DevId) : heldBy ts d = 0 := by
  induction ts with
  | nil => rfl
  | cons t ts ih =>
      have hzero : t.held = 0 := (h t List.mem_cons_self).started (hquiet t List.mem_cons_self)
      have hrest := ih (fun t' ht' => h t' (List.mem_cons_of_mem t ht'))
        fun t' ht' => hquiet t' (List.mem_cons_of_mem t ht')
      rw [heldBy_cons, hrest, hzero]
      rfl

/-- When every step drops the references it leaves, the counters are exact whenever no
file operation is running. -/
theorem references_balance {hashMin : UInt32 → Fin 32} {reqs : Requests} {ls : List Sections.Label}
    {s : Sections.State} (hrun : ((Sections.system hashMin reqs).restrict Sections.Drops).Run ls s)
    (hquiet : s.Quiet) : s.registry.Exact := by
  obtain ⟨leaked, h⟩ := @Counted.section_run True _ _ _ _ _ hrun (fun _ _ h => h.linked) fun _ _ _ h => h
  intro d nddata hd
  have hsurplus : nddata.users - s.registry.references d nddata = leaked d + heldBy s.threads d :=
    h.surplus d nddata hd
  have hheld : heldBy s.threads d = 0 := heldBy_quiet h.proper hquiet d
  rw [h.live trivial d (hd.trans_ne (Option.some_ne_none _)), hheld] at hsurplus
  omega

/-! ## An open and a leak -/

namespace Sections
variable {hashMin : UInt32 → Fin 32} {reqs : Requests} {reg reg' : Registry}

/-- An operation that returns, and at which `fo_recv` does not give up. -/
theorem drops_perform {ts ts' : List Thread} {cs : List Caller} {t : Thread} {env : FoEnv} {op : FoOp}
    {k : op.Res → FoM Int32} {r : op.Res} (hprog : t.prog = .call op k)
    (hexec : Ker.call (op.exec env) reg = (.ok r, reg')) (hloses : t.task.loses ⟨op, r⟩ = false) :
    ((system hashMin reqs).restrict Drops).step ⟨reg, ts ++ t :: ts', cs⟩ (.task (.perform ts.length env))
      ⟨reg', ts ++ t.next op (k r) :: ts', cs⟩ := by
  refine ⟨.task (l := .perform _ _) trivial (.perform hprog hexec), ?_⟩
  intro t' op' k' hget hprog'
  have hmid : (ts ++ t :: ts')[ts.length]? = some t := by simp
  obtain rfl : t = t' := Option.some.inj (hmid.symm.trans hget)
  cases hprog.symm.trans hprog'
  refine ⟨fun r' hr => ?_, fun _ e he => ?_⟩
  · obtain rfl : r = r' := Except.ok.inj ((congrArg Prod.fst hexec).symm.trans hr)
    exact hloses
  · exact nomatch (congrArg Prod.fst hexec).symm.trans he

/-- An operation of a message that returns and is no `hash_del` alone. -/
theorem drops_message {ts : List Thread} {cs cs' : List Caller} {c : Caller} {env : MgmEnv} {op : MgmOp}
    {k : op.Res → MgmM Int32} {r : op.Res} {c' : Call} (hprog : c.prog = .call op k)
    (hexec : op.exec env (c.enter reg) = (.ok r, c')) (hlinked : op.Linked env (c.enter reg))
    (hop : ∀ d, op ≠ .unhash d) :
    ((system hashMin reqs).restrict Drops).step ⟨reg, ts, cs ++ c :: cs'⟩ (.perform cs.length env)
      ⟨settle c', ts, cs ++ c.next ⟨op, r⟩ (k r) c'.own :: cs'⟩ := by
  have hmid : (cs ++ c :: cs')[cs.length]? = some c := by simp
  refine ⟨.perform hprog hexec, fun c₁ op₁ k₁ hget hprog₁ => ?_, fun c₁ op₁ k₁ d hget hprog₁ hunhash => ?_⟩
  · obtain rfl : c = c₁ := Option.some.inj (hmid.symm.trans hget)
    cases hprog.symm.trans hprog₁
    exact hlinked
  · obtain rfl : c = c₁ := Option.some.inj (hmid.symm.trans hget)
    cases hprog.symm.trans hprog₁
    exact absurd hunhash (hop d)

end Sections

/-- The daemon 7 registers a server device, and a process of the other machine opens its file. -/
theorem references_balance_opened : ∃ ls s,
    (Sections.Sample.system.restrict Sections.Drops).Run ls s ∧ s.threads = [] ∧
      (∃ nddata, s.registry.devs 0 = some nddata ∧ nddata.users = 2) ∧ s.registry.Exact := by
  have prepared : (Sections.Sample.system.restrict Sections.Drops).Run [] _ := .init rfl
  have called := prepared.step ⟨@Sections.Step.call _ (.createServer 7) (by decide : (7 : Int32) ≠ 0), trivial⟩
  have created := called.step (@Sections.drops_message _ _ _ _ [] [] _ .all _ _ _ _ rfl rfl trivial nofun)
  have returned := created.step ⟨@Sections.Step.return _ _ [] [] _ _ rfl, trivial⟩
  have started := returned.step ⟨@Sections.Step.task _ _ _ _ _ (.start (.recv Sample.openRequest)) trivial
    (.start ⟨true, 0, rfl⟩), trivial⟩
  have entered := started.step (@Sections.drops_perform _ _ _ _ [] [] [] _ Sample.foEnv _ _ _ rfl rfl rfl)
  have found := entered.step (@Sections.drops_perform _ _ _ _ [] [] [] _ Sample.foEnv _ _ _ rfl rfl rfl)
  have got := found.step (@Sections.drops_perform _ _ _ _ [] [] [] _ Sample.foEnv _ _ _ rfl rfl rfl)
  have missed := got.step (@Sections.drops_perform _ _ _ _ [] [] [] _ Sample.foEnv _ _ _ rfl rfl rfl)
  have opened := missed.step (@Sections.drops_perform _ _ _ _ [] [] [] _ Sample.foEnv _ _ _ rfl rfl rfl)
  have server := opened.step (@Sections.drops_perform _ _ _ _ [] [] [] _ Sample.foEnv _ _ _ rfl rfl rfl)
  have executed := server.step (@Sections.drops_perform _ _ _ _ [] [] [] _ Sample.foEnv _ _ _ rfl rfl rfl)
  have put := executed.step (@Sections.drops_perform _ _ _ _ [] [] [] _ Sample.foEnv _ _ _ rfl rfl rfl)
  have exited := put.step ⟨@Sections.Step.task _ _ _ _ _ (.finish 0) trivial
    (@Module.Step.finish _ [] [] _ _ rfl), trivial⟩
  refine ⟨_, _, exited, rfl, ⟨_, rfl, rfl⟩, references_balance exited fun t ht => ?_⟩
  exact (List.not_mem_nil ht).elim

/-- A read for a process that has no open file on the server: `fo_recv` gives up, and
the device keeps a reference that nobody will drop. -/
theorem references_leak : ∃ ls s, Sections.Sample.system.Run ls s ∧ s.Quiet ∧ ¬ s.registry.Exact := by
  have prepared : Sections.Sample.system.Run [] _ := .init rfl
  have called := prepared.step (@Sections.Step.call _ (.createServer 7) (by decide : (7 : Int32) ≠ 0))
  have created := called.step (@Sections.Step.perform _ _ [] [] _ .all _ _ _ _ rfl rfl)
  have returned := created.step (@Sections.Step.return _ _ [] [] _ _ rfl)
  have started := returned.step (@Sections.Step.task _ _ _ _ _ (.start (.recv Sample.strayRead)) trivial
    (.start ⟨true, 0, rfl⟩))
  have entered := started.step (@Sections.Step.task _ _ _ _ _ (.perform 0 Sample.foEnv) trivial
    (@Module.Step.perform _ _ [] [] _ Sample.foEnv _ _ _ rfl rfl))
  have found := entered.step (@Sections.Step.task _ _ _ _ _ (.perform 0 Sample.foEnv) trivial
    (@Module.Step.perform _ _ [] [] _ Sample.foEnv _ _ _ rfl rfl))
  have got := found.step (@Sections.Step.task _ _ _ _ _ (.perform 0 Sample.foEnv) trivial
    (@Module.Step.perform _ _ [] [] _ Sample.foEnv _ _ _ rfl rfl))
  have missed := got.step (@Sections.Step.task _ _ _ _ _ (.perform 0 Sample.foEnv) trivial
    (@Module.Step.perform _ _ [] [] _ Sample.foEnv _ _ _ rfl rfl))
  have exited := missed.step (@Sections.Step.task _ _ _ _ _ (.finish 0) trivial
    (@Module.Step.finish _ [] [] _ _ rfl))
  refine ⟨_, _, exited, fun t ht => (List.not_mem_nil ht).elim, fun hexact => ?_⟩
  exact absurd (hexact 0 _ rfl) (by decide)

end Netdev.Kernel
