-- SUMMARY: An open that fails leaves its open file behind, on the client and on the server.
import Mathlib.Logic.Relation
import Netdev.Kernel.Allocation

/-!
# Failed opens

`ndfo_send_open` has no path that undoes `fo_acc_start`. `fo_recv` has one, for the
return value -1, and `fo_execute` never returns it.
-/

namespace Netdev.Kernel
open Base Registry

/-! ## A task among others -/

/-- Steps of others, each of which meets `C`. -/
def Module.Others (C : Module.State → Module.Label → Prop) : Module.State → Module.State → Prop :=
  Relation.ReflTransGen fun s s' => ∃ l, Module.Step s l s' ∧ C s l

/-- The operations of a task that is not one of the threads. Others take their steps
before each of them. -/
def Module.among (C : Module.State → Module.Label → Prop) : Prog.Env FoI Module.State :=
  fun s e s' => ∃ env reg, Module.Others C s ⟨reg, s'.threads⟩ ∧
    Ker.call (e.1.exec env) reg = (.ok e.2, s'.registry)

/-- Others do what they want. -/
abbrev Module.crowded : Prog.Env FoI Module.State := Module.among fun _ _ => True

/-- Nobody else runs. -/
abbrev Module.alone : Prog.Env FoI Module.State := Module.among fun _ _ => False

section Among
variable {C : Module.State → Module.Label → Prop} {s s' : Module.State}

theorem Module.Others.wf (h : Module.Others C s s') (hwf : s.registry.Wf) : s'.registry.Wf := by
  induction h with
  | refl => exact hwf
  | tail _ hstep ih =>
      obtain ⟨l, hstep, -⟩ := hstep
      exact hstep.wf ih

theorem Module.Others.nextAcc_le (h : Module.Others C s s') : s.registry.nextAcc ≤ s'.registry.nextAcc := by
  induction h with
  | refl => exact le_rfl
  | tail _ hstep ih =>
      obtain ⟨l, hstep, -⟩ := hstep
      exact ih.trans hstep.nextAcc_le

theorem Module.Others.eq (h : Module.Others (fun _ _ => False) s s') : s' = s := by
  induction h with
  | refl => rfl
  | tail _ hstep ih =>
      obtain ⟨l, -, hfalse⟩ := hstep
      exact hfalse.elim

theorem Module.among.wf {e : Event FoI} (h : Module.among C s e s') (hwf : s.registry.Wf) :
    s'.registry.Wf := by
  obtain ⟨env, reg, hothers, hexec⟩ := h
  have hbal := (exec_keeps (hothers.wf hwf) env e.1).1 e.2 (congrArg Prod.fst hexec)
  rw [hexec] at hbal
  exact hbal.wf

theorem Module.among.nextAcc_le {e : Event FoI} (h : Module.among C s e s') :
    s.registry.nextAcc ≤ s'.registry.nextAcc := by
  obtain ⟨env, reg, hothers, hexec⟩ := h
  have hcall := (Ker.KeepsIds.exec env e.1).call reg
  rw [hexec] at hcall
  exact hothers.nextAcc_le.trans hcall

/-- An operation before which nobody takes a step. -/
theorem Module.among.perform {op : FoOp} {r : op.Res} {reg' : Registry} (env : FoEnv)
    (h : Ker.call (op.exec env) s.registry = (.ok r, reg')) :
    Module.among C s ⟨op, r⟩ ⟨reg', s.threads⟩ := ⟨env, s.registry, .refl, h⟩

/-- The operation at which an execution is. -/
theorem Module.among.next {p : FoM Int32} {s₀ : Module.State} {op : FoOp} {k : op.Res → FoM Int32}
    {r : op.Res} {reg' : Registry} (_ : Prog.Reaches (Module.among C) p s₀ (.call op k) s) (env : FoEnv)
    (h : Ker.call (op.exec env) s.registry = (.ok r, reg')) :
    Module.among C s ⟨op, r⟩ ⟨reg', s.threads⟩ := .perform env h

/-- What an operation does in every environment. -/
theorem Module.among.post {op : FoOp} {r : op.Res} (h : Module.among C s ⟨op, r⟩ s')
    {P : Registry → Except Halt op.Res → Call → Prop}
    (hP : ∀ env (reg : Registry), Exec.wp (op.exec env) (P reg) ⟨reg, []⟩) :
    ∃ reg c, Module.Others C s ⟨reg, s'.threads⟩ ∧ P reg (.ok r) c ∧
      s'.registry = { c.registry with stuck := c.own ++ c.registry.stuck } := by
  obtain ⟨env, reg, hothers, hexec⟩ := h
  have hr : (op.exec env ⟨reg, []⟩).1 = .ok r := congrArg Prod.fst hexec
  refine ⟨reg, (op.exec env ⟨reg, []⟩).2, hothers, ?_, (congrArg Prod.snd hexec).symm⟩
  rw [← hr]
  exact hP env reg

end Among

/-! ## The client -/

/-- `ndfo_send_open` from `fo_acc_start` on. -/
def ndfoSendOpenStart (nddata : Option DevId) (pid : Int32) (pad : UInt32) : FoM Int32 := do
  let acc : Option AccRef ← fo (.accStart nddata pid)
  match acc with
  | none => return -ENOMEM
  | some acc => foSend (.open pad) acc

theorem ndfoSendOpen_eq (minor : Nat) (pid : Int32) (pad : UInt32) :
    ndfoSendOpen minor pid pad = fo (.findPid minor) >>= fun nlpid => fo (.find nlpid) >>= fun nddata =>
      ndfoSendOpenStart nddata pid pad := rfl

/-- What `ndfo_send_open` returns, from the result of `fo_send` and `args.rvalue`. -/
def openRvalue (rvalue argsRvalue : Int32) : Int32 := if rvalue < 0 then rvalue else argsRvalue

/-- An open that has got its `acc` from `fo_acc_start` and returns an error. -/
inductive FailedOpen (minor : Nat) (pid : Int32) (pad : UInt32) (c : Module.State) (acc : AccRef)
    (c' : Module.State) : Prop where
  | intro {nddata : Option DevId} {s s' : Module.State} {rvalue argsRvalue : Int32}
      (hfind : Prog.Reaches Module.crowded (ndfoSendOpen minor pid pad) c
        (ndfoSendOpenStart nddata pid pad) s)
      (hstart : Module.crowded s ⟨.accStart nddata pid, some acc⟩ s')
      (hsend : Prog.Reaches Module.crowded (foSend (.open pad) acc) s' (.ret rvalue) c')
      (hfails : openRvalue rvalue argsRvalue < 0) : FailedOpen minor pid pad c acc c'

/-- The open files of a device and its counter. -/
def NetdevData.files (nddata : NetdevData) : Hashtable UInt32 AccRef × Int :=
  (nddata.foaccHtable, nddata.users)

/-- The open files and the counter of a device are as before. -/
def Registry.SameFiles (reg reg' : Registry) (d : DevId) : Prop :=
  (reg'.devs d).map NetdevData.files = (reg.devs d).map NetdevData.files

/-- What `fo_acc_start` does: nothing, or a file under a new id. -/
def Starts (c : Call) (nddata : Option DevId) (pid : Int32) : Except Halt (Option AccRef) → Call → Prop
  | .ok none, c' => c' = c
  | .ok (some a), c' => nddata = some a.nddata ∧ a.id = c.registry.nextAcc ∧
      ∃ x, c.registry.devs a.nddata = some x ∧ c'.registry.devs a.nddata =
        some { x with foaccHtable := x.foaccHtable.add pid.toUInt32 a, users := x.users + 1 }
  | .error _, _ => True

theorem foAccStart_starts {c : Call} (env : StartEnv) (nddata : Option DevId) (pid : Int32) :
    Exec.wp (foAccStart env nddata pid) (Starts c nddata pid) c := by
  cases nddata with
  | none => exact rfl
  | some d =>
      refine Exec.wp_ite (fun _ => rfl) (fun _ => ?_)
      refine Ker.wp_dev (fun nddata hd => ?_) (fun _ => trivial)
      refine Exec.wp_ite (fun _ => rfl) (fun _ => ?_)
      refine Ker.wp_downTrylock (fun _ _ => ?_) (fun _ => rfl)
      refine Ker.wp_registry (Ker.wp_modify (Ker.wp_modify (Ker.wp_modify ?_)))
      refine wp_ndmgmGet (setDev_self _ _) (Ker.wp_up ?_)
      exact ⟨rfl, rfl, nddata, hd, setDev_self _ _⟩

section Client
variable {C : Module.State → Module.Label → Prop} {s s' : Module.State} {acc : AccRef} {pad : UInt32}

/-- The file and its device are there. -/
def Registry.Live (reg : Registry) (acc : AccRef) : Prop :=
  reg.accs acc ≠ none ∧ reg.devs acc.nddata ≠ none

/-- An operation that follows `acc` and `acc->nddata` finds both. -/
theorem Module.among.live {op : FoOp} {r : op.Res} (h : Module.among C s ⟨op, r⟩ s')
    (hop : ∀ env (c : Call), Exec.wp (op.exec env)
      (fun r c' => ∀ a, r = .ok a → c'.registry.Live acc) c) : s'.registry.Live acc := by
  obtain ⟨reg, c, -, hlive, hreg⟩ := h.post fun env reg => hop env ⟨reg, []⟩
  rw [hreg]
  exact hlive r rfl

theorem live_of_some {c : Call} {data : Acc} {x : NetdevData} (ha : c.registry.accs acc = some data)
    (hd : c.registry.devs acc.nddata = some x) : c.registry.Live acc :=
  ⟨ha.trans_ne (Option.some_ne_none _), hd.trans_ne (Option.some_ne_none _)⟩

theorem active_live {r : Bool} (h : Module.among C s ⟨.active acc, r⟩ s') : s'.registry.Live acc := by
  refine h.live fun env c => ?_
  refine Ker.wp_acc (fun data ha => ?_) (fun _ a hr => nomatch hr)
  refine Ker.wp_dev (fun x hd => ?_) (fun _ a hr => nomatch hr)
  intro a _
  exact live_of_some ha hd

theorem freeReq_live {req : Option ReqPtr} {r : Unit} (h : Module.among C s ⟨.freeReq acc req, r⟩ s') :
    s'.registry.Live acc := by
  refine h.live fun env c => ?_
  refine Ker.wp_acc (fun data ha => ?_) (fun _ a hr => nomatch hr)
  refine Ker.wp_dev (fun x hd => ?_) (fun _ a hr => nomatch hr)
  refine Ker.wp_deref (fun _ _ => ?_) (fun _ a hr => nomatch hr)
  intro a _
  exact live_of_some ha hd

theorem foSendOut_live (req : Option ReqPtr) (rvalue : Int32) (s : Module.State) :
    Prog.wp (Module.among C) (fun _ => True) (fun _ s' => s'.registry.Live acc)
      (foSendOut (.open pad) acc req rvalue) s := by
  refine ⟨trivial, fun _ s₁ _ => ⟨trivial, fun _ s₂ hfree => ?_⟩⟩
  exact freeReq_live hfree

/-- `fo_send` of an open leaves its file alone, whatever it returns. -/
theorem foSend_live (s : Module.State) :
    Prog.wp (Module.among C) (fun _ => True) (fun _ s' => s'.registry.Live acc)
      (foSend (.open pad) acc) s := by
  refine ⟨trivial, fun _ s₁ _ => ⟨trivial, fun active s₂ hactive => ?_⟩⟩
  cases active with
  | false => exact active_live hactive
  | true =>
      refine ⟨trivial, fun _ s₃ _ => ⟨trivial, fun req s₄ _ => ?_⟩⟩
      cases req with
      | none => exact foSendOut_live none _ s₄
      | some req => exact Prog.wp_bind_last (fun rvalue s => foSendOut_live (some req) rvalue s) s₄

variable {minor : Nat} {pid : Int32} {c c' : Module.State}

/-- The file of a failed open is in the table, and was not there before. -/
theorem FailedOpen.not_sameFiles (h : FailedOpen minor pid pad c acc c') (hwf : c.registry.Wf) :
    ¬ c.registry.SameFiles c'.registry acc.nddata := by
  cases h with
  | @intro nddata s s' rvalue argsRvalue hfind hstart hsend hfails =>
      have hkept : s.registry.Wf ∧ c.registry.nextAcc ≤ s.registry.nextAcc := by
        apply hfind.invariant (K := fun s => s.registry.Wf ∧ c.registry.nextAcc ≤ s.registry.nextAcc) ?_
          ⟨hwf, le_rfl⟩
        intro s e s' hs he
        exact ⟨Module.among.wf he hs.1, hs.2.trans (Module.among.nextAcc_le he)⟩
      obtain ⟨reg, call, hothers, ⟨-, hid, -⟩, -⟩ :=
        Module.among.post hstart (P := fun reg => Starts ⟨reg, []⟩ nddata pid)
          fun env reg => foAccStart_starts env.start nddata pid
      have hfresh : c.registry.nextAcc ≤ acc.id := by
        rw [hid]
        exact hkept.2.trans hothers.nextAcc_le
      have hwf' : c'.registry.Wf := by
        apply hsend.invariant (K := fun s => s.registry.Wf) ?_ (Module.among.wf hstart hkept.1)
        intro s e s' hs he
        exact Module.among.wf he hs
      have hlive : c'.registry.Live acc := hsend.wp (foSend_live s')
      obtain ⟨x, hx⟩ := Option.ne_none_iff_exists'.mp hlive.2
      intro hsame
      rw [Registry.SameFiles, hx, Option.map_some] at hsame
      obtain ⟨y, hy, hfiles⟩ := Option.map_eq_some_iff.mp hsame.symm
      have htable : y.foaccHtable = x.foaccHtable := congrArg Prod.fst hfiles
      have hmem : acc ∈ y.foaccHtable.values := by
        rw [htable]
        exact (hwf'.mem_files _ x hx acc).mpr ⟨rfl, hlive.1⟩
      have hold := (hwf.mem_files _ y hy acc).mp hmem
      exact absurd (hwf.accs_lt acc hold.2).1 (Nat.not_lt.mpr hfresh)

end Client

/-! ## The server -/

/-- A server device with so many users. -/
def Registry.Counts (reg : Registry) (d : DevId) (users : Int) : Prop :=
  ∃ x, reg.devs d = some x ∧ x.dummy = false ∧ x.users = users

/-- The process has no open file of the server device. -/
def Registry.Lacks (reg : Registry) (d : DevId) (pid : Int32) (users : Int) : Prop :=
  ∃ x, reg.devs d = some x ∧ x.dummy = false ∧ x.users = users ∧
    ∀ a ∈ x.foaccHtable.values, ∀ data, reg.accs a = some data → data.accessId ≠ pid

section Server
variable {s s' : Module.State} {d : DevId} {n : Int} {acc : AccRef} {nlh : NlMessage} {pid : Int32}

/-- What an operation does when nobody else runs. -/
theorem Module.alone.post {op : FoOp} {r : op.Res} (h : Module.alone s ⟨op, r⟩ s')
    {P : Except Halt op.Res → Call → Prop} (hP : ∀ env, Exec.wp (op.exec env) P ⟨s.registry, []⟩) :
    ∃ c, P (.ok r) c ∧ s'.registry = { c.registry with stuck := c.own ++ c.registry.stuck } := by
  obtain ⟨env, reg, hothers, hexec⟩ := h
  obtain rfl : reg = s.registry := congrArg Module.State.registry hothers.eq
  have hr : (op.exec env ⟨s.registry, []⟩).1 = .ok r := congrArg Prod.fst hexec
  refine ⟨(op.exec env ⟨s.registry, []⟩).2, ?_, (congrArg Prod.snd hexec).symm⟩
  rw [← hr]
  exact hP env

theorem dummy_counts {r : Bool} (h : Module.alone s ⟨.dummy d, r⟩ s') (hd : s.registry.Counts d n) :
    r = false ∧ s'.registry.Counts d n := by
  obtain ⟨x, hx, hdummy, husers⟩ := hd
  obtain ⟨c, ⟨hr, hreg'⟩, hreg⟩ := Module.alone.post h
    (P := fun r c => r = .ok false ∧ c.registry = s.registry) fun env => by
      refine Ker.wp_dev_live hx ?_
      exact ⟨congrArg Except.ok hdummy, rfl⟩
  refine ⟨Except.ok.inj hr, x, ?_, hdummy, husers⟩
  rw [hreg, hreg']
  exact hx

theorem execute_counts {r : Int32} (h : Module.alone s ⟨.execute acc nlh, r⟩ s')
    (hd : s.registry.Counts d n) : r ≠ -1 ∧ s'.registry.Counts d n := by
  obtain ⟨c, ⟨hr, hdevs⟩, hreg⟩ := Module.alone.post h
    (P := fun r c => (∀ a, r = .ok a → a = 0 ∨ a = -ENODATA) ∧ c.registry.devs = s.registry.devs)
    fun env => by
      refine Ker.wp_acc (fun data _ => ?_) (fun _ => ⟨(fun a ha => nomatch ha), rfl⟩)
      refine Ker.wp_dev (fun _ _ => ?_) (fun _ => ⟨(fun a ha => nomatch ha), rfl⟩)
      refine Ker.wp_ofMem (fun result hresult => ?_) ⟨(fun a ha => nomatch ha), rfl⟩
      refine ⟨fun a ha => ?_, rfl⟩
      obtain rfl := Except.ok.inj ha
      exact foExecute_rvalue hresult
  refine ⟨?_, ?_⟩
  · rcases hr r rfl with rfl | rfl
    · exact (by decide : (0 : Int32) ≠ -1)
    · exact (by decide : -ENODATA ≠ -1)
  · rw [hreg]
    unfold Registry.Counts
    rw [hdevs]
    exact hd

theorem put_counts {r : Unit} (h : Module.alone s ⟨.put d, r⟩ s') (hd : s.registry.Counts d n) :
    s'.registry.Counts d (n - 1) := by
  obtain ⟨x, hx, hdummy, rfl⟩ := hd
  obtain ⟨c, hput, hreg⟩ := Module.alone.post h
    (P := fun r c => r = .ok () → c.registry.Counts d (x.users - 1)) fun env => by
      refine Ker.wp_dev_live hx ?_
      exact fun _ => ⟨_, setDev_self _ _, hdummy, rfl⟩
  rw [hreg]
  exact hput rfl

theorem accStart_counts {r : Option AccRef} (h : Module.alone s ⟨.accStart (some d) pid, r⟩ s')
    (hd : s.registry.Counts d n) : s'.registry.Counts d (if r.isSome then n + 1 else n) := by
  obtain ⟨x, hx, hdummy, rfl⟩ := hd
  obtain ⟨c, hstart, hreg⟩ := Module.alone.post h fun env =>
    foAccStart_starts (c := ⟨s.registry, []⟩) env.start (some d) pid
  rw [hreg]
  cases r with
  | none =>
      obtain rfl := hstart
      exact ⟨x, hx, hdummy, rfl⟩
  | some a =>
      obtain ⟨ha, -, y, hy, hy'⟩ := hstart
      obtain rfl := Option.some.inj ha
      obtain rfl := Option.some.inj (hx.symm.trans hy)
      exact ⟨_, hy', hdummy, rfl⟩

/-- The lookup of an open file that the process does not have. -/
theorem findAcc_lacks {r : Option AccRef} (h : Module.alone s ⟨.findAcc d pid, r⟩ s')
    (hd : s.registry.Lacks d pid n) : r = none ∧ s'.registry.Counts d n := by
  obtain ⟨x, hx, hdummy, husers, hlacks⟩ := hd
  obtain ⟨c, hlooks, hreg⟩ := Module.alone.post h fun env =>
    ndmgmFindAcc_looks (c := ⟨s.registry, []⟩) env.free d pid
  obtain ⟨rfl, hfound⟩ := hlooks
  refine ⟨?_, x, ?_, hdummy, husers⟩
  · cases r with
    | none => rfl
    | some a =>
        obtain ⟨y, data, hy, hmem, hacc, hid⟩ := hfound a rfl
        obtain rfl := Option.some.inj (hx.symm.trans hy)
        exact absurd hid (hlacks a hmem data hacc)
  · rw [hreg]
    exact hx

theorem get_lacks {r : Unit} (h : Module.alone s ⟨.get (some d), r⟩ s') (hd : s.registry.Lacks d pid n) :
    s'.registry.Lacks d pid (n + 1) := by
  obtain ⟨x, hx, hdummy, rfl, hlacks⟩ := hd
  obtain ⟨c, hget, hreg⟩ := Module.alone.post h
    (P := fun r c => c.registry.Lacks d pid (x.users + 1)) fun env => by
      refine Ker.wp_dev_live hx ?_
      exact ⟨_, setDev_self _ _, hdummy, rfl, hlacks⟩
  rw [hreg]
  exact hget

/-! ## `fo_recv` of an open -/

/-- What `fo_recv` does once it has a file: it drops its own reference, and not the file. -/
theorem foRecvAcc_counts (hmsg : nlh.msgtype = MSGT_FO_OPEN) (hd : s.registry.Counts d n) :
    Prog.wp Module.alone (fun _ => True) (fun _ s' => s'.registry.Counts d (n - 1))
      (foRecvAcc d acc nlh) s := by
  refine ⟨trivial, fun dummy s₁ hdummy => ?_⟩
  obtain ⟨rfl, h₁⟩ := dummy_counts hdummy hd
  refine ⟨trivial, fun rvalue s₂ hexecute => ?_⟩
  obtain ⟨hrvalue, h₂⟩ := execute_counts hexecute h₁
  have hrelease : ¬ nlh.msgtype = MSGT_FO_RELEASE := by
    rw [hmsg]
    decide
  have hfailed : ¬ (rvalue = -1 ∧ nlh.msgtype = MSGT_FO_OPEN) := fun h => hrvalue h.1
  simp only [if_neg hrelease]
  change Prog.wp _ _ _ (foRecvOut d acc nlh rvalue) s₂
  unfold foRecvOut
  rw [if_neg hfailed]
  exact ⟨trivial, fun _ s₃ hput => put_counts hput h₂⟩

/-- Without a file of the process, one reference stays: that of the new file, or that of
the thread when it has got no memory for it. -/
theorem foRecvDev_counts (hmsg : nlh.msgtype = MSGT_FO_OPEN)
    (hd : s.registry.Lacks d (asInt nlh.payload) n) :
    Prog.wp Module.alone (fun _ => True) (fun _ s' => s'.registry.Counts d n) (foRecvDev d nlh) s := by
  refine ⟨trivial, fun found s₁ hfind => ?_⟩
  obtain ⟨rfl, h₁⟩ := findAcc_lacks hfind hd
  have hopen : ¬ nlh.msgtype ≠ MSGT_FO_OPEN := fun hne => hne hmsg
  simp only [if_neg hopen]
  refine ⟨trivial, fun acc s₂ hstart => ?_⟩
  have h₂ := accStart_counts hstart h₁
  cases acc with
  | none => exact h₂
  | some acc =>
      have hacc := @foRecvAcc_counts s₂ d (n + 1) acc nlh hmsg h₂
      rw [add_sub_cancel_right] at hacc
      exact hacc

/-- `fo_recv` of an open, when the process has no open file of the device. -/
theorem foRecv_counts (hmsg : nlh.msgtype = MSGT_FO_OPEN)
    (hlacks : ∀ d x, s.registry.devs d = some x → x.nlpid = nlh.header.nlmsgPid.toInt32.toUInt32 →
      s.registry.Lacks d (asInt nlh.payload) x.users) :
    Prog.wp Module.alone (fun _ => True) (fun _ s' => ∃ d x, s.registry.devs d = some x ∧
      s'.registry.Counts d (x.users + 1)) (foRecv nlh) s := by
  refine ⟨trivial, fun _ s₁ henter => ⟨trivial, fun nddata s₂ hfind => ⟨trivial, fun _ s₃ hget => ?_⟩⟩⟩
  obtain ⟨c₁, rfl, h₁⟩ := Module.alone.post henter (P := fun _ c => c = ⟨s.registry, []⟩) fun _ => rfl
  obtain ⟨c₂, ⟨rfl, hfound⟩, h₂⟩ := Module.alone.post hfind fun env =>
    ndmgmFind_looks (c := ⟨s₁.registry, []⟩) env.free nlh.header.nlmsgPid.toInt32
  have hsame : s₂.registry = s.registry := by
    rw [h₂, h₁]
    rfl
  cases nddata with
  | none =>
      obtain ⟨c₃, hfault, -⟩ := Module.alone.post hget (P := fun r _ => r = .error .fault) fun _ => rfl
      cases hfault
  | some d =>
      obtain ⟨-, -, x, hx, hpid⟩ := hfound d rfl
      have hx' : s.registry.devs d = some x := by
        rw [← hx, h₁]
      have h₃ := get_lacks hget (hsame ▸ hlacks d x hx' hpid)
      exact (foRecvDev_counts hmsg h₃).mono (fun _ h => h) fun _ s' hs' => ⟨d, x, hx', hs'⟩

end Server

/-! ## Both machines -/

/-- `fo_recv` of the request of an open, alone on the server. The process has no file of
the device open there. -/
inductive ServedOpen (pid : Int32) (s s' : Module.State) : Prop where
  | intro {nlh : NlMessage} {rvalue : Int32} (hmsg : nlh.msgtype = MSGT_FO_OPEN)
      (hpid : asInt nlh.payload = pid)
      (hlacks : ∀ d x, s.registry.devs d = some x → x.nlpid = nlh.header.nlmsgPid.toInt32.toUInt32 →
        s.registry.Lacks d pid x.users)
      (hrun : Prog.Reaches Module.alone (foRecv nlh) s (.ret rvalue) s') : ServedOpen pid s s'

/-- The server counts one user more. -/
theorem ServedOpen.not_sameFiles {pid : Int32} {s s' : Module.State} (h : ServedOpen pid s s') :
    ∃ d, ¬ s.registry.SameFiles s'.registry d := by
  cases h with
  | intro hmsg hpid hlacks hrun =>
      subst hpid
      obtain ⟨d, x, hx, y, hy, -, husers⟩ := hrun.wp (foRecv_counts hmsg hlacks)
      refine ⟨d, ?_⟩
      intro hsame
      rw [Registry.SameFiles, hx, hy] at hsame
      have hfiles : y.users = x.users := congrArg Prod.snd (Option.some.inj hsame)
      omega

/-- Whatever the reason is: no open that fails after `fo_acc_start` restores the client,
and no server that got the request is restored by its `fo_recv`. -/
theorem failed_open_leaves {hashMin : UInt32 → Fin 32} {reqs : Requests} {ls : List Module.Label}
    {minor : Nat} {pid : Int32} {pad : UInt32} {c c' s s' : Module.State} {acc : AccRef}
    (hrun : (Module.system hashMin reqs).Run ls c) (hopen : FailedOpen minor pid pad c acc c') :
    ¬ c.registry.SameFiles c'.registry acc.nddata ∧
      (ServedOpen pid s s' → ∃ d, ¬ s.registry.SameFiles s'.registry d) := by
  obtain ⟨leaked, h⟩ := Counted.run hrun
  exact ⟨hopen.not_sameFiles h.wf, ServedOpen.not_sameFiles⟩

/-! ## An open whose request is not sent -/

/-- Nobody listens on the daemon's socket. -/
def Sample.unsent : FoEnv := { Sample.foEnv with netlink := -1 }

/-- Process 3 opens the device of the daemon 7, and `netlink_send` fails. -/
theorem unsent_open : ∃ ls c c', Sample.system.Run ls c ∧ FailedOpen 0 3 0 c ⟨0, 0⟩ c' := by
  have prepared : Sample.system.Run [] _ := .init rfl
  have registered := prepared.step (@Module.Step.control _ (.regDummy .all 7) (by decide))
  have opening : Prog.Reaches Module.crowded (ndfoSendOpen 0 3 0)
      ⟨(Control.regDummy .all 7).after (.prepare Sample.hashMin Sample.requests), []⟩ _ _ := .start
  rw [ndfoSendOpen_eq] at opening
  have minor := opening.step (Module.among.perform Sample.unsent rfl)
  have found := minor.step (Module.among.perform Sample.unsent rfl)
  have start := Module.among.next found Sample.unsent rfl
  have started := (found.step start).here
  have entered := started.step (Module.among.perform Sample.unsent rfl)
  have active := entered.step (Module.among.perform Sample.unsent rfl)
  have got := active.step (Module.among.perform Sample.unsent rfl)
  have allocated := got.step (Module.among.perform Sample.unsent rfl)
  have queued := allocated.step (Module.among.perform Sample.unsent rfl)
  have buffer := queued.step (Module.among.perform Sample.unsent rfl)
  have numbered := buffer.step (Module.among.perform Sample.unsent rfl)
  have stored := numbered.step (Module.among.perform Sample.unsent rfl)
  have refused := stored.step (Module.among.perform Sample.unsent rfl)
  have put := refused.step (Module.among.perform Sample.unsent rfl)
  have freed := put.step (Module.among.perform Sample.unsent rfl)
  exact ⟨_, _, _, registered, @FailedOpen.intro _ _ _ _ _ _ _ _ _ _ 0 found start freed (by decide)⟩

/-- The server gets such a request, and cannot open its device. -/
theorem served_open : ∃ s', ServedOpen 3 Sample.served s' := by
  have begin : Prog.Reaches Module.alone (foRecv Sample.openRequest) Sample.served _ _ := .start
  have entered := begin.step (Module.among.perform Sample.foEnv rfl)
  have found := entered.step (Module.among.perform Sample.foEnv rfl)
  have got := found.step (Module.among.perform Sample.foEnv rfl)
  have missed := got.step (Module.among.perform Sample.foEnv rfl)
  have started := missed.step (Module.among.perform Sample.foEnv rfl)
  have server := started.step (Module.among.perform Sample.foEnv rfl)
  have executed := server.step (Module.among.perform Sample.foEnv rfl)
  have put := executed.step (Module.among.perform Sample.foEnv rfl)
  refine ⟨_, .intro rfl (by decide) (fun d x hd hpid => ?_) put⟩
  by_cases hzero : d = 0
  · subst hzero
    obtain rfl := Option.some.inj hd
    exact ⟨_, rfl, rfl, rfl, fun a ha => (List.not_mem_nil ha).elim⟩
  · change Function.update (Function.update (fun _ : DevId => (none : Option NetdevData)) 0 _) 0 _ d = _ at hd
    rw [Function.update_of_ne hzero, Function.update_of_ne hzero] at hd
    cases hd

/-- Neither machine is as before. -/
theorem failed_open_leaves_unsent : ∃ (c c' s' : Module.State),
    ¬ c.registry.SameFiles c'.registry 0 ∧ ∃ d, ¬ Sample.served.registry.SameFiles s'.registry d := by
  obtain ⟨ls, c, c', hrun, hopen⟩ := unsent_open
  obtain ⟨s', hserved⟩ := served_open
  have hleaves := @failed_open_leaves _ _ _ _ _ _ _ _ Sample.served s' _ hrun hopen
  exact ⟨c, c', s', hleaves.1, hleaves.2 hserved⟩

/-- The daemon of the client does not listen, and the device of the server cannot be
opened. -/
theorem failed_open_kept : ∃ ls c c' s', Sample.system.Run ls c ∧ FailedOpen 0 3 0 c ⟨0, 0⟩ c' ∧
    ServedOpen 3 Sample.served s' ∧ ¬ (c.registry.SameFiles c'.registry 0 ∧
      ∀ d, Sample.served.registry.SameFiles s'.registry d) := by
  obtain ⟨ls, c, c', hrun, hopen⟩ := unsent_open
  obtain ⟨s', hserved⟩ := served_open
  obtain ⟨d, hd⟩ := hserved.not_sameFiles
  exact ⟨ls, c, c', s', hrun, hopen, hserved, fun hsame => hd (hsame.2 d)⟩

end Netdev.Kernel
