-- SUMMARY: The open files of one device as a list: what `ndmgm_find_acc` finds in it, and what each operation of a task does to it.
import Netdev.Kernel.Module
import Netdev.Kernel.ServerFile

/-!
# The open files of a device

`foacc_htable` is a hash table of pointers, and the access id is in the memory behind
them. Read together they are a list of open files, newest first. Only
`fo_acc_start` and `fo_acc_destroy` change it, and `ndmgm_find_acc` finds the first
file with the access id.
-/

namespace Netdev.Kernel
open Base Registry

/-- An entry of the table: the file and its access id. -/
abbrev OpenFile := AccRef × Int32

/-- The device is there, of this kind, and has these open files. -/
structure Registry.Lists (reg : Registry) (d : DevId) (dummy : Bool) (files : List OpenFile) : Prop where
  dev : ∃ nddata, reg.devs d = some nddata ∧ nddata.dummy = dummy ∧
    nddata.foaccHtable.entries = files.map fun f => (f.2.toUInt32, f.1)
  acc : ∀ f ∈ files, ∃ data, reg.accs f.1 = some data ∧ data.accessId = f.2
  fresh : ∀ f ∈ files, f.1.id < reg.nextAcc ∧ f.1.nddata = d

/-- The file that the first entry with this access id points to. -/
def firstFile (files : List OpenFile) (pid : Int32) : Option AccRef :=
  (files.find? fun f => f.2 = pid).map Prod.fst

section Files
variable {files : List OpenFile} {a b : AccRef} {pid pid' : Int32}

@[simp] theorem firstFile_cons_self : firstFile ((a, pid) :: files) pid = some a := by
  simp [firstFile]

theorem firstFile_cons_of_ne (h : pid' ≠ pid) : firstFile ((a, pid') :: files) pid = firstFile files pid := by
  simp [firstFile, h]

theorem mem_of_firstFile (h : firstFile files pid = some a) : (a, pid) ∈ files := by
  obtain ⟨f, hfind, rfl⟩ := Option.map_eq_some_iff.mp h
  have hpid : f.2 = pid := by simpa using List.find?_some hfind
  subst hpid
  exact List.mem_of_find?_eq_some hfind

/-- The first file stays the first one when another one goes. -/
theorem firstFile_filter (h : firstFile files pid = some a) (hne : a ≠ b) :
    firstFile (files.filter fun f => f.1 ≠ b) pid = some a := by
  obtain ⟨f, hfind, rfl⟩ := Option.map_eq_some_iff.mp h
  obtain ⟨hpid, before, after, rfl, hbefore⟩ := List.find?_eq_some_iff_append.mp hfind
  refine Option.map_eq_some_iff.mpr ⟨f, List.find?_eq_some_iff_append.mpr ⟨hpid,
    before.filter fun f => f.1 ≠ b, after.filter fun f => f.1 ≠ b, ?_, fun g hg => ?_⟩, rfl⟩
  · simp [hne]
  · exact hbefore g (List.mem_of_mem_filter hg)

end Files

/-! ## Lookups -/

section Lookup
variable {reg : Registry} {d : DevId} {dummy : Bool} {files : List OpenFile}

/-- One file has one access id. -/
theorem Registry.Lists.accessId (h : reg.Lists d dummy files) {a : AccRef} {pid : Int32}
    (ha : (a, pid) ∈ files) : (reg.accs a).map Acc.accessId = some pid := by
  obtain ⟨data, hdata, hid⟩ := h.acc _ ha
  rw [hdata, Option.map_some, hid]

theorem Registry.Lists.accessId_inj (h : reg.Lists d dummy files) {a : AccRef} {pid pid' : Int32}
    (ha : (a, pid) ∈ files) (ha' : (a, pid') ∈ files) : pid = pid' :=
  Option.some.inj ((h.accessId ha).symm.trans (h.accessId ha'))

/-- A search through the entries of one bucket. -/
theorem findAcc_eq {c : Call} (pid : Int32) {fs : List OpenFile}
    (h : ∀ f ∈ fs, ∃ data, c.registry.accs f.1 = some data ∧ data.accessId = f.2) :
    findAcc pid (fs.map Prod.fst) c = (.ok (firstFile fs pid), c) := by
  induction fs with
  | nil => rfl
  | cons f fs ih =>
      obtain ⟨data, hdata, hid⟩ := h f List.mem_cons_self
      have hacc : Ker.acc f.1 c = (.ok data, c) := by
        change (Ker.deref (c.registry.accs f.1) : Ker Acc) c = _
        rw [hdata]
        rfl
      rw [List.map_cons, findAcc, Exec.bind_ok hacc, hid]
      by_cases hpid : f.2 = pid
      · rw [if_pos hpid, firstFile, List.find?_cons_of_pos (by simpa using hpid)]
        rfl
      · rw [if_neg hpid, firstFile, List.find?_cons_of_neg (by simpa using hpid)]
        exact ih fun g hg => h g (List.mem_cons_of_mem f hg)

/-- The bucket of an access id has its first file. -/
theorem firstFile_bucket (hash : UInt32 → Fin 32) (files : List OpenFile) (pid : Int32) :
    firstFile (files.filter fun f => hash f.2.toUInt32 = hash pid.toUInt32) pid = firstFile files pid := by
  unfold firstFile
  rw [List.find?_filter]
  congr 2
  funext f
  by_cases hpid : f.2 = pid
  · simp [hpid]
  · simp [hpid]

theorem Registry.Lists.ndmgmFindAcc (h : reg.Lists d dummy files) (free : Bool) (pid : Int32) :
    Ker.call (ndmgmFindAcc free d pid) reg
      = (.ok (if free = true ∧ Sem.dev d ∉ reg.stuck then firstFile files pid else none), reg) := by
  obtain ⟨nddata, hd, -, hentries⟩ := h.dev
  have hpossible : nddata.foaccHtable.possible reg.hashMin pid.toUInt32
      = (files.filter fun f => reg.hashMin f.2.toUInt32 = reg.hashMin pid.toUInt32).map Prod.fst := by
    unfold Hashtable.possible Hashtable.bucket
    rw [hentries, List.filter_map, List.map_map]
    rfl
  have hfind : ∀ own, findAcc pid (nddata.foaccHtable.possible reg.hashMin pid.toUInt32) ⟨reg, own⟩
      = (.ok (firstFile files pid), ⟨reg, own⟩) := by
    intro own
    rw [hpossible, findAcc_eq pid fun f hf => h.acc f (List.mem_of_mem_filter hf), firstFile_bucket]
  refine @Ker.call_of_wp _ (Kernel.ndmgmFindAcc free d pid) reg (fun r reg' => (r, reg') = (.ok _, reg)) ?_
  refine Ker.wp_dev_live hd ?_
  refine Ker.wp_downTrylock (fun hfree hsem => ?_) (fun hbusy => ?_)
  · refine Ker.wp_registry (Exec.wp_bind_ok (hfind _) (Ker.wp_up ?_))
    rw [if_pos ⟨hfree, hsem.2⟩, List.erase_cons_head]
    rfl
  · rw [if_neg fun hlock => hbusy ⟨hlock.1, List.not_mem_nil, hlock.2⟩]
    rfl

end Lookup

/-! ## Operations that leave the open files alone -/

/-- What a file keeps while it is open. -/
def Acc.ident (data : Acc) : Int32 × ServerAccess := (data.accessId, data.server)

/-- The tables and what the files keep are the same. -/
structure Registry.SameOpen (reg reg' : Registry) : Prop where
  devs : ∀ d, (reg'.devs d).map (fun x => (x.dummy, x.foaccHtable))
    = (reg.devs d).map fun x => (x.dummy, x.foaccHtable)
  accs : ∀ a, (reg'.accs a).map Acc.ident = (reg.accs a).map Acc.ident
  nextAcc : reg'.nextAcc = reg.nextAcc

namespace Registry.SameOpen
variable {reg reg' reg'' : Registry} {d : DevId} {nddata nddata' : NetdevData} {a : AccRef} {data data' : Acc}

theorem refl (reg : Registry) : reg.SameOpen reg := ⟨fun _ => rfl, fun _ => rfl, rfl⟩

theorem of_eq (hdevs : reg'.devs = reg.devs) (haccs : reg'.accs = reg.accs) (hnext : reg'.nextAcc = reg.nextAcc) :
    reg.SameOpen reg' :=
  ⟨fun d => by rw [hdevs], fun a => by rw [haccs], hnext⟩

theorem setDev (hd : reg.devs d = some nddata) (hdummy : nddata'.dummy = nddata.dummy)
    (hfiles : nddata'.foaccHtable = nddata.foaccHtable) : reg.SameOpen (reg.setDev d nddata') := by
  refine ⟨fun e => ?_, fun _ => rfl, rfl⟩
  by_cases heq : e = d
  · subst heq
    rw [setDev_self, hd, Option.map_some, Option.map_some, hdummy, hfiles]
  · rw [setDev_of_ne _ _ heq]

theorem setAcc (ha : reg.accs a = some data) (hident : data'.ident = data.ident) :
    reg.SameOpen (reg.setAcc a data') := by
  refine ⟨fun _ => rfl, fun b => ?_, rfl⟩
  by_cases heq : b = a
  · subst heq
    rw [setAcc_self, ha, Option.map_some, Option.map_some, hident]
  · rw [setAcc_of_ne _ _ heq]

end Registry.SameOpen

/-- Same lists. -/
theorem Registry.Lists.same {reg reg' : Registry} {d : DevId} {dummy : Bool} {files : List OpenFile}
    (h : reg.Lists d dummy files) (hsame : reg.SameOpen reg') : reg'.Lists d dummy files := by
  refine ⟨?_, fun f hf => ?_, fun f hf => ?_⟩
  · obtain ⟨x, hd, hdummy, hentries⟩ := h.dev
    have hdev := hsame.devs d
    rw [hd, Option.map_some] at hdev
    obtain ⟨x', hd', hx⟩ := Option.map_eq_some_iff.mp hdev
    obtain ⟨hdummy', hfiles⟩ := Prod.mk.inj hx
    exact ⟨x', hd', hdummy'.trans hdummy, by rw [hfiles, hentries]⟩
  · obtain ⟨data, ha, hid⟩ := h.acc f hf
    have hacc := hsame.accs f.1
    rw [ha, Option.map_some] at hacc
    obtain ⟨data', ha', hident⟩ := Option.map_eq_some_iff.mp hacc
    exact ⟨data', ha', (congrArg Prod.fst hident).trans hid⟩
  · rw [hsame.nextAcc]
    exact h.fresh f hf

/-- Operations that neither open nor close a file, nor execute a request. -/
def FoOp.leavesFiles : FoOp → Bool
  | .accStart .. => false
  | .accDestroy _ => false
  | .execute .. => false
  | _ => true

section Operations
variable {c : Call}

theorem Looks.sameOpen {α : Type} {Q : α → Prop} {r : Except Halt α} {c' : Call} (h : Looks c Q r c') :
    c.registry.SameOpen c'.registry := by
  cases r with
  | ok a =>
      obtain ⟨rfl, -⟩ := h
      exact .refl _
  | error e =>
      rw [h.2]
      exact .refl _

theorem FoOp.exec_sameOpen (env : FoEnv) {op : FoOp} (hop : op.leavesFiles = true) :
    Exec.wp (op.exec env) (fun _ c' => c.registry.SameOpen c'.registry) c := by
  cases op with
  | accStart nddata pid => cases hop
  | accDestroy acc => cases hop
  | execute acc nlh => cases hop
  | enter => exact .refl _
  | findPid minor => exact (ndmgmFindPid_looks env.free minor).mono fun _ _ hr => hr.sameOpen
  | find nlpid => exact (ndmgmFind_looks env.free nlpid).mono fun _ _ hr => hr.sameOpen
  | get nddata =>
      cases nddata with
      | none => exact .refl _
      | some d => exact Ker.wp_dev (fun x hd => .setDev hd rfl rfl) (fun _ => .refl _)
  | put d => exact Ker.wp_dev (fun x hd => .setDev hd rfl rfl) (fun _ => .refl _)
  | findAcc d accessId => exact (ndmgmFindAcc_looks env.free d accessId).mono fun _ _ hr => hr.sameOpen
  | dummy d => exact Ker.wp_dev (fun _ _ => .refl _) (fun _ => .refl _)
  | active acc =>
      refine Ker.wp_acc (fun _ _ => ?_) (fun _ => .refl _)
      exact Ker.wp_dev (fun _ _ => .refl _) (fun _ => .refl _)
  | newReq acc call =>
      refine Ker.wp_acc (fun data _ => ?_) (fun _ => .refl _)
      refine Ker.wp_dev (fun _ _ => ?_) (fun _ => .refl _)
      cases env.addr with
      | none => exact .refl _
      | some p => exact .of_eq rfl rfl rfl
  | foreqAdd acc req => exact Ker.wp_acc (fun data ha => .setAcc ha rfl) (fun _ => .refl _)
  | kzalloc => exact .refl _
  | incseq d => exact Ker.wp_dev (fun nddata hd => .setDev hd rfl rfl) (fun _ => .refl _)
  | setSeq req seq => exact .of_eq rfl rfl rfl
  | netlinkSend d => exact Ker.wp_dev (fun _ _ => .refl _) (fun _ => .refl _)
  | wait req => exact Ker.wp_registry (Exec.wp_ite (fun _ => .refl _) (fun _ => .refl _))
  | freeReq acc req =>
      refine Ker.wp_acc (fun _ _ => ?_) (fun _ => .refl _)
      refine Ker.wp_dev (fun _ _ => ?_) (fun _ => .refl _)
      exact Ker.wp_deref (fun _ _ => .refl _) (fun _ => .refl _)
  | foreqFind acc seq =>
      refine Ker.wp_acc (fun data ha => Ker.wp_registry ?_) (fun _ => .refl _)
      cases foAccForeqFind env.free c.registry.reqs data.queue seq with
      | none => exact .refl _
      | some found => exact .setAcc ha rfl
  | deserializeToreq req data =>
      exact Ker.wp_registry (Ker.wp_ofMem (fun _ _ => .of_eq rfl rfl rfl) (.refl _))
  | complete req => exact .of_eq rfl rfl rfl

end Operations

/-! ## Operations that change the open files -/

/-- `acc->filp`. -/
def Registry.filp (reg : Registry) (a : AccRef) : Option File := (reg.accs a).bind fun data => data.server.filp

theorem Registry.SameOpen.filp {reg reg' : Registry} (h : reg.SameOpen reg') (a : AccRef) :
    reg'.filp a = reg.filp a := by
  have hfilp : ∀ o : Option Acc, (o.bind fun data => data.server.filp)
      = (o.map Acc.ident).bind fun ident => ident.2.filp := by
    intro o
    cases o with
    | none => rfl
    | some data => rfl
  rw [Registry.filp, Registry.filp, hfilp, hfilp, h.accs]

section Changes
variable {c : Call} {d : DevId} {dummy : Bool} {files : List OpenFile}

/-- A new file, in front of the others and without a `filp`; or nothing. -/
def StartsFile (reg : Registry) (d : DevId) (dummy : Bool) (files : List OpenFile) (pid : Int32) :
    Except Halt (Option AccRef) → Registry → Prop
  | .ok (some a), reg' => a = ⟨reg.nextAcc, d⟩ ∧ reg'.Lists d dummy ((a, pid) :: files) ∧
      reg'.nextAcc = reg.nextAcc + 1 ∧ reg'.filp a = none ∧ ∀ b, b ≠ a → reg'.filp b = reg.filp b
  | _, reg' => reg.SameOpen reg'

theorem foAccStart_startsFile (h : c.registry.Lists d dummy files) (env : StartEnv) (pid : Int32) :
    Exec.wp (foAccStart env (some d) pid) (fun r c' => StartsFile c.registry d dummy files pid r c'.registry)
      c := by
  obtain ⟨x, hd, hdummy, hentries⟩ := h.dev
  refine Exec.wp_ite (fun _ => .refl _) (fun _ => ?_)
  refine Ker.wp_dev (fun y hy => ?_) (fun _ => .refl _)
  obtain rfl := Option.some.inj (hd.symm.trans hy)
  refine Exec.wp_ite (fun _ => .refl _) (fun _ => ?_)
  refine Ker.wp_downTrylock (fun _ _ => ?_) (fun _ => .refl _)
  refine Ker.wp_registry (Ker.wp_modify (Ker.wp_modify (Ker.wp_modify ?_)))
  refine wp_ndmgmGet (setDev_self _ _) (Ker.wp_up ?_)
  have hold : ∀ b : AccRef, b ≠ ⟨c.registry.nextAcc, d⟩ → ∀ data : Acc,
      Function.update c.registry.accs ⟨c.registry.nextAcc, d⟩ (some data) b = c.registry.accs b :=
    fun b hb data => Function.update_of_ne hb ..
  refine ⟨rfl, ⟨⟨_, setDev_self _ _, hdummy, ?_⟩, fun f hf => ?_, fun f hf => ?_⟩, rfl, ?_, fun b hb => ?_⟩
  · change (pid.toUInt32, _) :: x.foaccHtable.entries = _
    rw [hentries]
    rfl
  · rcases List.mem_cons.mp hf with rfl | hf
    · exact ⟨_, Function.update_self .., rfl⟩
    · have hne : f.1 ≠ ⟨c.registry.nextAcc, d⟩ := fun heq =>
        Nat.lt_irrefl _ ((congrArg AccRef.id heq) ▸ (h.fresh f hf).1)
      obtain ⟨data, hdata, hid⟩ := h.acc f hf
      exact ⟨data, (hold f.1 hne _).trans hdata, hid⟩
  · rcases List.mem_cons.mp hf with rfl | hf
    · exact ⟨Nat.lt_succ_self _, rfl⟩
    · exact ⟨Nat.lt_succ_of_lt (h.fresh f hf).1, (h.fresh f hf).2⟩
  · change (Function.update c.registry.accs ⟨c.registry.nextAcc, d⟩ (some _) ⟨c.registry.nextAcc, d⟩).bind _ = none
    rw [Function.update_self]
    rfl
  · exact congrArg (Option.bind · _) (hold b hb _)

/-- The file is gone, and the others are as before. -/
def DestroysFile (reg : Registry) (d : DevId) (dummy : Bool) (files : List OpenFile) (a : AccRef) :
    Except Halt Unit → Registry → Prop
  | .ok _, reg' => reg'.Lists d dummy (files.filter fun f => f.1 ≠ a) ∧ reg'.nextAcc = reg.nextAcc ∧
      ∀ b, b ≠ a → reg'.filp b = reg.filp b
  | .error _, reg' => reg.SameOpen reg'

theorem foAccDestroy_destroysFile (h : c.registry.Lists d dummy files) {a : AccRef} (ha : a.nddata = d) :
    Exec.wp (foAccDestroy a) (fun r c' => DestroysFile c.registry d dummy files a r c'.registry) c := by
  subst ha
  obtain ⟨x, hd, hdummy, hentries⟩ := h.dev
  refine Ker.wp_acc (fun _ _ => ?_) (fun _ => .refl _)
  refine Ker.wp_dev (fun _ _ => ?_) (fun _ => .refl _)
  refine Ker.wp_downWrite (fun _ => ?_) (fun _ => .refl _) (fun _ _ => .refl _)
  refine Ker.wp_dev_live hd ?_
  refine Ker.wp_modify (wp_ndmgmPut (setDev_self _ _) (Ker.wp_up ?_))
  have hold : ∀ b : AccRef, b ≠ a → Function.update c.registry.accs a none b = c.registry.accs b :=
    fun b hb => Function.update_of_ne hb ..
  refine ⟨⟨⟨_, setDev_self _ _, hdummy, ?_⟩, fun f hf => ?_, fun f hf => ?_⟩, rfl, fun b hb => ?_⟩
  · change x.foaccHtable.entries.filter _ = _
    rw [hentries, List.filter_map]
    rfl
  · obtain ⟨hf, hne⟩ := List.mem_filter.mp hf
    obtain ⟨data, hdata, hid⟩ := h.acc f hf
    exact ⟨data, (hold f.1 (of_decide_eq_true hne)).trans hdata, hid⟩
  · exact h.fresh f (List.mem_of_mem_filter hf)
  · exact congrArg (Option.bind · _) (hold b hb)

/-- An open replaces the `filp` of the file that it is executed on, and nothing else
happens to the open files. -/
def ExecutesOn (reg : Registry) (env : HandlerEnv) (a : AccRef) (nlh : NlMessage) :
    Except Halt Int32 → Registry → Prop
  | .ok r, reg' => r ≠ -1 ∧ reg'.filp a = (if nlh.msgtype = MSGT_FO_OPEN then env.opened else reg.filp a) ∧
      (∀ d dummy files, reg.Lists d dummy files → reg'.Lists d dummy files) ∧
      reg'.nextAcc = reg.nextAcc ∧ ∀ b, b ≠ a → reg'.filp b = reg.filp b
  | .error _, reg' => reg.SameOpen reg'

theorem execute_executesOn (env : FoEnv) (a : AccRef) (nlh : NlMessage) :
    Exec.wp ((FoOp.execute a nlh).exec env)
      (fun r c' => ExecutesOn c.registry env.handler a nlh r c'.registry) c := by
  refine Ker.wp_acc (fun data ha => ?_) (fun _ => .refl _)
  refine Ker.wp_dev (fun _ _ => ?_) (fun _ => .refl _)
  refine Ker.wp_ofMem (fun result hresult => ?_) (.refl _)
  refine ⟨?_, ?_, fun d dummy files h => ⟨h.dev, fun f hf => ?_, h.fresh⟩, rfl, fun b hb => ?_⟩
  · rcases foExecute_rvalue hresult with hr | hr
    · rw [hr]
      decide
    · rw [hr]
      decide
  · change (Function.update c.registry.accs a (some { data with server := result.acc }) a).bind _ = _
    rw [Function.update_self, Option.bind_some, foExecute_acc hresult, Registry.filp, ha, Option.bind_some]
    by_cases hopen : nlh.msgtype = MSGT_FO_OPEN
    · simp only [hopen, if_true]
    · simp only [hopen, if_false]
  · obtain ⟨old, hold, hid⟩ := h.acc f hf
    by_cases heq : f.1 = a
    · rw [heq] at hold ⊢
      obtain rfl := Option.some.inj (ha.symm.trans hold)
      exact ⟨_, Function.update_self .., hid⟩
    · exact ⟨old, (Function.update_of_ne heq ..).trans hold, hid⟩
  · exact congrArg (Option.bind · _) (Function.update_of_ne hb ..)

end Changes

/-! ## What an operation means for the open files -/

inductive FileEvent where
  | lookup (d : DevId) (pid : Int32) (acc : Option AccRef)
  | start (d : Option DevId) (pid : Int32) (acc : Option AccRef)
  | destroy (acc : AccRef)
  | kind (d : DevId) (dummy : Bool)
  | execute (acc : AccRef) (nlh : NlMessage) (rvalue : Int32)
  /-- `fo_acc_foreq_find`. -/
  | search (acc : AccRef)
  | complete
  | send (sent : Bool)
  | wait
  | other

def FoOp.event : (op : FoOp) → op.Res → FileEvent
  | .findAcc d pid, found => .lookup d pid found
  | .accStart d pid, started => .start d pid started
  | .accDestroy acc, _ => .destroy acc
  | .dummy d, isDummy => .kind d isDummy
  | .execute acc nlh, rvalue => .execute acc nlh rvalue
  | .foreqFind acc _, _ => .search acc
  | .complete _, _ => .complete
  | .netlinkSend _, rvalue => .send (!decide (rvalue < 0))
  | .wait _, _ => .wait
  | _, _ => .other

/-- What is the same in both registries, for every list of open files. -/
def FileEvent.Effect (env : FoEnv) (reg : Registry) (d : DevId) (dummy : Bool) (files : List OpenFile)
    (reg' : Registry) : FileEvent → Prop
  | .lookup d' pid acc => reg.SameOpen reg' ∧
      (d' = d → acc = if env.free = true ∧ Sem.dev d ∉ reg.stuck then firstFile files pid else none)
  | .start d' pid acc => d' = some d → StartsFile reg d dummy files pid (.ok acc) reg'
  | .destroy acc => acc.nddata = d → DestroysFile reg d dummy files acc (.ok ()) reg'
  | .execute acc nlh rvalue => ExecutesOn reg env.handler acc nlh (.ok rvalue) reg'
  | .kind d' isDummy => reg.SameOpen reg' ∧ (d' = d → isDummy = dummy)
  | _ => reg.SameOpen reg'

section Effects
variable {reg reg' : Registry} {d : DevId} {dummy : Bool} {files : List OpenFile} {α : Type} {m : Ker α}

/-- What a call does to the open files does not depend on the semaphores that it keeps. -/
theorem call_registry {Q : Except Halt α → Registry → Prop} {r : Except Halt α}
    (h : Exec.wp m (fun r c' => Q r c'.registry) ⟨reg, []⟩)
    (hstuck : ∀ r reg' stuck, Q r reg' → Q r { reg' with stuck }) (hcall : Ker.call m reg = (r, reg')) :
    Q r reg' := by
  obtain ⟨rfl, rfl⟩ := Prod.mk.inj hcall
  exact hstuck _ _ _ h

theorem call_sameOpen {r : Except Halt α}
    (h : Exec.wp m (fun _ c' => reg.SameOpen c'.registry) ⟨reg, []⟩) (hcall : Ker.call m reg = (r, reg')) :
    reg.SameOpen reg' :=
  call_registry (Q := fun _ reg' => reg.SameOpen reg') h (fun _ _ _ hsame => ⟨hsame.devs, hsame.accs, hsame.nextAcc⟩)
    hcall

theorem FoOp.effect (h : reg.Lists d dummy files) {env : FoEnv} {op : FoOp} {r : op.Res}
    (hcall : Ker.call (op.exec env) reg = (.ok r, reg')) :
    (op.event r).Effect env reg d dummy files reg' := by
  have hsame : op.leavesFiles = true → reg.SameOpen reg' := fun hop =>
    call_sameOpen (@FoOp.exec_sameOpen ⟨reg, []⟩ env op hop) hcall
  cases op with
  | findAcc d' pid =>
      refine ⟨hsame rfl, ?_⟩
      rintro rfl
      have hfind := (h.ndmgmFindAcc env.free pid).symm.trans hcall
      exact (Except.ok.inj (congrArg Prod.fst hfind)).symm
  | accStart d' pid =>
      rintro rfl
      refine call_registry (foAccStart_startsFile (c := ⟨reg, []⟩) h env.start pid)
        (fun r reg' stuck hstart => ?_) hcall
      cases r with
      | error e => exact ⟨hstart.devs, hstart.accs, hstart.nextAcc⟩
      | ok a =>
          cases a with
          | none => exact ⟨hstart.devs, hstart.accs, hstart.nextAcc⟩
          | some a =>
              obtain ⟨ha, hlists, hnext, hnew, hold⟩ := hstart
              exact ⟨ha, ⟨hlists.dev, hlists.acc, hlists.fresh⟩, hnext, hnew, hold⟩
  | accDestroy a =>
      intro ha
      refine call_registry (foAccDestroy_destroysFile (c := ⟨reg, []⟩) h ha) (fun r reg' stuck hdestroy => ?_) hcall
      cases r with
      | error e => exact ⟨hdestroy.devs, hdestroy.accs, hdestroy.nextAcc⟩
      | ok _ =>
          obtain ⟨hlists, hnext, hold⟩ := hdestroy
          exact ⟨⟨hlists.dev, hlists.acc, hlists.fresh⟩, hnext, hold⟩
  | execute a nlh =>
      refine call_registry (execute_executesOn (c := ⟨reg, []⟩) env a nlh) (fun r reg' stuck hexec => ?_) hcall
      cases r with
      | error e => exact ⟨hexec.devs, hexec.accs, hexec.nextAcc⟩
      | ok rvalue =>
          obtain ⟨hne, hfilp, hlists, hnext, hold⟩ := hexec
          refine ⟨hne, hfilp, fun d dummy files hl => ?_, hnext, hold⟩
          have hl' := hlists d dummy files hl
          exact ⟨hl'.dev, hl'.acc, hl'.fresh⟩
  | dummy d' =>
      refine ⟨hsame rfl, ?_⟩
      rintro rfl
      obtain ⟨x, hd, hdummy, -⟩ := h.dev
      refine call_registry (Q := fun r _ => ∀ b, r = .ok b → b = dummy) ?_ (fun _ _ _ hb => hb) hcall r rfl
      refine Ker.wp_dev (fun y hy => ?_) (fun _ _ hb => nomatch hb)
      obtain rfl := Option.some.inj (hd.symm.trans hy)
      intro b hb
      obtain rfl := Except.ok.inj hb
      exact hdummy
  | _ => exact hsame rfl

/-- A call that stops leaves the open files. -/
theorem FoOp.error_sameOpen {env : FoEnv} {op : FoOp} {e : Halt}
    (hcall : Ker.call (op.exec env) reg = (.error e, reg')) : reg.SameOpen reg' := by
  have herror : ∀ {β : Type} {m : Ker β} {reg'' : Registry}, Ker.call m reg = (.error e, reg'') →
      Exec.wp m (fun r c' => ∀ e, r = .error e → reg.SameOpen c'.registry) ⟨reg, []⟩ → reg.SameOpen reg'' := by
    intro β m reg'' hm hwp
    refine call_registry (Q := fun r reg' => ∀ e, r = .error e → reg.SameOpen reg') hwp ?_ hm e rfl
    intro r reg' stuck hsame e' he'
    exact ⟨(hsame e' he').devs, (hsame e' he').accs, (hsame e' he').nextAcc⟩
  cases op with
  | accStart nddata pid =>
      refine herror hcall ?_
      cases nddata with
      | none => exact fun _ he => nomatch he
      | some d =>
          refine Exec.wp_ite (fun _ _ he => nomatch he) (fun _ => ?_)
          refine Ker.wp_dev (fun x hd => ?_) (fun _ _ _ => .refl _)
          refine Exec.wp_ite (fun _ _ he => nomatch he) (fun _ => ?_)
          refine Ker.wp_downTrylock (fun _ _ => ?_) (fun _ _ he => nomatch he)
          refine Ker.wp_registry (Ker.wp_modify (Ker.wp_modify (Ker.wp_modify ?_)))
          exact wp_ndmgmGet (setDev_self _ _) (Ker.wp_up fun _ he => nomatch he)
  | accDestroy a =>
      refine herror hcall ?_
      refine Ker.wp_acc (fun _ _ => ?_) (fun _ _ _ => .refl _)
      refine Ker.wp_dev (fun _ hd => ?_) (fun _ _ _ => .refl _)
      refine Ker.wp_downWrite (fun _ => ?_) (fun _ _ _ => .refl _) (fun _ _ _ _ => .refl _)
      refine Ker.wp_dev_live hd ?_
      exact Ker.wp_modify (wp_ndmgmPut (setDev_self _ _) (Ker.wp_up fun _ he => nomatch he))
  | execute a nlh =>
      refine herror hcall ((execute_executesOn (c := ⟨reg, []⟩) env a nlh).mono fun r c' hexec e he => ?_)
      subst he
      exact hexec
  | _ => exact call_sameOpen (@FoOp.exec_sameOpen ⟨reg, []⟩ env _ rfl) hcall

end Effects

end Netdev.Kernel
