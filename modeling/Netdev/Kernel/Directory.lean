-- SUMMARY: The abstract directory of devices, and that the registry implements it when messages are handled one at a time.
import Netdev.Kernel.Lifetime
import Netdev.Kernel.Register

/-!
# The directory of devices

What the registry is for: a list of the devices that are registered, newest first, and
the minors that are taken. As long as no other thread holds a lock and no file is open,
the registry is such a directory, and each message of a daemon changes it in one way.
-/

namespace Netdev.Kernel
open Base Registry

/-! ## The abstract directory -/

structure Device where
  id : DevId
  nlpid : Int32
  dummy : Bool
  minor : Nat
  deriving DecidableEq

structure Directory where
  devices : List Device
  minors : Minors
  next : DevId

namespace Directory

def add (dir : Directory) (nlpid : Int32) (dummy : Bool) (minor : Nat) : Directory :=
  { dir with devices := ⟨dir.next, nlpid, dummy, minor⟩ :: dir.devices, next := dir.next + 1 }

def remove (dir : Directory) (e : Device) : Directory :=
  { dir with devices := dir.devices.filter fun x => x.id ≠ e.id }

/-- The newest device with this pid; -1 is the pid of nobody. -/
def find (dir : Directory) (nlpid : Int32) : Option Device :=
  if nlpid = -1 then none else dir.devices.find? fun e => e.nlpid = nlpid

/-- What a message does. A minor that was taken stays so when the device cannot be made. -/
inductive Step : Directory → Control → Directory → Prop where
  | server {dir : Directory} {env : CreateEnv} {pid : Int32} (halloc : env.alloc = true) :
      Step dir (.regServer env pid) (dir.add pid false 0)
  | noServer {dir : Directory} {env : CreateEnv} {pid : Int32} (halloc : env.alloc = false) :
      Step dir (.regServer env pid) dir
  | outside {dir : Directory} {env : CreateEnv} {pid : Int32} (hget : ∀ r, dir.minors.get pid ≠ .ok r) :
      Step dir (.regDummy env pid) dir
  | noMinor {dir : Directory} {env : CreateEnv} {pid : Int32} {m : Minors}
      (hget : dir.minors.get pid = .ok (none, m)) : Step dir (.regDummy env pid) { dir with minors := m }
  | noDummy {dir : Directory} {env : CreateEnv} {pid : Int32} {minor : Nat} {m : Minors} {next : DevId}
      (hget : dir.minors.get pid = .ok (some minor, m)) (hnext : dir.next ≤ next) :
      Step dir (.regDummy env pid) { dir with minors := m, next }
  | dummy {dir : Directory} {env : CreateEnv} {pid : Int32} {minor : Nat} {m : Minors}
      (hget : dir.minors.get pid = .ok (some minor, m))
      (hok : env.alloc = true ∧ env.cdevAdd = 0 ∧ env.deviceCreate = 0) :
      Step dir (.regDummy env pid) ({ dir with minors := m }.add pid true minor)
  | unknown {dir : Directory} {env : DestroyEnv} {pid : Int32} (hfind : dir.find pid = none) :
      Step dir (.unregister env pid) dir
  | remove {dir : Directory} {env : DestroyEnv} {pid : Int32} {e : Device} (hfind : dir.find pid = some e)
      (hserver : e.dummy = false) : Step dir (.unregister env pid) (dir.remove e)
  | removeDummy {dir : Directory} {env : DestroyEnv} {pid : Int32} {e : Device} {m : Minors}
      (hfind : dir.find pid = some e) (hdummy : e.dummy = true)
      (hput : dir.minors.put e.minor = .ok m) :
      Step dir (.unregister env pid) ({ dir with minors := m }.remove e)

/-- The minors stay inside their table. -/
structure Bounded (dir : Directory) : Prop where
  max : dir.minors.Bounded
  minor : ∀ e ∈ dir.devices, e.dummy = true → e.minor < NETDEV_MAX_DEVICES

variable {dir dir' : Directory} {msg : Control} {e : Device} {pid : Int32}

theorem find_eq (h : dir.find pid = some e) : pid ≠ -1 ∧ e.nlpid = pid ∧ e ∈ dir.devices := by
  unfold find at h
  by_cases hpid : pid = -1
  · rw [if_pos hpid] at h
    exact nomatch h
  · rw [if_neg hpid] at h
    have hfound := @List.find?_some _ _ _ dir.devices h
    exact ⟨hpid, of_decide_eq_true hfound, List.mem_of_find?_eq_some h⟩

theorem mem_remove {x : Device} : x ∈ (dir.remove e).devices ↔ x ∈ dir.devices ∧ x.id ≠ e.id := by
  rw [remove, List.mem_filter, decide_eq_true_eq]

theorem Bounded.step (h : dir.Bounded) (hstep : Step dir msg dir') : dir'.Bounded := by
  cases hstep with
  | server =>
      refine ⟨h.max, fun e he hdummy => ?_⟩
      rcases List.mem_cons.mp he with rfl | he
      · cases hdummy
      · exact h.minor e he hdummy
  | noServer => exact h
  | outside => exact h
  | noMinor hget => exact ⟨Minors.get_bounded h.max hget, h.minor⟩
  | noDummy hget => exact ⟨Minors.get_bounded h.max hget, h.minor⟩
  | dummy hget =>
      refine ⟨Minors.get_bounded h.max hget, fun e he hdummy => ?_⟩
      rcases List.mem_cons.mp he with rfl | he
      · exact Minors.lt_of_used ((Minors.get_eq hget).2 _ rfl).1.free
      · exact h.minor e he hdummy
  | unknown => exact h
  | remove => exact ⟨h.max, fun e he => h.minor e (mem_remove.mp he).1⟩
  | @removeDummy env pid e m hfind hdummy hput =>
      obtain ⟨m', hput', -, hbound⟩ := Minors.put_ok (h.minor e (find_eq hfind).2.2 hdummy) h.max
      obtain rfl := Except.ok.inj (hput.symm.trans hput')
      exact ⟨hbound, fun e he => h.minor e (mem_remove.mp he).1⟩

end Directory

/-! ## The registry as a directory -/

/-- The registry is this directory: no lock is held for ever, and each device has
the reference of the table, no open file, and its first state. -/
structure Registry.Represents (reg : Registry) (dir : Directory) : Prop where
  wf : reg.Wf
  table : reg.netdevHtable.entries = dir.devices.map fun e => (e.nlpid.toUInt32, e.id)
  live : ∀ e ∈ dir.devices, reg.devs e.id = some (.registered e.nlpid e.dummy e.minor)
  only : ∀ d, reg.devs d ≠ none → ∃ e ∈ dir.devices, e.id = d
  minors : reg.minors = some dir.minors
  next : reg.nextDev = dir.next
  stuck : reg.stuck = []

namespace Registry.Represents
variable {reg : Registry} {dir : Directory} {own : List Sem}

theorem prepare (hashMin : UInt32 → Fin 32) (reqs : Requests) :
    (Registry.prepare hashMin reqs).Represents ⟨[], .prepare, 0⟩ where
  wf := prepare_wf hashMin reqs
  table := rfl
  live _ he := (List.not_mem_nil he).elim
  only _ h := absurd rfl h
  minors := rfl
  next := rfl
  stuck := rfl

theorem values (h : reg.Represents dir) : reg.netdevHtable.values = dir.devices.map Device.id := by
  rw [Hashtable.values, h.table, List.map_map]
  rfl

theorem free (h : reg.Represents dir) (sem : Sem) : Ker.Free ⟨reg, []⟩ sem := by
  refine ⟨List.not_mem_nil, ?_⟩
  change sem ∉ reg.stuck
  rw [h.stuck]
  exact List.not_mem_nil

/-! ## Lookups -/

theorem toUInt32_inj {a b : Int32} : a.toUInt32 = b.toUInt32 ↔ a = b :=
  ⟨fun h => congrArg UInt32.toInt32 h, congrArg Int32.toUInt32⟩

/-- Going through a list of live devices. -/
theorem findDev (h : reg.Represents dir) (nlpid : Int32) {ds : List Device}
    (hds : ∀ e ∈ ds, e ∈ dir.devices) :
    findDev nlpid (ds.map Device.id) ⟨reg, own⟩
      = (.ok ((ds.find? fun e => e.nlpid = nlpid).map Device.id), ⟨reg, own⟩) := by
  induction ds with
  | nil => rfl
  | cons e ds ih =>
      have hlive := h.live e (hds e List.mem_cons_self)
      have hrest := ih fun x hx => hds x (List.mem_cons_of_mem e hx)
      have hpid : (NetdevData.registered e.nlpid e.dummy e.minor).nlpid = nlpid.toUInt32 ↔ e.nlpid = nlpid :=
        toUInt32_inj
      refine Prod.ext_iff.mpr (Ker.wp_dev_live (c := ⟨reg, own⟩) (Q := fun r c' => r = _ ∧ c' = _) hlive ?_)
      by_cases heq : e.nlpid = nlpid
      · have hfind : (e :: ds).find? (fun e => e.nlpid = nlpid) = some e := by simp [heq]
        rw [if_pos (hpid.mpr heq), hfind]
        exact ⟨rfl, rfl⟩
      · have hfind : (e :: ds).find? (fun e => e.nlpid = nlpid) = ds.find? fun e => e.nlpid = nlpid := by
          simp [heq]
        rw [if_neg (hpid.not.mpr heq), hfind]
        exact Prod.ext_iff.mp hrest

/-- A bucket is a part of the directory. -/
theorem possible (h : reg.Represents dir) (k : UInt32) :
    reg.netdevHtable.possible reg.hashMin k
      = (dir.devices.filter fun e => reg.hashMin e.nlpid.toUInt32 = reg.hashMin k).map Device.id := by
  rw [Hashtable.possible, Hashtable.bucket, h.table, List.filter_map, List.map_map]
  rfl

/-- A device with this pid is in the bucket of the pid. -/
theorem find_bucket (hash : UInt32 → Fin 32) (nlpid : Int32) (ds : List Device) :
    (ds.filter fun e => hash e.nlpid.toUInt32 = hash nlpid.toUInt32).find? (fun e => e.nlpid = nlpid)
      = ds.find? fun e => e.nlpid = nlpid := by
  rw [List.find?_filter]
  refine congrArg (List.find? · ds) (funext fun e => ?_)
  by_cases heq : e.nlpid = nlpid
  · simp [heq]
  · simp [heq]

/-- `ndmgm_find` looks the device up in the directory. -/
theorem ndmgmFind (h : reg.Represents dir) (nlpid : Int32) :
    ndmgmFind true nlpid ⟨reg, []⟩ = (.ok ((dir.find nlpid).map Device.id), ⟨reg, []⟩) := by
  unfold Kernel.ndmgmFind Directory.find
  by_cases hpid : nlpid = -1
  · rw [if_pos hpid, if_pos hpid]
    rfl
  · rw [if_neg hpid, if_neg hpid]
    have hbucket := @findDev _ _ [.htable] h nlpid
      (dir.devices.filter fun e => reg.hashMin e.nlpid.toUInt32 = reg.hashMin nlpid.toUInt32)
      (fun e he => List.mem_of_mem_filter he)
    rw [← h.possible, find_bucket] at hbucket
    refine Prod.ext_iff.mpr (Ker.wp_downTrylock (c := ⟨reg, []⟩) (Q := fun r c' => r = _ ∧ c' = _)
      (fun _ _ => ?_) (fun hbusy => absurd ⟨rfl, h.free _⟩ hbusy))
    exact Ker.wp_registry (Exec.wp_bind_ok hbucket (Ker.wp_up ⟨rfl, rfl⟩))

/-- `ndmgm_find_pid` reads the table of the minors. -/
theorem ndmgmFindPid (h : reg.Represents dir) {minor : Nat} {pid : Int32}
    (hused : dir.minors.used[minor]? = some pid) :
    ndmgmFindPid true minor ⟨reg, []⟩ = (.ok pid, ⟨reg, []⟩) := by
  have hread : dir.minors.read minor = .ok pid := by
    rw [Minors.read, hused]
  refine Prod.ext_iff.mpr (Ker.wp_downTrylock (c := ⟨reg, []⟩) (Q := fun r c' => r = _ ∧ c' = _)
    (fun _ _ => ?_) (fun hbusy => absurd ⟨rfl, h.free _⟩ hbusy))
  refine Ker.wp_registry (Ker.wp_deref_live h.minors ?_)
  refine Ker.wp_ofMem_error (fun r hr => Ker.wp_up ?_) (fun e he => by cases hread.symm.trans he)
  obtain rfl := Except.ok.inj (hr.symm.trans hread)
  exact ⟨rfl, rfl⟩

/-! ## Changes -/

theorem lt_next (h : reg.Represents dir) {e : Device} (he : e ∈ dir.devices) : e.id < dir.next := by
  rw [← h.next]
  exact h.wf.devs_lt e.id ((h.live e he).trans_ne (Option.some_ne_none _))

theorem setMinors (h : reg.Represents dir) (m : Minors) :
    ({ reg with minors := some m } : Registry).Represents { dir with minors := m } where
  wf := (@Balanced.of_eq reg { reg with minors := some m } h.wf rfl rfl rfl rfl rfl).wf
  table := h.table
  live := h.live
  only := h.only
  minors := rfl
  next := h.next
  stuck := h.stuck

theorem abandon (h : reg.Represents dir) (hwf : reg.abandon.Wf) :
    reg.abandon.Represents { dir with next := dir.next + 1 } where
  wf := hwf
  table := h.table
  live e he := by
    rw [abandon_of_ne (Nat.ne_of_lt (h.next ▸ h.lt_next he))]
    exact h.live e he
  only d hd := by
    by_cases hnew : d = reg.nextDev
    · subst hnew
      exact absurd (Function.update_self ..) hd
    · rw [abandon_of_ne hnew] at hd
      exact h.only d hd
  minors := h.minors
  next := congrArg (· + 1) h.next
  stuck := h.stuck

theorem register (h : reg.Represents dir) {nlpid : Int32} {dummy : Bool} {minor : Nat}
    (hwf : (reg.register nlpid dummy minor).Wf) :
    (reg.register nlpid dummy minor).Represents (dir.add nlpid dummy minor) where
  wf := hwf
  table := by
    change (nlpid.toUInt32, reg.nextDev) :: reg.netdevHtable.entries = _
    rw [h.table, h.next]
    rfl
  live e he := by
    rcases List.mem_cons.mp he with rfl | he
    · change (reg.register nlpid dummy minor).devs dir.next = _
      rw [← h.next]
      exact Function.update_self ..
    · rw [register_of_ne (Nat.ne_of_lt (h.next ▸ h.lt_next he))]
      exact h.live e he
  only d hd := by
    by_cases hnew : d = reg.nextDev
    · exact ⟨_, List.mem_cons_self, (hnew.trans h.next).symm⟩
    · rw [register_of_ne hnew] at hd
      obtain ⟨e, he, hid⟩ := h.only d hd
      exact ⟨e, List.mem_cons_of_mem _ he, hid⟩
  minors := h.minors
  next := congrArg (· + 1) h.next
  stuck := h.stuck

/-- A device is taken out of the table and freed. -/
theorem remove (h : reg.Represents dir) {e : Device} {m : Minors} {x y : NetdevData}
    (hwf : ({ (((reg.unhash e.id).setDev e.id x).setDev e.id y) with minors := some m } : Registry).freeDev
      e.id |>.Wf) :
    (({ (((reg.unhash e.id).setDev e.id x).setDev e.id y) with minors := some m } : Registry).freeDev
      e.id).Represents ({ dir with minors := m }.remove e) := by
  have hother : ∀ d ≠ e.id, (({ (((reg.unhash e.id).setDev e.id x).setDev e.id y) with
      minors := some m } : Registry).freeDev e.id).devs d = reg.devs d := by
    intro d hd
    rw [freeDev_of_ne _ hd]
    exact (setDev_of_ne _ _ hd).trans (setDev_of_ne _ _ hd)
  refine ⟨hwf, ?_, fun x hx => ?_, fun d hd => ?_, rfl, h.next, h.stuck⟩
  · change reg.netdevHtable.entries.filter _ = _
    rw [h.table, List.filter_map]
    rfl
  · obtain ⟨hx, hne⟩ := Directory.mem_remove.mp hx
    rw [hother x.id hne]
    exact h.live x hx
  · by_cases heq : d = e.id
    · subst heq
      exact absurd (freeDev_self _) hd
    · rw [hother d heq] at hd
      obtain ⟨x, hx, rfl⟩ := h.only d hd
      exact ⟨x, Directory.mem_remove.mpr ⟨hx, heq⟩, rfl⟩

end Registry.Represents

/-! ## Messages -/

/-- No lock that the message asks for is held by another thread. -/
def Control.Uncontended : Control → Prop
  | .regDummy env _ => env.minor = true
  | .regServer .. => True
  | .unregister env _ => env = .all

namespace Registry.Represents
variable {reg : Registry} {dir : Directory}

theorem regDummy (h : reg.Represents dir) (hbound : dir.Bounded) {env : CreateEnv} {pid : Int32}
    (hfree : env.minor = true) (hwf : ((Control.regDummy env pid).after reg).Wf) :
    ∃ dir', Directory.Step dir (.regDummy env pid) dir' ∧
      ((Control.regDummy env pid).after reg).Represents dir' := by
  have hlock : GetsLock ⟨reg, []⟩ env.minor := ⟨hfree, h.free _⟩
  refine Ker.call_of_wp (P := fun _ reg' => reg'.Wf → ∃ dir', Directory.Step dir (.regDummy env pid) dir' ∧
    reg'.Represents dir') ((ndmgmCreateDummy_spec (c := ⟨reg, []⟩) env pid).mono ?_) hwf
  intro r c' hr hwf
  cases hr with
  | noMinor hminor =>
      cases hminor with
      | busy hbusy => exact absurd hlock hbusy
      | limit _ hm hmax =>
          obtain rfl := Option.some.inj (h.minors.symm.trans hm)
          exact absurd hmax (Nat.ne_of_lt hbound.max)
      | got _ hm hget =>
          obtain rfl := Option.some.inj (h.minors.symm.trans hm)
          exact ⟨_, .noMinor hget, h.setMinors _⟩
  | fault hminor =>
      cases hminor with
      | dead _ hnone => exact nomatch h.minors.symm.trans hnone
      | outside _ hm _ hget =>
          obtain rfl := Option.some.inj (h.minors.symm.trans hm)
          exact ⟨_, .outside hget, h⟩
  | minor hminor hcreated =>
      cases hminor with
      | @got _ m _ _ hm hget =>
          obtain rfl := Option.some.inj (h.minors.symm.trans hm)
          have hminors := h.setMinors m
          cases hcreated with
          | noMemory => exact ⟨_, .noDummy hget le_rfl, hminors⟩
          | failed => exact ⟨_, .noDummy hget (Nat.le_succ _), hminors.abandon hwf⟩
          | created halloc hcdev hdevice =>
              exact ⟨_, .dummy hget ⟨halloc, hcdev, hdevice⟩, hminors.register hwf⟩

theorem regServer (h : reg.Represents dir) {env : CreateEnv} {pid : Int32}
    (hwf : ((Control.regServer env pid).after reg).Wf) :
    ∃ dir', Directory.Step dir (.regServer env pid) dir' ∧
      ((Control.regServer env pid).after reg).Represents dir' := by
  refine Ker.call_of_wp (P := fun _ reg' => reg'.Wf → ∃ dir', Directory.Step dir (.regServer env pid) dir' ∧
    reg'.Represents dir') ((ndmgmCreateServer_spec (c := ⟨reg, []⟩) env pid).mono ?_) hwf
  intro r c' hr hwf
  cases hr with
  | failed halloc => exact ⟨_, .noServer halloc, h⟩
  | created halloc => exact ⟨_, .server halloc, h.register hwf⟩

theorem unregister (h : reg.Represents dir) (hbound : dir.Bounded) {pid : Int32}
    (hwf : ((Control.unregister .all pid).after reg).Wf) :
    ∃ dir', Directory.Step dir (.unregister .all pid) dir' ∧
      ((Control.unregister .all pid).after reg).Represents dir' := by
  have hlookup := h.ndmgmFind pid
  cases hfind : dir.find pid with
  | none =>
      rw [hfind] at hlookup
      refine Ker.call_of_wp (P := fun _ reg' => ∃ dir', Directory.Step dir (.unregister .all pid) dir' ∧
        reg'.Represents dir') (Exec.wp_bind_ok hlookup ?_)
      exact ⟨dir, .unknown hfind, h⟩
  | some e =>
      rw [hfind] at hlookup
      have hmem := (Directory.find_eq hfind).2.2
      refine Ker.call_of_wp (P := fun _ reg' => reg'.Wf → ∃ dir', Directory.Step dir (.unregister .all pid) dir' ∧
        reg'.Represents dir') ((ndmgmFindDestroy_of_find (c := ⟨reg, []⟩) h.wf hlookup (h.live e hmem)).mono
          ?_) hwf
      intro r c' hdestroy hwf
      have hremove : ∀ {m : Minors} hwf, _ := fun {m : Minors} hwf => @remove reg dir h e m
        (NetdevData.registered e.nlpid e.dummy e.minor).put
        (NetdevData.registered e.nlpid e.dummy e.minor).put.deactivated hwf
      have hfree : ∀ sem, Ker.Free ((⟨reg, []⟩ : Call).found .all e.id
          (.registered e.nlpid e.dummy e.minor)) sem := h.free
      cases hdestroy with
      | deadlock hfiles => exact absurd rfl hfiles.files
      | busy hbusy => exact absurd ⟨rfl, hfree _⟩ hbusy
      | kept hdev hfiles hcheck =>
          have hmany : (1 : Int) < 0 := hcheck ⟨hdev, fun _ => ⟨⟨rfl, hfree _⟩, rfl⟩⟩
          exact absurd hmany (by decide)
      | fault hdummy hcheck husers hminors hput =>
          obtain ⟨m, hm, -⟩ := Minors.put_ok (hbound.minor e hmem hdummy) hbound.max
          exact absurd hm (hput _ _ h.minors)
      | @freed minors hcheck husers hdummy hserver =>
          rcases Bool.eq_false_or_eq_true e.dummy with hdum | hdum
          · obtain ⟨m, m', hm, hput, rfl⟩ := (hdummy hdum).locked ⟨rfl, hfree _⟩
            obtain rfl := Option.some.inj (h.minors.symm.trans hm)
            exact ⟨_, .removeDummy hfind hdum hput, hremove hwf⟩
          · obtain rfl : minors = some dir.minors := (hserver hdum).trans h.minors
            exact ⟨_, .remove hfind hdum, hremove hwf⟩

/-- Every message does to the registry what it does to the directory. -/
theorem after (h : reg.Represents dir) (hbound : dir.Bounded) {msg : Control} (hmsg : msg.Uncontended) :
    ∃ dir', Directory.Step dir msg dir' ∧ (msg.after reg).Represents dir' := by
  have hwf : (msg.after reg).Wf := by
    rcases Control.after_balanced h.wf msg with ⟨_, hbal⟩ | hbal
    · exact hbal.wf
    · exact hbal.wf
  cases msg with
  | regDummy env pid => exact h.regDummy hbound hmsg hwf
  | regServer env pid => exact h.regServer hwf
  | unregister env pid =>
      obtain rfl : env = .all := hmsg
      exact h.unregister hbound hwf

end Registry.Represents

/-! ## Runs -/

/-- Messages of daemons whose pids are in `pids`, handled one at a time. -/
def registrations (pids : Int32 → Prop) (hashMin : UInt32 → Fin 32) (reqs : Requests) :
    System Registry Control where
  init reg := reg = .prepare hashMin reqs
  step reg msg reg' := pids msg.pid ∧ msg.Uncontended ∧ reg' = msg.after reg

/-- The registry after a list of messages. -/
def Registry.handle (reg : Registry) (msgs : List Control) : Registry :=
  msgs.foldl (fun reg msg => msg.after reg) reg

theorem run_handle {pids : Int32 → Prop} {hashMin : UInt32 → Fin 32} {reqs : Requests}
    {ls msgs : List Control} {reg : Registry} (hrun : (registrations pids hashMin reqs).Run ls reg)
    (hmsgs : ∀ msg ∈ msgs, pids msg.pid ∧ msg.Uncontended) :
    (registrations pids hashMin reqs).Run (ls ++ msgs) (reg.handle msgs) := by
  induction msgs generalizing ls reg with
  | nil =>
      rw [List.append_nil]
      exact hrun
  | cons msg msgs ih =>
      obtain ⟨hpid, hmsg⟩ := hmsgs msg List.mem_cons_self
      rw [List.append_cons]
      exact ih (hrun.step ⟨hpid, hmsg, rfl⟩) fun x hx => hmsgs x (List.mem_cons_of_mem msg hx)

end Netdev.Kernel
