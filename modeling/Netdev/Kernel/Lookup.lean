-- SUMMARY: When the node of a dummy device leads back to it: minors that are not shared, and pids that are not registered again.
import Netdev.Kernel.Directory
import Netdev.Kernel.Frame

/-!
# From a minor to its device

`ndfo_send_open` knows the minor of the node. The table of the minors has the pid of
the daemon, and the table of the devices is searched for that pid. Both steps lose a
device: the first when a search for a minor has left the table of the minors, the
second when its daemon has registered another device.
-/

namespace Netdev.Kernel
open Base Registry

/-! ## Minors -/

/-- A search for a minor ends inside the table. -/
def Minors.Serves (minors : Minors) : Control → Prop
  | .regDummy .. => minors.Fits
  | _ => True

namespace Directory
variable {dir dir' : Directory} {msg : Control} {e : Device}

/-- The devices after a message: those that were there, and one that the message makes. -/
theorem Step.mem (hstep : Step dir msg dir') (he : e ∈ dir'.devices) :
    e ∈ dir.devices ∨ e.nlpid = msg.pid := by
  cases hstep with
  | server =>
      rcases List.mem_cons.mp he with rfl | he
      · exact .inr rfl
      · exact .inl he
  | dummy =>
      rcases List.mem_cons.mp he with rfl | he
      · exact .inr rfl
      · exact .inl he
  | remove => exact .inl (mem_remove.mp he).1
  | removeDummy => exact .inl (mem_remove.mp he).1
  | _ => exact .inl he

/-- Every minor of a dummy device belongs to its daemon, and to no other device. -/
structure Owned (dir : Directory) : Prop where
  used : ∀ e ∈ dir.devices, e.dummy = true → dir.minors.used[e.minor]? = some e.nlpid
  minor : ∀ e ∈ dir.devices, ∀ x ∈ dir.devices, e.dummy = true → x.dummy = true →
    e.minor = x.minor → e.id = x.id

/-- Taking a minor changes no entry of a device. -/
theorem Owned.setMinors (h : dir.Owned) (hpid : ∀ e ∈ dir.devices, e.dummy = true → e.nlpid ≠ -1)
    {m : Minors} {pid : Int32} {o : Option Nat} (hget : dir.minors.get pid = .ok (o, m)) :
    ({ dir with minors := m } : Directory).Owned := by
  obtain ⟨hnone, hsome⟩ := Minors.get_eq hget
  cases o with
  | none =>
      obtain rfl := hnone rfl
      exact ⟨h.used, h.minor⟩
  | some minor =>
      obtain ⟨htaken, -⟩ := hsome minor rfl
      refine ⟨fun e he hdummy => ?_, h.minor⟩
      exact (Minors.used_of_taken htaken (h.used e he hdummy) (hpid e he hdummy)).2

theorem Owned.step (h : dir.Owned) (hbound : dir.Bounded) (hstep : Step dir msg dir')
    (hpid : ∀ e ∈ dir.devices, e.dummy = true → e.nlpid ≠ -1) : dir'.Owned := by
  cases hstep with
  | server =>
      refine ⟨fun e he hdummy => ?_, fun e he x hx hdummy hdummy' => ?_⟩
      · rcases List.mem_cons.mp he with rfl | he
        · cases hdummy
        · exact h.used e he hdummy
      · rcases List.mem_cons.mp he with rfl | he
        · cases hdummy
        · rcases List.mem_cons.mp hx with rfl | hx
          · cases hdummy'
          · exact h.minor e he x hx hdummy hdummy'
  | noServer => exact h
  | outside => exact h
  | noMinor hget => exact h.setMinors hpid hget
  | noDummy hget => exact ⟨(h.setMinors hpid hget).used, h.minor⟩
  | @dummy env pid minor m hget =>
      obtain ⟨htaken, -⟩ := (Minors.get_eq hget).2 minor rfl
      have hnew : m.used[minor]? = some pid := by
        rw [htaken.used, List.getElem?_set_self]
        exact (List.getElem?_eq_some_iff.mp htaken.free).1
      have hold : ∀ e ∈ dir.devices, e.dummy = true → e.minor ≠ minor := fun e he hdummy =>
        (Minors.used_of_taken htaken (h.used e he hdummy) (hpid e he hdummy)).1
      refine ⟨fun e he hdummy => ?_, fun e he x hx hdummy hdummy' hminor => ?_⟩
      · rcases List.mem_cons.mp he with rfl | he
        · exact hnew
        · exact (h.setMinors hpid hget).used e he hdummy
      · rcases List.mem_cons.mp he with rfl | he
        · rcases List.mem_cons.mp hx with rfl | hx
          · rfl
          · exact absurd hminor.symm (hold x hx hdummy')
        · rcases List.mem_cons.mp hx with rfl | hx
          · exact absurd hminor (hold e he hdummy)
          · exact h.minor e he x hx hdummy hdummy' hminor
  | unknown => exact h
  | remove =>
      refine ⟨fun e he => h.used e (mem_remove.mp he).1, fun e he x hx => ?_⟩
      exact h.minor e (mem_remove.mp he).1 x (mem_remove.mp hx).1
  | @removeDummy env pid e m hfind hdummy hput =>
      have hmem := (find_eq hfind).2.2
      obtain ⟨m', hput', hset, -⟩ := Minors.put_ok (hbound.minor e hmem hdummy) hbound.max
      obtain rfl := Except.ok.inj (hput.symm.trans hput')
      refine ⟨fun x hx hx' => ?_, fun x hx y hy => ?_⟩
      · obtain ⟨hx, hne⟩ := mem_remove.mp hx
        have hminor : e.minor ≠ x.minor := fun heq => hne (h.minor x hx e hmem hx' hdummy heq.symm)
        change m.used[x.minor]? = _
        rw [hset, List.getElem?_set_ne hminor]
        exact h.used x hx hx'
      · exact h.minor x (mem_remove.mp hx).1 y (mem_remove.mp hy).1

end Directory

/-! ## Behind the table -/

/-- The locked part of `ndmgm_get_minor` with the word behind the table: one that is -1
is a free entry as well, and is overwritten. -/
def Minors.getPast (minors : Minors) (word pid : Int32) : Option Nat × Minors :=
  match minors.get pid with
  | .ok r => r
  | .error _ =>
      if word = -1 then
        (some NETDEV_MAX_DEVICES, { minors with max := Nat.max minors.max NETDEV_MAX_DEVICES })
      else
        (none, minors)

/-- `ndmgm_get_minor` with the word behind the table. -/
def ndmgmGetMinorPast (free : Bool) (word pid : Int32) : Ker (Option Nat) := do
  if ← Ker.downTrylock .minor free then
    let minors ← Ker.deref (← Ker.registry).minors
    if minors.max = NETDEV_MAX_DEVICES then
      return none
    else
      let (minor, minors) := minors.getPast word pid
      Ker.modify fun reg => { reg with minors := some minors }
      Ker.up .minor
      return minor
  else
    return none

/-- `ndmgm_create_dummy` with the word behind the table of the minors. -/
def ndmgmCreateDummyPast (env : CreateEnv) (word nlpid : Int32) : Ker Int32 := do
  match ← ndmgmGetMinorPast env.minor word nlpid with
  | none => return 1
  | some minor => publishDummy env nlpid minor

theorem ndmgmGetMinorPast_eq {c : Call} {word : Int32} (free : Bool) (pid : Int32)
    (hfits : ∀ m, c.registry.minors = some m → word = -1 → m.Fits) :
    ndmgmGetMinorPast free word pid c = ndmgmGetMinor free pid c ∨
      (ndmgmGetMinorPast free word pid c = (.ok none, c) ∧ ndmgmGetMinor free pid c = (.error .fault, c)) := by
  obtain ⟨reg, own⟩ := c
  by_cases hlock : free = true ∧ Sem.minor ∉ own ∧ Sem.minor ∉ reg.stuck
  · have htaken : Ker.downTrylock .minor free ⟨reg, own⟩ = (.ok true, ⟨reg, .minor :: own⟩) := by
      change (if _ then _ else _ : Ker Bool) _ = _
      rw [if_pos hlock]
      rfl
    unfold ndmgmGetMinorPast ndmgmGetMinor
    rw [Exec.bind_ok htaken, Exec.bind_ok htaken]
    cases hm : reg.minors with
    | none =>
        left
        change (Ker.deref reg.minors >>= _ : Ker (Option Nat)) _ = (Ker.deref reg.minors >>= _ : Ker (Option Nat)) _
        rw [hm]
        rfl
    | some m =>
        change (Ker.deref reg.minors >>= _ : Ker (Option Nat)) _ = (Ker.deref reg.minors >>= _ : Ker (Option Nat)) _ ∨
          (Ker.deref reg.minors >>= _ : Ker (Option Nat)) _ = _ ∧ (Ker.deref reg.minors >>= _ : Ker (Option Nat)) _ = _
        rw [hm]
        by_cases hmax : m.max = NETDEV_MAX_DEVICES
        · left
          simp [Ker.deref, bind, pure, hmax]
        · cases hget : m.get pid with
          | ok r =>
              left
              simp [Ker.deref, bind, pure, hmax, Minors.getPast, hget]
          | error e =>
              right
              have hword : word ≠ -1 := by
                intro heq
                obtain ⟨r, hr⟩ := @Minors.get_ok m pid (hfits m hm heq)
                exact nomatch hget.symm.trans hr
              have hsame : ({ reg with minors := some m } : Registry) = reg := by rw [← hm]
              simp [Ker.deref, Ker.modify, Ker.up, Exec.modify, Exec.stop, bind, pure, hmax, Minors.getPast, hget, hword,
                hsame]
  · left
    have hbusy : Ker.downTrylock .minor free ⟨reg, own⟩ = (.ok false, ⟨reg, own⟩) := by
      change (if _ then _ else _ : Ker Bool) _ = _
      rw [if_neg hlock]
      rfl
    unfold ndmgmGetMinorPast ndmgmGetMinor
    rw [Exec.bind_ok hbusy, Exec.bind_ok hbusy]
    rfl

/-- The message is handled while `word` lies behind the table of the minors. -/
def Control.execPast (word : Int32) : Control → Ker Int32
  | .regDummy env pid => ndmgmCreateDummyPast env word pid
  | msg => msg.exec

def Control.afterPast (word : Int32) (msg : Control) (reg : Registry) : Registry :=
  (Ker.call (msg.execPast word) reg).2

/-- The registration never looks for a minor outside the table. -/
def Registry.Serves (reg : Registry) (msg : Control) : Prop :=
  ∀ m, reg.minors = some m → m.Serves msg

section Runs
variable {hashMin : UInt32 → Fin 32} {reqs : Requests} {ls : List (Control × Int32)} {reg : Registry}
  {d : DevId} {nddata : NetdevData}

/-- The live device is one of the directory. -/
theorem Registry.Represents.device {dir : Directory} (h : reg.Represents dir)
    (hd : reg.devs d = some nddata) :
    ∃ e ∈ dir.devices, e.id = d ∧ nddata = .registered e.nlpid e.dummy e.minor := by
  obtain ⟨e, he, rfl⟩ := h.only d (hd.trans_ne (Option.some_ne_none _))
  exact ⟨e, he, rfl, Option.some.inj (hd.symm.trans (h.live e he))⟩

/-- Devices that were registered for positive pids, each with a minor of its own. -/
structure Directory.Numbered (dir : Directory) : Prop where
  bounded : dir.Bounded
  owned : dir.Owned
  pid : ∀ e ∈ dir.devices, 0 < e.nlpid

theorem Directory.Numbered.ne {dir : Directory} (h : dir.Numbered) :
    ∀ e ∈ dir.devices, e.dummy = true → e.nlpid ≠ -1 := by
  intro e he _ heq
  have hpos := h.pid e he
  rw [heq] at hpos
  exact absurd hpos (by decide)

/-- Messages of daemons whose pids are in `pids`, handled one at a time, each with the word
that lies behind the table then. -/
def registrationsPast (pids : Int32 → Prop) (hashMin : UInt32 → Fin 32) (reqs : Requests) :
    System Registry (Control × Int32) where
  init reg := reg = .prepare hashMin reqs
  step reg l reg' := pids l.1.pid ∧ l.1.Uncontended ∧ reg' = l.1.afterPast l.2 reg

/-- A search for a minor does not take the word behind the table for a free entry. -/
def Registry.Unmistaken (reg : Registry) (l : Control × Int32) : Prop := l.2 = -1 → reg.Serves l.1

/-- Then the word makes no difference. -/
theorem ndmgmCreateDummyPast_eq {word pid : Int32} (env : CreateEnv)
    (hfits : ∀ m, reg.minors = some m → word = -1 → m.Fits) :
    (ndmgmCreateDummyPast env word pid ⟨reg, []⟩).2 = (ndmgmCreateDummy env pid ⟨reg, []⟩).2 := by
  unfold ndmgmCreateDummyPast ndmgmCreateDummy
  rcases @ndmgmGetMinorPast_eq ⟨reg, []⟩ word env.minor pid hfits with heq | ⟨hpast, hget⟩
  · have hbind : ∀ f : Option Nat → Ker Int32, (ndmgmGetMinorPast env.minor word pid >>= f) ⟨reg, []⟩
        = (ndmgmGetMinor env.minor pid >>= f) ⟨reg, []⟩ := by
      intro f
      rw [Exec.bind_apply, Exec.bind_apply, heq]
    exact congrArg Prod.snd (hbind _)
  · refine (congrArg Prod.snd (Exec.bind_ok hpast)).trans ?_
    exact (congrArg Prod.snd (Exec.bind_error hget)).symm

theorem Control.afterPast_eq {msg : Control} {word : Int32} (h : reg.Unmistaken (msg, word)) :
    msg.afterPast word reg = msg.after reg := by
  cases msg with
  | regServer => rfl
  | unregister => rfl
  | regDummy env pid =>
      have hsame := @ndmgmCreateDummyPast_eq reg word pid env fun m hm hword => h hword m hm
      exact congrArg (fun c : Call => { c.registry with stuck := c.own ++ c.registry.stuck }) hsame

theorem numbered_invariant (hashMin : UInt32 → Fin 32) (reqs : Requests) :
    ((registrationsPast (0 < ·) hashMin reqs).restrict Registry.Unmistaken).Invariant
      fun reg => ∃ dir, reg.Represents dir ∧ dir.Numbered where
  init := by
    rintro reg rfl
    have hempty : ∀ {P : Device → Prop}, ∀ e ∈ ([] : List Device), P e :=
      fun e he => (List.not_mem_nil he).elim
    exact ⟨_, .prepare hashMin reqs, ⟨Minors.prepare_bounded, hempty⟩, ⟨hempty, hempty⟩, hempty⟩
  step := by
    rintro reg ⟨msg, word⟩ reg' ⟨dir, hrep, h⟩ ⟨⟨hpid, hmsg, rfl⟩, hintact⟩
    obtain ⟨dir', hstep, hrep'⟩ := hrep.after h.bounded hmsg
    rw [← Control.afterPast_eq hintact] at hrep'
    refine ⟨dir', hrep', h.bounded.step hstep, h.owned.step h.bounded hstep h.ne, fun e he => ?_⟩
    rcases hstep.mem he with he | heq
    · exact h.pid e he
    · rw [heq]
      exact hpid

/-- As long as the word behind the table is not taken for a free entry, no two dummy devices
have one minor, and each minor leads to the pid of its device. -/
theorem minors_owned (hrun : ((registrationsPast (0 < ·) hashMin reqs).restrict Registry.Unmistaken).Run ls reg)
    (hd : reg.devs d = some nddata) (hdummy : nddata.dummy = true) :
    (Ker.call (ndmgmFindPid true nddata.minor) reg).1 = .ok nddata.nlpid.toInt32 ∧
      ∀ d' nddata', reg.devs d' = some nddata' → nddata'.dummy = true →
        nddata'.minor = nddata.minor → d' = d := by
  obtain ⟨dir, hrep, h⟩ := hrun.invariant (numbered_invariant hashMin reqs)
  obtain ⟨e, he, rfl, rfl⟩ := hrep.device hd
  refine ⟨?_, fun d' nddata' hd' hdummy' hminor => ?_⟩
  · have hpid := hrep.ndmgmFindPid (h.owned.used e he hdummy)
    exact congrArg Prod.fst (congrArg (fun p => (p.1, p.2.registry)) hpid)
  · obtain ⟨x, hx, rfl, rfl⟩ := hrep.device hd'
    exact h.owned.minor x hx e he hdummy' hdummy hminor

/-- The registry after so many registrations of one daemon, with this word behind the table. -/
def registeredPast (word : Int32) (n : Nat) : Registry :=
  (Control.afterPast word (.regDummy .all 7))^[n] (.prepare Sample.hashMin Sample.requests)

theorem run_registeredPast {C : Registry → Control × Int32 → Prop} (word : Int32) (n : Nat)
    (hC : ∀ k < n, C (registeredPast word k) (.regDummy .all 7, word)) :
    ((registrationsPast (0 < ·) Sample.hashMin Sample.requests).restrict C).Run
      (List.replicate n (.regDummy .all 7, word)) (registeredPast word n) := by
  induction n with
  | zero => exact .init rfl
  | succ n ih =>
      have hmsg : (Control.regDummy .all 7).Uncontended := rfl
      have hpid : (0 : Int32) < 7 := by decide
      rw [List.replicate_succ', registeredPast, Function.iterate_succ_apply']
      refine (ih fun k hk => hC k (Nat.lt_succ_of_lt hk)).step ⟨⟨hpid, hmsg, rfl⟩, ?_⟩
      exact hC n (Nat.lt_succ_self n)

/-- A 33rd registration that finds 5 behind the table fails and leaves the others as they are. -/
theorem minors_owned_registered :
    (Ker.call (ndmgmFindPid true 31) (registeredPast 5 33)).1 = .ok 7 := by
  have hrun := @run_registeredPast Registry.Unmistaken 5 33 fun k _ hword => absurd hword (by decide)
  have hlive : ((registeredPast 5 33).devs 31).map NetdevData.ident = some (7, true, 31) := by decide +kernel
  obtain ⟨nddata, hd, hident⟩ := Option.map_eq_some_iff.mp hlive
  have hpid : nddata.nlpid = 7 := congrArg Prod.fst hident
  have hdummy : nddata.dummy = true := congrArg (fun p => p.2.1) hident
  have hminor : nddata.minor = 31 := congrArg (fun p => p.2.2) hident
  have howned := (minors_owned hrun hd hdummy).1
  rw [hpid, hminor] at howned
  exact howned

/-- With -1 behind the table the 33rd registration gets the minor 32; the 34th meets the
device limit, and the lock of the minors is never released any more. -/
theorem minors_full : ∃ ls reg d nddata,
    (registrationsPast (0 < ·) Sample.hashMin Sample.requests).Run ls reg ∧
    reg.devs d = some nddata ∧ nddata.dummy = true ∧
    (Ker.call (ndmgmFindPid true nddata.minor) reg).1 ≠ .ok nddata.nlpid.toInt32 := by
  have hrun := (@run_registeredPast (fun _ _ => True) (-1) 34 fun _ _ => trivial).of_restrict
  have hlive : ((registeredPast (-1) 34).devs 0).map NetdevData.ident = some (7, true, 0) := by decide +kernel
  have hlost : (Ker.call (ndmgmFindPid true 0) (registeredPast (-1) 34)).1 = .ok (-1) := by decide +kernel
  obtain ⟨nddata, hd, hident⟩ := Option.map_eq_some_iff.mp hlive
  have hpid : nddata.nlpid = 7 := congrArg Prod.fst hident
  have hdummy : nddata.dummy = true := congrArg (fun p => p.2.1) hident
  have hminor : nddata.minor = 0 := congrArg (fun p => p.2.2) hident
  refine ⟨_, registeredPast (-1) 34, 0, nddata, hrun, hd, hdummy, ?_⟩
  rw [hpid, hminor]
  intro hfound
  exact absurd (Except.ok.inj (hlost.symm.trans hfound)) (by decide)

end Runs

/-! ## Pids -/

namespace Directory
variable {dir dir' : Directory} {msg : Control} {e x : Device} {nlpid pid : Int32}

theorem find_add_of_ne {dummy : Bool} {minor : Nat} (hne : pid ≠ nlpid) :
    (dir.add pid dummy minor).find nlpid = dir.find nlpid := by
  simp [find, add, hne]

theorem find_add_self {dummy : Bool} {minor : Nat} (hpid : pid ≠ -1) :
    (dir.add pid dummy minor).find pid = some ⟨dir.next, pid, dummy, minor⟩ := by
  simp [find, add, hpid]

/-- A device that is found stays so when another one goes. -/
theorem find_remove (hfind : dir.find nlpid = some e) (hne : e.id ≠ x.id) :
    (dir.remove x).find nlpid = some e := by
  unfold find at hfind ⊢
  by_cases hpid : nlpid = -1
  · rw [if_pos hpid] at hfind
    cases hfind
  · rw [if_neg hpid] at hfind ⊢
    obtain ⟨hp, before, after, hdevices, hbefore⟩ := List.find?_eq_some_iff_append.mp hfind
    refine List.find?_eq_some_iff_append.mpr ⟨hp, before.filter fun y => y.id ≠ x.id,
      after.filter fun y => y.id ≠ x.id, ?_, fun y hy => hbefore y (List.mem_of_mem_filter hy)⟩
    simp [remove, hdevices, hne]

/-- The pid of every dummy device leads to it. -/
structure Found (dir : Directory) : Prop where
  bounded : dir.Bounded
  owned : dir.Owned
  find : ∀ e ∈ dir.devices, e.dummy = true → dir.find e.nlpid = some e

/-- No dummy device has the pid of the message, and the pid is one that can be looked up. -/
structure Admits (dir : Directory) (msg : Control) : Prop where
  fresh : ∀ e ∈ dir.devices, e.dummy = true → e.nlpid ≠ msg.pid
  pid : ∀ env, msg ≠ .regDummy env (-1)

end Directory

/-- The message makes a device. -/
def Control.Makes (minors : Minors) : Control → Prop
  | .regDummy env pid => env.alloc = true ∧ env.cdevAdd = 0 ∧ env.deviceCreate = 0 ∧
      ∃ minor m, minors.get pid = .ok (some minor, m)
  | .regServer env _ => env.alloc = true
  | .unregister .. => False

namespace Directory
variable {dir dir' : Directory} {msg : Control} {e x : Device} {nlpid pid : Int32}

theorem Found.ne (h : dir.Found) : ∀ e ∈ dir.devices, e.dummy = true → e.nlpid ≠ -1 :=
  fun e he hdummy => (find_eq (h.find e he hdummy)).1

theorem Found.step (h : dir.Found) (hstep : Step dir msg dir') (hadmits : msg.Makes dir.minors → dir.Admits msg) :
    dir'.Found := by
  refine ⟨h.bounded.step hstep, h.owned.step h.bounded hstep h.ne, ?_⟩
  intro e he hdummy
  cases hstep with
  | @server env pid halloc =>
      rcases List.mem_cons.mp he with rfl | he
      · cases hdummy
      · have hne : e.nlpid ≠ pid := (hadmits halloc).fresh e he hdummy
        rw [find_add_of_ne hne.symm]
        exact h.find e he hdummy
  | @dummy env pid minor m hget hok =>
      have hmake := hadmits ⟨hok.1, hok.2.1, hok.2.2, minor, m, hget⟩
      rcases List.mem_cons.mp he with rfl | he
      · refine find_add_self fun hpid => hmake.pid env ?_
        rw [hpid]
      · have hne : e.nlpid ≠ pid := hmake.fresh e he hdummy
        rw [find_add_of_ne hne.symm]
        exact h.find e he hdummy
  | remove =>
      obtain ⟨he, hne⟩ := mem_remove.mp he
      exact find_remove (h.find e he hdummy) hne
  | removeDummy =>
      obtain ⟨he, hne⟩ := mem_remove.mp he
      exact find_remove (h.find e he hdummy) hne
  | _ => exact h.find e he hdummy

end Directory

/-- A message that makes a device comes from a pid without a dummy device. -/
def Registry.Admits (reg : Registry) (msg : Control) : Prop :=
  ∀ m, reg.minors = some m → m.Serves msg ∧ (msg.Makes m →
    (∀ d nddata, reg.devs d = some nddata → nddata.dummy = true → nddata.nlpid ≠ msg.pid.toUInt32) ∧
      ∀ env, msg ≠ .regDummy env (-1))

section Runs
variable {hashMin : UInt32 → Fin 32} {reqs : Requests} {ls : List Control} {reg : Registry}
  {d : DevId} {nddata : NetdevData}

theorem Registry.Represents.admits {dir : Directory} (h : reg.Represents dir) {msg : Control}
    (hadmits : reg.Admits msg) (hmakes : msg.Makes dir.minors) : dir.Admits msg := by
  obtain ⟨hfresh, hpid⟩ := (hadmits _ h.minors).2 hmakes
  refine ⟨fun e he hdummy heq => ?_, hpid⟩
  exact hfresh e.id _ (h.live e he) hdummy (congrArg Int32.toUInt32 heq)

theorem found_invariant (hashMin : UInt32 → Fin 32) (reqs : Requests) :
    ((registrations (· ≠ 0) hashMin reqs).restrict Registry.Admits).Invariant
      fun reg => ∃ dir, reg.Represents dir ∧ dir.Found where
  init := by
    rintro reg rfl
    have hempty : ∀ {P : Device → Prop}, ∀ e ∈ ([] : List Device), P e :=
      fun e he => (List.not_mem_nil he).elim
    exact ⟨_, .prepare hashMin reqs, ⟨Minors.prepare_bounded, hempty⟩, ⟨hempty, hempty⟩, hempty⟩
  step := by
    rintro reg msg reg' ⟨dir, hrep, h⟩ ⟨⟨hpid, hmsg, rfl⟩, hadmits⟩
    obtain ⟨dir', hstep, hrep'⟩ := hrep.after h.bounded hmsg
    exact ⟨dir', hrep', h.step hstep (hrep.admits hadmits)⟩

/-- The lookups of `ndfo_send_open` for the minor of a dummy device end at this device. -/
theorem open_finds (hrun : ((registrations (· ≠ 0) hashMin reqs).restrict Registry.Admits).Run ls reg)
    (hd : reg.devs d = some nddata) (hdummy : nddata.dummy = true) :
    (Ker.call (ndmgmFindPid true nddata.minor >>= ndmgmFind true) reg).1 = .ok (some d) := by
  obtain ⟨dir, hrep, h⟩ := hrun.invariant (found_invariant hashMin reqs)
  obtain ⟨e, he, rfl, rfl⟩ := hrep.device hd
  have hfind := hrep.ndmgmFind e.nlpid
  rw [h.find e he hdummy] at hfind
  refine Ker.call_of_wp (P := fun r _ => r = .ok (some e.id)) ?_
  refine Exec.wp_bind_ok (hrep.ndmgmFindPid (h.owned.used e he hdummy)) ?_
  exact congrArg Prod.fst hfind

theorem open_finds_registered :
    (Ker.call (ndmgmFindPid true 0 >>= ndmgmFind true) ((Control.regDummy .all 7).after
      (.prepare Sample.hashMin Sample.requests))).1 = .ok (some 0) := by
  have prepared : ((registrations (· ≠ 0) Sample.hashMin Sample.requests).restrict Registry.Admits).Run [] _ :=
    .init rfl
  have hmsg : (Control.regDummy .all 7).Uncontended := rfl
  have hadmits : (Registry.prepare Sample.hashMin Sample.requests).Admits (.regDummy .all 7) := by
    intro m hm
    obtain rfl := Option.some.inj hm
    refine ⟨.inl ⟨0, rfl⟩, fun _ => ⟨fun d nddata hd => (by cases hd), fun env henv => ?_⟩⟩
    have hpid : (7 : Int32) = -1 := congrArg Control.pid henv
    exact absurd hpid (by decide)
  have registered := prepared.step (l := .regDummy .all 7) ⟨⟨by decide, hmsg, rfl⟩, hadmits⟩
  exact @open_finds _ _ _ _ 0 (.registered 7 true 0) registered rfl rfl

/-- The daemon of a dummy device registers a server device as well. -/
theorem open_finds_server : ∃ ls reg d nddata,
    (registrations (· ≠ 0) Sample.hashMin Sample.requests).Run ls reg ∧
    reg.devs d = some nddata ∧ nddata.dummy = true ∧
    (Ker.call (ndmgmFindPid true nddata.minor >>= ndmgmFind true) reg).1 ≠ .ok (some d) := by
  have hrun := @run_handle (· ≠ 0) Sample.hashMin Sample.requests []
    [.regDummy .all 7, .regServer .all 7] _ (.init rfl) fun msg hmsg => by
      rcases List.mem_pair.mp hmsg with rfl | rfl
      · exact ⟨by decide, rfl⟩
      · exact ⟨by decide, trivial⟩
  refine ⟨_, _, 0, .registered 7 true 0, hrun, rfl, rfl, ?_⟩
  decide

end Runs

end Netdev.Kernel
