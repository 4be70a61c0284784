-- SUMMARY: The memory of the kernel module, and calls into it as computations that take semaphores and may stop.
import Mathlib.Logic.Function.Basic
import Netdev.Base.Exec
import Netdev.Base.Hashtable
import Netdev.Kernel.FoAccess
import Netdev.Kernel.FoRecv
import Netdev.Kernel.Minors

/-!
# The device registry

One call runs without interruption by the others; what another thread may be doing
at that time shows in its trylocks, each of which may fail. A call can also stop: by
a dereference of freed memory, or by waiting for a semaphore. What it holds then is
never released.
-/

namespace Netdev.Kernel
open Base

/-! ## State -/

abbrev DevId := Nat

/-- A pointer to a `struct fo_access`, together with its field `nddata`, which never
changes. -/
structure AccRef where
  id : Nat
  nddata : DevId
  deriving DecidableEq

/-- `struct netdev_data`. `minor` is that of `cdev->dev`. The counter of users has no
bound here: to wrap it takes 2^31 references that are not dropped. -/
structure NetdevData where
  nlpid : UInt32
  active : Bool
  dummy : Bool
  minor : Nat
  users : Int
  curseq : Int32
  foaccHtable : Hashtable UInt32 AccRef

/-- `struct fo_access`: `queue` is used on the side of the dummy device, `server` on
the other. -/
structure Acc where
  accessId : Int32
  queue : FoAccess
  server : ServerAccess

/-- The semaphores that are held over more than one statement. -/
inductive Sem where
  | htable
  | minor
  | dev (d : DevId)
  deriving DecidableEq

/-- The module's memory. `hashMin` is the hash function of both tables, which have 32
buckets. `stuck` are the semaphores whose holder does not run any more. -/
structure Registry where
  hashMin : UInt32 → Fin 32
  devs : DevId → Option NetdevData
  accs : AccRef → Option Acc
  reqs : Requests
  netdevHtable : Hashtable UInt32 DevId
  minors : Option Minors
  nextDev : Nat
  nextAcc : Nat
  stuck : List Sem

/-- After `ndmgm_prepare`. -/
def Registry.prepare (hashMin : UInt32 → Fin 32) (reqs : Requests) : Registry where
  hashMin := hashMin
  devs := fun _ => none
  accs := fun _ => none
  reqs := reqs
  netdevHtable := .empty
  minors := some .prepare
  nextDev := 0
  nextAcc := 0
  stuck := []

namespace Registry

def setDev (reg : Registry) (d : DevId) (nddata : NetdevData) : Registry :=
  { reg with devs := Function.update reg.devs d (some nddata) }

def freeDev (reg : Registry) (d : DevId) : Registry :=
  { reg with devs := Function.update reg.devs d none }

def setAcc (reg : Registry) (a : AccRef) (acc : Acc) : Registry :=
  { reg with accs := Function.update reg.accs a (some acc) }

def freeAcc (reg : Registry) (a : AccRef) : Registry :=
  { reg with accs := Function.update reg.accs a none }

/-- `hash_del` of the device's node. -/
def unhash (reg : Registry) (d : DevId) : Registry :=
  { reg with netdevHtable := reg.netdevHtable.del d }

section Lookups
variable (reg : Registry) {d e : DevId} {a b : AccRef} (nddata : NetdevData) (data : Acc)

@[simp] theorem setDev_self : (reg.setDev d nddata).devs d = some nddata := Function.update_self ..

theorem setDev_of_ne (h : e ≠ d) : (reg.setDev d nddata).devs e = reg.devs e :=
  Function.update_of_ne h ..

@[simp] theorem freeDev_self : (reg.freeDev d).devs d = none := Function.update_self ..

theorem freeDev_of_ne (h : e ≠ d) : (reg.freeDev d).devs e = reg.devs e := Function.update_of_ne h ..

@[simp] theorem setAcc_self : (reg.setAcc a data).accs a = some data := Function.update_self ..

theorem setAcc_of_ne (h : b ≠ a) : (reg.setAcc a data).accs b = reg.accs b :=
  Function.update_of_ne h ..

@[simp] theorem freeAcc_self : (reg.freeAcc a).accs a = none := Function.update_self ..

end Lookups

end Registry

/-! ## Calls -/

/-- Why a call does not return: it waits for a semaphore that it holds itself, it
waits for something else, or it uses memory that is not there. -/
inductive Halt where
  | deadlock
  | blocked
  | fault
  deriving DecidableEq

/-- The module while a call runs, with the semaphores the call holds. -/
structure Call where
  registry : Registry
  own : List Sem

abbrev Ker := Exec Call Halt

namespace Ker

def registry : Ker Registry := do
  return (← Exec.get).registry

def modify (f : Registry → Registry) : Ker Unit :=
  Exec.modify fun c => { c with registry := f c.registry }

/-- A pointer that is followed. -/
def deref {α : Type} : Option α → Ker α
  | some a => return a
  | none => Exec.stop .fault

def ofMem {α : Type} : Mem α → Ker α
  | .ok a => return a
  | .error _ => Exec.stop .fault

def dev (d : DevId) : Ker NetdevData := do
  deref ((← registry).devs d)

def acc (a : AccRef) : Ker Acc := do
  deref ((← registry).accs a)

def setDev (d : DevId) (nddata : NetdevData) : Ker Unit := modify (·.setDev d nddata)

def setAcc (a : AccRef) (acc : Acc) : Ker Unit := modify (·.setAcc a acc)

/-- `down_write_trylock` and `down_read_trylock`; `free` is false when another thread
holds the semaphore. -/
def downTrylock (sem : Sem) (free : Bool) : Ker Bool := do
  let c ← Exec.get
  if free ∧ sem ∉ c.own ∧ sem ∉ c.registry.stuck then
    Exec.modify fun c => { c with own := sem :: c.own }
    return true
  else
    return false

/-- `down_write`. -/
def downWrite (sem : Sem) : Ker Unit := do
  let c ← Exec.get
  if sem ∈ c.own then
    Exec.stop .deadlock
  else if sem ∈ c.registry.stuck then
    Exec.stop .blocked
  else
    Exec.modify fun c => { c with own := sem :: c.own }

/-- `up_write` and `up_read`. -/
def up (sem : Sem) : Ker Unit :=
  Exec.modify fun c => { c with own := c.own.erase sem }

/-- A call from its begin to its end. -/
def call {α : Type} (m : Ker α) (reg : Registry) : Except Halt α × Registry :=
  let (r, c) := m ⟨reg, []⟩
  (r, { c.registry with stuck := c.own ++ c.registry.stuck })

/-! ## Reasoning about calls

Each rule takes one step of a call, and leaves what follows. -/

section Wp
variable {α β : Type} {c : Call} {Q : Except Halt β → Call → Prop}

theorem wp_registry {f : Registry → Ker β} (h : Exec.wp (f c.registry) Q c) :
    Exec.wp (registry >>= f) Q c := h

theorem wp_modify {g : Registry → Registry} {f : Unit → Ker β}
    (h : Exec.wp (f ()) Q ⟨g c.registry, c.own⟩) : Exec.wp (modify g >>= f) Q c := h

theorem wp_up {sem : Sem} {f : Unit → Ker β}
    (h : Exec.wp (f ()) Q ⟨c.registry, c.own.erase sem⟩) : Exec.wp (up sem >>= f) Q c := h

theorem wp_deref {p : Option α} {f : α → Ker β} (hok : ∀ a, p = some a → Exec.wp (f a) Q c)
    (hfault : p = none → Q (.error .fault) c) : Exec.wp (deref p >>= f) Q c := by
  cases p with
  | none => exact hfault rfl
  | some a => exact hok a rfl

theorem wp_deref_live {p : Option α} {f : α → Ker β} {a : α} (hp : p = some a) (h : Exec.wp (f a) Q c) :
    Exec.wp (deref p >>= f) Q c := by
  subst hp
  exact wp_deref (fun a' ha => Option.some.inj ha ▸ h) nofun

theorem wp_ofMem_error {m : Mem α} {f : α → Ker β} (hok : ∀ a, m = .ok a → Exec.wp (f a) Q c)
    (hfault : ∀ e, m = .error e → Q (.error .fault) c) : Exec.wp (ofMem m >>= f) Q c := by
  cases m with
  | error e => exact hfault e rfl
  | ok a => exact hok a rfl

theorem wp_ofMem {m : Mem α} {f : α → Ker β} (hok : ∀ a, m = .ok a → Exec.wp (f a) Q c)
    (hfault : Q (.error .fault) c) : Exec.wp (ofMem m >>= f) Q c :=
  wp_ofMem_error hok fun _ _ => hfault

theorem wp_dev {d : DevId} {f : NetdevData → Ker β}
    (hok : ∀ nddata, c.registry.devs d = some nddata → Exec.wp (f nddata) Q c)
    (hfault : c.registry.devs d = none → Q (.error .fault) c) : Exec.wp (dev d >>= f) Q c := by
  cases hd : c.registry.devs d with
  | none =>
      refine Exec.wp_bind_error ?_ (hfault hd)
      change (deref (c.registry.devs d) : Ker NetdevData) c = _
      rw [hd]
      rfl
  | some nddata =>
      refine Exec.wp_bind_ok ?_ (hok nddata hd)
      change (deref (c.registry.devs d) : Ker NetdevData) c = _
      rw [hd]
      rfl

/-- A device that is there. -/
theorem wp_dev_live {d : DevId} {f : NetdevData → Ker β} {nddata : NetdevData}
    (hd : c.registry.devs d = some nddata) (h : Exec.wp (f nddata) Q c) : Exec.wp (dev d >>= f) Q c := by
  refine wp_dev (fun nddata' hd' => ?_) (fun hnone => nomatch hd.symm.trans hnone)
  obtain rfl := Option.some.inj (hd.symm.trans hd')
  exact h

theorem wp_acc {a : AccRef} {f : Acc → Ker β}
    (hok : ∀ data, c.registry.accs a = some data → Exec.wp (f data) Q c)
    (hfault : c.registry.accs a = none → Q (.error .fault) c) : Exec.wp (acc a >>= f) Q c := by
  cases ha : c.registry.accs a with
  | none =>
      refine Exec.wp_bind_error ?_ (hfault ha)
      change (deref (c.registry.accs a) : Ker Acc) c = _
      rw [ha]
      rfl
  | some data =>
      refine Exec.wp_bind_ok ?_ (hok data ha)
      change (deref (c.registry.accs a) : Ker Acc) c = _
      rw [ha]
      rfl

/-- A file that is there. -/
theorem wp_acc_live {a : AccRef} {f : Acc → Ker β} {data : Acc} (ha : c.registry.accs a = some data)
    (h : Exec.wp (f data) Q c) : Exec.wp (acc a >>= f) Q c := by
  refine wp_acc (fun data' ha' => ?_) (fun hnone => nomatch ha.symm.trans hnone)
  obtain rfl := Option.some.inj (ha.symm.trans ha')
  exact h

/-- The semaphore can be taken by a trylock that meets no other thread. -/
def Free (c : Call) (sem : Sem) : Prop := sem ∉ c.own ∧ sem ∉ c.registry.stuck

theorem wp_downTrylock {sem : Sem} {free : Bool} {m m' : Ker β}
    (htaken : free = true → Free c sem → Exec.wp m Q ⟨c.registry, sem :: c.own⟩)
    (hbusy : ¬ (free = true ∧ Free c sem) → Exec.wp m' Q c) :
    Exec.wp (downTrylock sem free >>= fun taken => if taken = true then m else m') Q c := by
  by_cases h : free ∧ sem ∉ c.own ∧ sem ∉ c.registry.stuck
  · refine Exec.wp_bind_ok (a := true) ?_ (htaken h.1 h.2)
    change (if _ then _ else _ : Ker Bool) c = _
    rw [if_pos h]
    rfl
  · refine Exec.wp_bind_ok (a := false) ?_ (hbusy h)
    change (if _ then _ else _ : Ker Bool) c = _
    rw [if_neg h]
    rfl

theorem wp_downWrite {sem : Sem} {f : Unit → Ker β}
    (htaken : Free c sem → Exec.wp (f ()) Q ⟨c.registry, sem :: c.own⟩)
    (hown : sem ∈ c.own → Q (.error .deadlock) c)
    (hstuck : sem ∉ c.own → sem ∈ c.registry.stuck → Q (.error .blocked) c) :
    Exec.wp (downWrite sem >>= f) Q c := by
  by_cases hmem : sem ∈ c.own
  · refine Exec.wp_bind_error ?_ (hown hmem)
    change (if _ then _ else if _ then _ else _ : Ker Unit) c = _
    rw [if_pos hmem]
    rfl
  · by_cases hheld : sem ∈ c.registry.stuck
    · refine Exec.wp_bind_error ?_ (hstuck hmem hheld)
      change (if _ then _ else if _ then _ else _ : Ker Unit) c = _
      rw [if_neg hmem, if_pos hheld]
      rfl
    · refine Exec.wp_bind_ok (a := ()) ?_ (htaken ⟨hmem, hheld⟩)
      change (if _ then _ else if _ then _ else _ : Ker Unit) c = _
      rw [if_neg hmem, if_neg hheld]
      rfl

theorem call_of_wp {m : Ker β} {reg : Registry} {P : Except Halt β → Registry → Prop}
    (h : Exec.wp m (fun r c => P r { c.registry with stuck := c.own ++ c.registry.stuck })
      ⟨reg, []⟩) : P (call m reg).1 (call m reg).2 := h

end Wp

end Ker

end Netdev.Kernel
