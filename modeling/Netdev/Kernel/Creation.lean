-- SUMMARY: The creation of a device step by step: its allocations, the strings it writes, and its unwinding.
import Netdev.Base.Ledger
import Netdev.Kernel.Netdevmgm

/-!
# Creating devices

`ndmgm_create_dummy` and `ndmgm_create_server` with each of their allocations. A call
keeps a ledger of what it acquires and releases, and a list of the strings it writes.
What it does to the registry is what the functions of `Netdevmgm` do.
-/

namespace Netdev.Kernel
open Base

/-- `NETDEV_REQ_POOL_NAME`: `netdev_req_pool`. -/
def NETDEV_REQ_POOL_NAME : Bytes := [110, 101, 116, 100, 101, 118, 95, 114, 101, 113, 95, 112, 111, 111, 108]

/-- The decimal digits of `%d`. -/
def decimal (n : Nat) : Bytes := (Nat.toDigits 10 n).map fun c => c.val.toUInt8

/-! ## Calls that keep a ledger -/

inductive ResourceKind where
  /-- A buffer from `kzalloc`. -/
  | memory
  /-- A cache from `kmem_cache_create`. -/
  | cache
  /-- A device number of `cdev_add`. -/
  | cdev
  /-- A device of `device_create`. -/
  | device
  deriving DecidableEq

/-- A resource: its kind, and the place of its acquisition in the ledger. -/
structure Resource where
  kind : ResourceKind
  id : Nat
  deriving DecidableEq

/-- A string, with its null, that is written to a buffer of `size` bytes. -/
structure Write where
  size : Nat
  text : Bytes

def Write.Fits (w : Write) : Prop := w.text.length ≤ w.size

instance (w : Write) : Decidable w.Fits := inferInstanceAs (Decidable (_ ≤ _))

/-- A call of the module that creates a device. -/
structure Making where
  call : Call
  ledger : Ledger Resource
  writes : List Write

def Making.start (reg : Registry) : Making := ⟨⟨reg, []⟩, [], []⟩

abbrev Make := Exec Making Halt

namespace Make

/-- A part of the call that acquires nothing. -/
def ker {α : Type} (m : Ker α) : Make α := fun s =>
  let (r, c) := m s.call
  (r, { s with call := c })

/-- `sprintf` to a buffer, or `memcpy` of a string with its null. -/
def write (size : Nat) (text : Bytes) : Make Unit :=
  Exec.modify fun s => { s with writes := s.writes ++ [⟨size, text ++ [0]⟩] }

/-- `none` is NULL, or an error. -/
def acquire (kind : ResourceKind) (ok : Bool) : Make (Option Resource) := do
  if ok then
    let r : Resource := ⟨kind, (← Exec.get).ledger.length⟩
    Exec.modify fun s => { s with ledger := s.ledger ++ [.acquire r] }
    return some r
  else
    return none

/-- `kfree`, `kmem_cache_destroy` and `cdev_del`. The first two ignore NULL. -/
def release : Option Resource → Make Unit
  | some r => Exec.modify fun s => { s with ledger := s.ledger ++ [.release r] }
  | none => return ()

/-! ## The code -/

/-- Which allocations succeed. -/
structure AllocEnv where
  nddata : Bool
  devname : Bool
  cdev : Bool
  queuePool : Bool

def AllocEnv.all : AllocEnv := ⟨true, true, true, true⟩

/-- The pointers of a `struct netdev_data`, and that to itself. -/
structure Pointers where
  id : DevId
  nddata : Option Resource
  devname : Option Resource
  cdev : Option Resource
  queuePool : Option Resource

/-- `ndmgm_alloc_data`. When the allocation of `cdev` fails it goes to `free_nddata`. -/
def ndmgmAllocData (env : AllocEnv) (nlpid : Int32) (name : Bytes) (minor : Nat) :
    Make (Option Pointers) := do
  write 30 (NETDEV_REQ_POOL_NAME ++ 58 :: name ++ decimal minor)
  match ← acquire .memory env.nddata with
  | none => return none
  | some nddata => do
      match ← acquire .memory env.devname with
      | none => do
          release none
          release (some nddata)
          return none
      | some devname => do
          match ← acquire .memory env.cdev with
          | none => do
              release (some nddata)
              return none
          | some cdev => do
              match ← acquire .cache env.queuePool with
              | none => do
                  release (some cdev)
                  release (some devname)
                  release (some nddata)
                  return none
              | some queuePool => do
                  write (name.length + 1) ([47, 100, 101, 118, 47] ++ name)
                  let d ← ker (newDev nlpid true minor)
                  return some ⟨d, some nddata, some devname, some cdev, some queuePool⟩

/-- `ndmgm_free_data`. -/
def ndmgmFreeData (p : Pointers) : Make Unit := do
  release p.queuePool
  release p.cdev
  release p.devname
  release p.nddata
  ker (Ker.modify (·.freeDev p.id))

/-- What can fail in `ndmgm_create_dummy`. -/
structure DummyEnv where
  minor : Bool
  alloc : AllocEnv
  cdevAdd : Int32
  deviceCreate : Int32

def DummyEnv.all : DummyEnv := ⟨true, .all, 0, 0⟩

/-- `ndmgm_create_dummy`. -/
def ndmgmCreateDummy (env : DummyEnv) (nlpid : Int32) (name : Bytes) : Make Int32 := do
  match ← ker (ndmgmGetMinor env.minor nlpid) with
  | none => return 1
  | some minor => do
      match ← ndmgmAllocData env.alloc nlpid name minor with
      | none => return 1
      | some p => do
          let cdev ← acquire .cdev (env.cdevAdd = 0)
          if env.cdevAdd ≠ 0 then
            ndmgmFreeData p
            return env.cdevAdd
          else
            let _ ← acquire .device (env.deviceCreate = 0)
            if env.deviceCreate ≠ 0 then
              release cdev
              ndmgmFreeData p
              return env.deviceCreate
            else
              ker (hashDev p.id nlpid)
              return 0

/-- What can fail in `ndmgm_create_server`. -/
structure ServerEnv where
  nddata : Bool
  devname : Bool
  queuePool : Bool

def ServerEnv.all : ServerEnv := ⟨true, true, true⟩

/-- `ndmgm_create_server`. -/
def ndmgmCreateServer (env : ServerEnv) (nlpid : Int32) (name : Bytes) : Make Int32 := do
  write 30 (NETDEV_REQ_POOL_NAME ++ 58 :: name)
  match ← acquire .memory env.nddata with
  | none => return 1
  | some nddata => do
      match ← acquire .memory env.devname with
      | none => do
          release (some nddata)
          return 1
      | some devname => do
          match ← acquire .cache env.queuePool with
          | none => do
              release (some devname)
              release (some nddata)
              return 1
          | some _ => do
              write (name.length + 1) name
              let d ← ker (newDev nlpid false 0)
              ker (hashDev d nlpid)
              return 0

/-! ## What the calls do to the registry -/

/-- `m` ends as `k` does, and leaves the same registry. -/
def Refines {α : Type} (m : Make α) (k : Ker α) : Prop :=
  ∀ s, (m s).1 = (k s.call).1 ∧ (m s).2.call = (k s.call).2

namespace Refines
variable {α β γ : Type} {k : Ker γ}

theorem pure (a : α) : Refines (Pure.pure a) (Pure.pure a) := fun _ => ⟨rfl, rfl⟩

theorem write {size : Nat} {text : Bytes} {f : Unit → Make γ} (h : Refines (f ()) k) :
    Refines (Make.write size text >>= f) k :=
  fun _ => h _

theorem release {r : Option Resource} {f : Unit → Make γ} (h : Refines (f ()) k) :
    Refines (Make.release r >>= f) k := by
  cases r with
  | none => exact fun _ => h _
  | some r => exact fun _ => h _

theorem acquire {kind : ResourceKind} {ok : Bool} {f : Option Resource → Make γ}
    (hok : ok = true → ∀ r, Refines (f (some r)) k) (hno : ok = false → Refines (f none) k) :
    Refines (Make.acquire kind ok >>= f) k := by
  cases ok with
  | false => exact fun _ => hno rfl _
  | true => exact fun _ => hok rfl _ _

theorem ker {m : Ker α} {f : α → Make β} {g : α → Ker β} (h : ∀ a, Refines (f a) (g a)) :
    Refines (Make.ker m >>= f) (m >>= g) := by
  intro s
  cases hm : m s.call with
  | mk r c =>
      have hker : Make.ker m s = (r, { s with call := c }) := by
        unfold Make.ker
        rw [hm]
      cases r with
      | ok a =>
          rw [Exec.bind_ok hker, Exec.bind_ok hm]
          exact h a _
      | error e =>
          rw [Exec.bind_error hker, Exec.bind_error hm]
          exact ⟨rfl, rfl⟩

theorem ite {p : Prop} [Decidable p] {m m' : Make γ} {k' : Ker γ} (h : Refines m k) (h' : Refines m' k') :
    Refines (if p then m else m') (if p then k else k') := by
  by_cases hp : p
  · rw [if_pos hp, if_pos hp]
    exact h
  · rw [if_neg hp, if_neg hp]
    exact h'

/-- Whether the allocation succeeds makes no difference to what follows. -/
theorem acquire_any {kind : ResourceKind} {ok : Bool} {f : Option Resource → Make γ}
    (h : ∀ r, Refines (f r) k) : Refines (Make.acquire kind ok >>= f) k :=
  .acquire (fun _ _ => h _) fun _ => h _

theorem assoc {m : Make α} {f : α → Make β} {g : β → Make γ} (h : Refines (m >>= fun a => f a >>= g) k) :
    Refines (m >>= f >>= g) k := by
  intro s
  have hassoc : (m >>= f >>= g) s = (m >>= fun a => f a >>= g) s := by
    cases hm : m s with
    | mk r s' =>
        cases r with
        | ok a =>
            rw [Exec.bind_ok hm]
            cases hf : f a s' with
            | mk r s'' =>
                cases r with
                | ok b => rw [Exec.bind_ok ((Exec.bind_ok hm).trans hf), Exec.bind_ok hf]
                | error e => rw [Exec.bind_error ((Exec.bind_ok hm).trans hf), Exec.bind_error hf]
        | error e => rw [Exec.bind_error (Exec.bind_error hm), Exec.bind_error hm]
  rw [hassoc]
  exact h s

end Refines

/-- All allocations of `ndmgm_alloc_data` succeed. -/
def AllocEnv.succeeds (env : AllocEnv) : Bool := env.nddata && env.devname && env.cdev && env.queuePool

def DummyEnv.coarse (env : DummyEnv) : CreateEnv :=
  ⟨env.minor, env.alloc.succeeds, env.cdevAdd, env.deviceCreate⟩

def ServerEnv.coarse (env : ServerEnv) : CreateEnv :=
  { CreateEnv.all with alloc := env.nddata && env.devname && env.queuePool }

theorem freeData_refines {γ : Type} (p : Pointers) {f : Unit → Make γ} {g : Unit → Ker γ}
    (h : Refines (f ()) (g ())) :
    Refines (ndmgmFreeData p >>= f) (Ker.modify (·.freeDev p.id) >>= g) :=
  .assoc (.release (.assoc (.release (.assoc (.release (.assoc (.release (.ker fun _ => h))))))))

/-- When an allocation fails nothing happens to the registry, else it gets the device. -/
theorem allocData_refines {γ : Type} {env : AllocEnv} {nlpid : Int32} {name : Bytes} {minor : Nat}
    {f : Option Pointers → Make γ} {k : Ker γ} {g : DevId → Ker γ}
    (hfail : env.succeeds = false → Refines (f none) k)
    (hok : ∀ d nddata devname cdev queuePool, Refines (f (some ⟨d, nddata, devname, cdev, queuePool⟩)) (g d)) :
    Refines (ndmgmAllocData env nlpid name minor >>= f)
      (if !env.succeeds then k else newDev nlpid true minor >>= g) := by
  have hno : env.succeeds = false →
      Refines (f none) (if !env.succeeds then k else newDev nlpid true minor >>= g) := by
    intro henv
    rw [henv]
    exact hfail henv
  refine .assoc (.write (.assoc (.acquire (fun hnddata nddata => ?_) fun h => ?_)))
  · refine .assoc (.acquire (fun hdevname devname => ?_) fun h => ?_)
    · refine .assoc (.acquire (fun hcdev cdev => ?_) fun h => ?_)
      · refine .assoc (.acquire (fun hpool queuePool => ?_) fun h => ?_)
        · have henv : env.succeeds = true := by
            rw [AllocEnv.succeeds, hnddata, hdevname, hcdev, hpool]
            rfl
          rw [henv]
          exact .assoc (.write (.assoc (.ker fun d => hok d _ _ _ _)))
        · refine .assoc (.release (.assoc (.release (.assoc (.release (hno ?_))))))
          rw [AllocEnv.succeeds, h, Bool.and_false]
      · refine .assoc (.release (hno ?_))
        rw [AllocEnv.succeeds, h, Bool.and_false, Bool.false_and]
    · refine .assoc (.release (.assoc (.release (hno ?_))))
      rw [AllocEnv.succeeds, h, Bool.and_false, Bool.false_and, Bool.false_and]
  · refine hno ?_
    rw [AllocEnv.succeeds, h, Bool.false_and, Bool.false_and, Bool.false_and]

theorem ndmgmCreateDummy_refines (env : DummyEnv) (nlpid : Int32) (name : Bytes) :
    Refines (ndmgmCreateDummy env nlpid name) (Kernel.ndmgmCreateDummy env.coarse nlpid) := by
  refine .ker fun minor => ?_
  cases minor with
  | none => exact .pure 1
  | some minor =>
      refine allocData_refines (fun _ => .pure 1) fun d nddata devname cdev queuePool => ?_
      refine .acquire_any fun cdevAdd => .ite (freeData_refines _ (.pure _)) (.acquire_any fun _ => ?_)
      exact .ite (.release (freeData_refines _ (.pure _))) (.ker fun _ => .pure 0)

theorem ndmgmCreateServer_refines (env : ServerEnv) (nlpid : Int32) (name : Bytes) :
    Refines (ndmgmCreateServer env nlpid name) (Kernel.ndmgmCreateServer env.coarse nlpid) := by
  obtain ⟨nddata, devname, queuePool⟩ := env
  refine .write (.acquire (fun hnddata _ => .acquire (fun hdevname _ => .acquire (fun hpool _ => ?_)
    fun h => ?_) fun h => ?_) fun h => ?_)
  · subst hnddata hdevname hpool
    exact .write (.ker fun d => .ker fun _ => .pure 0)
  · subst hnddata hdevname h
    exact .release (.release (.pure 1))
  · subst hnddata h
    exact .release (.pure 1)
  · subst h
    exact .pure 1

end Make

end Netdev.Kernel
