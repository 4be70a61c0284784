-- SUMMARY: The functions of `kernel/netdevmgm.c`, and those of `kernel/fo_access.c` that take the lock of a device.
import Netdev.Kernel.Registry

/-!
# Managing devices

Registration, lookups, references, open files and unregistration, on the registry.
The environment of a call says which of its trylocks and allocations succeed.
-/

namespace Netdev.Kernel
open Base

/-! ## References -/

def ndmgmGet (d : DevId) : Ker Unit := do
  let nddata ← Ker.dev d
  Ker.setDev d { nddata with users := nddata.users + 1 }

def ndmgmPut (d : DevId) : Ker Unit := do
  let nddata ← Ker.dev d
  Ker.setDev d { nddata with users := nddata.users - 1 }

def ndmgmRefs (d : DevId) : Ker Int := do
  return (← Ker.dev d).users

/-- `ndmgm_incseq`. -/
def ndmgmIncseq (d : DevId) : Ker Int32 := do
  let nddata ← Ker.dev d
  Ker.setDev d { nddata with curseq := nddata.curseq + 1 }
  return nddata.curseq + 1

/-! ## Lookups -/

/-- The first device of a bucket with this `nlpid`. -/
def findDev (nlpid : Int32) : List DevId → Ker (Option DevId)
  | [] => return none
  | d :: ds => do
      if (← Ker.dev d).nlpid = nlpid.toUInt32 then
        return some d
      else
        findDev nlpid ds

/-- `ndmgm_find`. -/
def ndmgmFind (free : Bool) (nlpid : Int32) : Ker (Option DevId) := do
  if nlpid = -1 then
    return none
  else if ← Ker.downTrylock .htable free then
    let reg ← Ker.registry
    let nddata ← findDev nlpid (reg.netdevHtable.possible reg.hashMin nlpid.toUInt32)
    Ker.up .htable
    return nddata
  else
    return none

def findAcc (accessId : Int32) : List AccRef → Ker (Option AccRef)
  | [] => return none
  | a :: as => do
      if (← Ker.acc a).accessId = accessId then
        return some a
      else
        findAcc accessId as

/-- `ndmgm_find_acc`. -/
def ndmgmFindAcc (free : Bool) (d : DevId) (accessId : Int32) : Ker (Option AccRef) := do
  let nddata ← Ker.dev d
  if ← Ker.downTrylock (.dev d) free then
    let reg ← Ker.registry
    let acc ← findAcc accessId (nddata.foaccHtable.possible reg.hashMin accessId.toUInt32)
    Ker.up (.dev d)
    return acc
  else
    return none

/-! ## Minors -/

/-- `ndmgm_get_minor`: `none` is -1. At the device limit it calls `up_read` on a
semaphore held for writing, which does not release it. A search that leaves the table
is a fault; it changes nothing unless the word behind the table is -1. -/
def ndmgmGetMinor (free : Bool) (pid : Int32) : Ker (Option Nat) := do
  if ← Ker.downTrylock .minor free then
    let minors ← Ker.deref (← Ker.registry).minors
    if minors.max = NETDEV_MAX_DEVICES then
      return none
    else
      match minors.get pid with
      | .ok (minor, minors) => do
          Ker.modify fun reg => { reg with minors := some minors }
          Ker.up .minor
          return minor
      | .error _ => do
          Ker.up .minor
          Exec.stop .fault
  else
    return none

/-- `ndmgm_put_minor`. -/
def ndmgmPutMinor (free : Bool) (minor : Nat) : Ker Unit := do
  if ← Ker.downTrylock .minor free then
    let minors ← Ker.deref (← Ker.registry).minors
    let minors ← Ker.ofMem (minors.put minor)
    Ker.modify fun reg => { reg with minors := some minors }
    Ker.up .minor

/-- `ndmgm_find_pid`. -/
def ndmgmFindPid (free : Bool) (minor : Nat) : Ker Int32 := do
  if ← Ker.downTrylock .minor free then
    let minors ← Ker.deref (← Ker.registry).minors
    let pid ← Ker.ofMem (minors.read minor)
    Ker.up .minor
    return pid
  else
    return -1

/-! ## Registration -/

/-- `kzalloc` of a `struct netdev_data` and what follows it. -/
def newDev (nlpid : Int32) (dummy : Bool) (minor : Nat) : Ker DevId := do
  let d := (← Ker.registry).nextDev
  Ker.modify fun reg => { reg with nextDev := d + 1 }
  Ker.setDev d
    { nlpid := nlpid.toUInt32
      active := true
      dummy
      minor
      users := 0
      curseq := 0
      foaccHtable := .empty }
  return d

/-- What can fail in a registration. -/
structure CreateEnv where
  minor : Bool
  alloc : Bool
  cdevAdd : Int32
  deviceCreate : Int32

def CreateEnv.all : CreateEnv := ⟨true, true, 0, 0⟩

/-- The end of both functions: the reference of the table, and the table. -/
def hashDev (d : DevId) (nlpid : Int32) : Ker Unit := do
  ndmgmGet d
  Ker.modify fun reg => { reg with netdevHtable := reg.netdevHtable.add nlpid.toUInt32 d }

/-- `ndmgm_create_dummy` from where the minor is known; `alloc` is whether
`ndmgm_alloc_data` succeeds. -/
def publishDummy (env : CreateEnv) (nlpid : Int32) (minor : Nat) : Ker Int32 := do
  if !env.alloc then
    return 1
  else
    let d ← newDev nlpid true minor
    if env.cdevAdd ≠ 0 then
      Ker.modify (·.freeDev d)
      return env.cdevAdd
    else if env.deviceCreate ≠ 0 then
      Ker.modify (·.freeDev d)
      return env.deviceCreate
    else
      hashDev d nlpid
      return 0

/-- `ndmgm_create_dummy`. -/
def ndmgmCreateDummy (env : CreateEnv) (nlpid : Int32) : Ker Int32 := do
  match ← ndmgmGetMinor env.minor nlpid with
  | none => return 1
  | some minor => publishDummy env nlpid minor

/-- `ndmgm_create_server`. -/
def ndmgmCreateServer (env : CreateEnv) (nlpid : Int32) : Ker Int32 := do
  if !env.alloc then
    return 1
  else
    let d ← newDev nlpid false 0
    hashDev d nlpid
    return 0

/-! ## Open files -/

/-- What can fail in `fo_acc_start`. -/
structure StartEnv where
  alloc : Bool
  kfifoAlloc : Bool
  sem : Bool

def StartEnv.all : StartEnv := ⟨true, true, true⟩

/-- `fo_acc_start`; the frees on its failure path leave nothing behind. -/
def foAccStart (env : StartEnv) (nddata : Option DevId) (pid : Int32) : Ker (Option AccRef) := do
  match nddata with
  | none => return none
  | some d => do
      if !env.alloc then
        return none
      else
        let nddata ← Ker.dev d
        if nddata.dummy && !env.kfifoAlloc then
          return none
        else if ← Ker.downTrylock (.dev d) env.sem then
          let reg ← Ker.registry
          let acc : AccRef := ⟨reg.nextAcc, d⟩
          Ker.modify fun reg => { reg with nextAcc := reg.nextAcc + 1 }
          Ker.setAcc acc { accessId := pid, queue := .fresh, server := ⟨none⟩ }
          Ker.setDev d { nddata with foaccHtable := nddata.foaccHtable.add pid.toUInt32 acc }
          ndmgmGet d
          Ker.up (.dev d)
          return some acc
        else
          return none

/-- `fo_acc_destroy`. -/
def foAccDestroy (acc : AccRef) : Ker Unit := do
  let _ ← Ker.acc acc
  let _ ← Ker.dev acc.nddata
  Ker.downWrite (.dev acc.nddata)
  let nddata ← Ker.dev acc.nddata
  Ker.setDev acc.nddata { nddata with foaccHtable := nddata.foaccHtable.del acc }
  ndmgmPut acc.nddata
  Ker.up (.dev acc.nddata)
  Ker.modify (·.freeAcc acc)

/-- `fo_acc_free_queue` of an open file. -/
def freeQueue (acc : AccRef) : Ker Int32 := do
  let data ← Ker.acc acc
  match foAccFreeQueue data.queue (← Ker.registry).reqs with
  | none => Exec.stop .blocked
  | some (rvalue, queue, reqs) => do
      Ker.setAcc acc { data with queue }
      Ker.modify fun reg => { reg with reqs }
      return rvalue

/-! ## Unregistration -/

/-- The trylocks on the way of `ndmgm_find_destroy`, by the function that makes
them. -/
structure DestroyEnv where
  find : Bool
  findDestroy : Bool
  destroy : Bool
  destroyAllacc : Bool
  putMinor : Bool

def DestroyEnv.all : DestroyEnv := ⟨true, true, true, true, true⟩

/-- The loop of `ndmgm_destroy_allacc`. It takes the node of the device out of its
table, and not that of the open file. -/
def destroyAccs (d : DevId) : List AccRef → Ker Int32
  | [] => do
      Ker.up .htable
      return 0
  | acc :: accs => do
      Ker.modify (·.unhash d)
      if (← freeQueue acc) ≠ 0 then
        return 1
      else
        foAccDestroy acc
        destroyAccs d accs

/-- `ndmgm_destroy_allacc`. -/
def ndmgmDestroyAllacc (env : DestroyEnv) (d : DevId) : Ker Int32 := do
  if ← Ker.downTrylock .htable env.destroyAllacc then
    let nddata ← Ker.dev d
    destroyAccs d (nddata.foaccHtable.forEach (← Ker.registry).hashMin)
  else
    return 1

/-- The end of both destructors: `ndmgm_free_data`, and the same for a server. -/
def freeData (d : DevId) : Ker Unit := do
  let _ ← Ker.dev d
  Ker.modify (·.freeDev d)

/-- `ndmgm_destroy_dummy`. -/
def ndmgmDestroyDummy (env : DestroyEnv) (d : DevId) : Ker Int32 := do
  if ← Ker.downTrylock (.dev d) env.destroy then
    Ker.setDev d { ← Ker.dev d with active := false }
    if (← ndmgmDestroyAllacc env d) ≠ 0 then
      Ker.up (.dev d)
      return 1
    else if (← ndmgmRefs d) > 1 then
      Ker.up (.dev d)
      return 1
    else
      Ker.up (.dev d)
      ndmgmPutMinor env.putMinor (← Ker.dev d).minor
      freeData d
      return 0
  else
    return 1

/-- `ndmgm_destroy_server`. -/
def ndmgmDestroyServer (env : DestroyEnv) (d : DevId) : Ker Int32 := do
  if ← Ker.downTrylock (.dev d) env.destroy then
    Ker.setDev d { ← Ker.dev d with active := false }
    if (← ndmgmRefs d) > 1 then
      Ker.up (.dev d)
      return 1
    else
      Ker.up (.dev d)
      freeData d
      return 0
  else
    return 1

/-- `ndmgm_destroy`. -/
def ndmgmDestroy (env : DestroyEnv) (d : DevId) : Ker Int32 := do
  if (← Ker.dev d).dummy then
    ndmgmDestroyDummy env d
  else
    ndmgmDestroyServer env d

/-- The part of `ndmgm_find_destroy` under the lock of the table. -/
def unlinkDev (free : Bool) (d : DevId) : Ker Unit := do
  if ← Ker.downTrylock .htable free then
    Ker.modify (·.unhash d)
    ndmgmPut d
    Ker.up .htable

/-- `ndmgm_find_destroy`. -/
def ndmgmFindDestroy (env : DestroyEnv) (nlpid : Int32) : Ker Int32 := do
  match ← ndmgmFind env.find nlpid with
  | none => return 1
  | some d => do
      unlinkDev env.findDestroy d
      ndmgmDestroy env d

/-- The loop of `ndmgm_end`. -/
def endDevs (env : DevId → DestroyEnv) : List DevId → Ker Unit
  | [] => return ()
  | d :: ds => do
      Ker.modify (·.unhash d)
      ndmgmPut d
      let _ ← ndmgmDestroy (env d) d
      endDevs env ds

/-- `ndmgm_end`; `free` is the trylock of its own. -/
def ndmgmEnd (free : Bool) (env : DevId → DestroyEnv) : Ker Int32 := do
  if ← Ker.downTrylock .htable free then
    let reg ← Ker.registry
    endDevs env (reg.netdevHtable.forEach reg.hashMin)
    Ker.modify fun reg => { reg with minors := none }
    Ker.up .htable
    return 0
  else
    return 1

end Netdev.Kernel
