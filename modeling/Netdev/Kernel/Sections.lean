-- SUMMARY: The module with registrations, unregistrations and its end interrupted between any two of their lock sections.
import Netdev.Kernel.Module

/-!
# Lock sections

`netlink_recv` runs in its sender, so that several messages are handled at once, and threads
of file operations run between two statements of a message. Here the functions behind a
message are programs too: one operation for each section under a lock that they release
again, and one for each access outside of such a section. The steps of `Module`, which
handle a message without interruption, are runs of this system.
-/

namespace Netdev.Kernel
open Base Registry

/-! ## Operations -/

/-- What follows `ndmgm_get_minor` in a registration is one operation: nobody knows the new
device before `hash_add`. -/
inductive MgmOp where
  | getMinor (pid : Int32)
  | publishDummy (nlpid : Int32) (minor : Nat)
  | publishServer (nlpid : Int32)
  | find (nlpid : Int32)
  | unlink (nddata : DevId)
  | dummy (nddata : DevId)
  | lockDev (nddata : DevId)
  /-- The trylock of `ndmgm_destroy_allacc`. -/
  | lockFiles (nddata : DevId)
  /-- The trylock of `ndmgm_end`. -/
  | lockTable
  | up (sem : Sem)
  | deactivate (nddata : DevId)
  | files (nddata : DevId)
  | unhash (nddata : DevId)
  | freeQueue (acc : AccRef)
  | accDestroy (acc : AccRef)
  | refs (nddata : DevId)
  | putMinor (nddata : DevId)
  | free (nddata : DevId)
  | devices
  /-- What `ndmgm_end` does to a device before it destroys it. -/
  | take (nddata : DevId)
  | freeMinors

abbrev MgmOp.Res : MgmOp → Type
  | .getMinor .. => Option Nat
  | .publishDummy .. => Int32
  | .publishServer .. => Int32
  | .find .. => Option DevId
  | .dummy .. => Bool
  | .lockDev .. => Bool
  | .lockFiles .. => Bool
  | .lockTable => Bool
  | .files .. => List AccRef
  | .freeQueue .. => Int32
  | .refs .. => Int
  | .devices => List DevId
  | _ => Unit

abbrev MgmI : Interface := ⟨MgmOp, MgmOp.Res⟩

abbrev MgmM := Prog MgmI

/-- An operation of a message. -/
abbrev mgm (op : MgmOp) : MgmM op.Res := Prog.perform (I := MgmI) op

/-- `free` is false when another thread is inside a section of its own. -/
structure MgmEnv where
  free : Bool
  create : CreateEnv

def MgmEnv.all : MgmEnv := ⟨true, .all⟩

def MgmOp.exec (env : MgmEnv) : (op : MgmOp) → Ker op.Res
  | .getMinor pid => ndmgmGetMinor env.free pid
  | .publishDummy nlpid minor => Kernel.publishDummy env.create nlpid minor
  | .publishServer nlpid => ndmgmCreateServer env.create nlpid
  | .find nlpid => ndmgmFind env.free nlpid
  | .unlink d => unlinkDev env.free d
  | .dummy d => do return (← Ker.dev d).dummy
  | .lockDev d => Ker.downTrylock (.dev d) env.free
  | .lockFiles _ => Ker.downTrylock .htable env.free
  | .lockTable => Ker.downTrylock .htable env.free
  | .up sem => Ker.up sem
  | .deactivate d => do Ker.setDev d { ← Ker.dev d with active := false }
  | .files d => do
      let nddata ← Ker.dev d
      return nddata.foaccHtable.forEach (← Ker.registry).hashMin
  | .unhash d => Ker.modify (·.unhash d)
  | .freeQueue acc => Kernel.freeQueue acc
  | .accDestroy acc => foAccDestroy acc
  | .refs d => ndmgmRefs d
  | .putMinor d => do ndmgmPutMinor env.free (← Ker.dev d).minor
  | .free d => freeData d
  | .devices => do
      let reg ← Ker.registry
      return reg.netdevHtable.forEach reg.hashMin
  | .take d => do
      Ker.modify (·.unhash d)
      ndmgmPut d
  | .freeMinors => Ker.modify fun reg => { reg with minors := none }

/-! ## Programs -/

namespace Sections

def ndmgmCreateDummy (nlpid : Int32) : MgmM Int32 := do
  let minor : Option Nat ← mgm (.getMinor nlpid)
  match minor with
  | none => return 1
  | some minor => mgm (.publishDummy nlpid minor)

def destroyAccs (d : DevId) : List AccRef → MgmM Int32
  | [] => do
      mgm (.up .htable)
      return 0
  | acc :: accs => do
      mgm (.unhash d)
      if (← mgm (.freeQueue acc)) ≠ 0 then
        return 1
      else
        mgm (.accDestroy acc)
        destroyAccs d accs

def ndmgmDestroyAllacc (d : DevId) : MgmM Int32 := do
  if ← mgm (.lockFiles d) then
    destroyAccs d (← mgm (.files d))
  else
    return 1

def ndmgmDestroyDummy (d : DevId) : MgmM Int32 := do
  if ← mgm (.lockDev d) then
    mgm (.deactivate d)
    if (← ndmgmDestroyAllacc d) ≠ 0 then
      mgm (.up (.dev d))
      return 1
    else if (← mgm (.refs d)) > 1 then
      mgm (.up (.dev d))
      return 1
    else
      mgm (.up (.dev d))
      mgm (.putMinor d)
      mgm (.free d)
      return 0
  else
    return 1

def ndmgmDestroyServer (d : DevId) : MgmM Int32 := do
  if ← mgm (.lockDev d) then
    mgm (.deactivate d)
    if (← mgm (.refs d)) > 1 then
      mgm (.up (.dev d))
      return 1
    else
      mgm (.up (.dev d))
      mgm (.free d)
      return 0
  else
    return 1

def ndmgmDestroy (d : DevId) : MgmM Int32 := do
  if ← mgm (.dummy d) then
    ndmgmDestroyDummy d
  else
    ndmgmDestroyServer d

def ndmgmFindDestroy (nlpid : Int32) : MgmM Int32 := do
  let nddata : Option DevId ← mgm (.find nlpid)
  match nddata with
  | none => return 1
  | some d => do
      mgm (.unlink d)
      ndmgmDestroy d

def endDevs : List DevId → MgmM Unit
  | [] => return ()
  | d :: ds => do
      mgm (.take d)
      let _ ← ndmgmDestroy d
      endDevs ds

/-- The devices are those that are in the table when `ndmgm_end` has its lock. -/
def ndmgmEnd : MgmM Int32 := do
  if ← mgm .lockTable then
    endDevs (← mgm .devices)
    mgm .freeMinors
    mgm (.up .htable)
    return 0
  else
    return 1

/-! ## The system -/

/-- What is called: by `netlink_recv` for a message of a pid, or when the module goes. -/
inductive Callee where
  | createDummy (pid : Int32)
  | createServer (pid : Int32)
  | findDestroy (pid : Int32)
  | moduleEnd

def Callee.prog : Callee → MgmM Int32
  | .createDummy pid => ndmgmCreateDummy pid
  | .createServer pid => mgm (.publishServer pid)
  | .findDestroy pid => ndmgmFindDestroy pid
  | .moduleEnd => ndmgmEnd

/-- `netlink_recv` ignores messages from pid 0. -/
def Callee.Enabled : Callee → Prop
  | .createDummy pid => pid ≠ 0
  | .createServer pid => pid ≠ 0
  | .findDestroy pid => pid ≠ 0
  | .moduleEnd => True

/-- The device that a destructor may free after this answer of `ndmgm_refs`. -/
def passed : Event MgmI → Option DevId
  | ⟨.refs d, n⟩ => if n ≤ (1 : Int) then some d else none
  | _ => none

/-- `own` are the semaphores that the call holds. `past` is the last device whose counter it
has found small enough to free it; no code looks at it. -/
structure Caller where
  prog : MgmM Int32
  own : List Sem
  past : Option DevId

def Callee.caller (callee : Callee) : Caller := ⟨callee.prog, [], none⟩

/-- After an operation, with what follows it and the semaphores that are held then. -/
def Caller.next (c : Caller) (e : Event MgmI) (prog : MgmM Int32) (own : List Sem) : Caller :=
  ⟨prog, own, (passed e).or c.past⟩

/-- The semaphores of running calls are among those that are stuck for everybody else. -/
structure State where
  registry : Registry
  threads : List Thread
  callers : List Caller

/-- The tasks among what runs. -/
def State.tasks (s : State) : Module.State := ⟨s.registry, s.threads⟩

inductive Label where
  | task (l : Module.Label)
  | call (callee : Callee)
  | perform (n : Nat) (env : MgmEnv)
  | return (n : Nat)

/-- The registry as a call sees it: its own semaphores are not those of others. -/
def Caller.enter (c : Caller) (reg : Registry) : Call := ⟨{ reg with stuck := reg.stuck.diff c.own }, c.own⟩

/-- The registry as the others see it then. -/
def settle (c : Call) : Registry := { c.registry with stuck := c.own ++ c.registry.stuck }

/-- A call that waits for a semaphore stays where it is, also when the semaphore is its own.
What a call still holds when it returns or dies is never released. -/
inductive Step : State → Label → State → Prop where
  | task {reg reg' : Registry} {ts ts' : List Thread} {cs : List Caller} {l : Module.Label} (hl : Module.OfTask l)
      (hstep : Module.Step ⟨reg, ts⟩ l ⟨reg', ts'⟩) : Step ⟨reg, ts, cs⟩ (.task l) ⟨reg', ts', cs⟩
  | call {s : State} {callee : Callee} (henabled : callee.Enabled) :
      Step s (.call callee) { s with callers := callee.caller :: s.callers }
  | perform {reg : Registry} {ts : List Thread} {cs cs' : List Caller} {c : Caller} {env : MgmEnv} {op : MgmOp}
      {k : op.Res → MgmM Int32} {r : op.Res} {c' : Call} (hprog : c.prog = .call op k)
      (hexec : op.exec env (c.enter reg) = (.ok r, c')) :
      Step ⟨reg, ts, cs ++ c :: cs'⟩ (.perform cs.length env)
        ⟨settle c', ts, cs ++ c.next ⟨op, r⟩ (k r) c'.own :: cs'⟩
  | oops {reg : Registry} {ts : List Thread} {cs cs' : List Caller} {c : Caller} {env : MgmEnv} {op : MgmOp}
      {k : op.Res → MgmM Int32} {c' : Call} (hprog : c.prog = .call op k)
      (hexec : op.exec env (c.enter reg) = (.error .fault, c')) :
      Step ⟨reg, ts, cs ++ c :: cs'⟩ (.perform cs.length env) ⟨settle c', ts, cs ++ cs'⟩
  | return {reg : Registry} {ts : List Thread} {cs cs' : List Caller} {c : Caller} {rvalue : Int32}
      (hprog : c.prog = .ret rvalue) :
      Step ⟨reg, ts, cs ++ c :: cs'⟩ (.return cs.length) ⟨reg, ts, cs ++ cs'⟩

/-- After `ndmgm_prepare` nothing runs. -/
def system (hashMin : UInt32 → Fin 32) (reqs : Requests) : System State Label where
  init s := s = ⟨.prepare hashMin reqs, [], []⟩
  step := Step

def Sample.system : System State Label := Sections.system Kernel.Sample.hashMin Kernel.Sample.requests

end Sections

end Netdev.Kernel
