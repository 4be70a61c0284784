-- SUMMARY: `fo_send`, `fo_recv` and `ndfo_send_open` as programs whose operations run on the registry one at a time.
import Netdev.Base.Prog
import Netdev.Kernel.FoExecute
import Netdev.Kernel.FoSend
import Netdev.Kernel.Netdevmgm

/-!
# File operations as tasks

A process in `fo_send` and a thread in `fo_recv` are interrupted by others between
any two of their operations on shared memory. What others may hold, and what the
allocators and the socket answer, is the environment of an operation.
-/

namespace Netdev.Kernel
open Base

/-! ## Operations -/

/-- A pointer that the pool hands out. -/
abbrev ReqPtr := { p : Addr // isErr p = false }

/-- `enter` is the begin of `fo_send` or of `fo_recv`. -/
inductive FoOp where
  | enter
  | findPid (minor : Nat)
  | find (nlpid : Int32)
  | get (nddata : Option DevId)
  | put (nddata : DevId)
  | findAcc (nddata : DevId) (accessId : Int32)
  | accStart (nddata : Option DevId) (pid : Int32)
  | accDestroy (acc : AccRef)
  | dummy (nddata : DevId)
  | active (acc : AccRef)
  /-- `kmem_cache_alloc`, and the fields that `fo_send` fills. -/
  | newReq (acc : AccRef) (call : FoCall)
  | foreqAdd (acc : AccRef) (req : ReqPtr)
  | kzalloc
  | incseq (nddata : DevId)
  | setSeq (req : ReqPtr) (seq : Int32)
  | netlinkSend (nddata : DevId)
  | wait (req : ReqPtr)
  | freeReq (acc : AccRef) (req : Option ReqPtr)
  | foreqFind (acc : AccRef) (seq : Int32)
  | deserializeToreq (req : Addr) (data : Bytes)
  | complete (req : Addr)
  | execute (acc : AccRef) (nlh : NlMessage)

abbrev FoOp.Res : FoOp → Type
  | .findPid .. => Int32
  | .find .. => Option DevId
  | .findAcc .. => Option AccRef
  | .accStart .. => Option AccRef
  | .dummy .. => Bool
  | .active .. => Bool
  | .newReq .. => Option ReqPtr
  | .foreqAdd .. => Int32
  | .kzalloc => Bool
  | .incseq .. => Int32
  | .netlinkSend .. => Int32
  | .wait .. => Int32
  | .foreqFind .. => Option Addr
  | .deserializeToreq .. => Bool
  | .execute .. => Int32
  | _ => Unit

abbrev FoI : Interface := ⟨FoOp, FoOp.Res⟩

abbrev FoM := Prog FoI

/-- An operation of a task. -/
abbrev fo (op : FoOp) : FoM op.Res := Prog.perform (I := FoI) op

/-- `free` is false when another thread holds the semaphore of a trylock; `addr` is
what the pool hands out, `fresh` the old content of it. -/
structure FoEnv where
  free : Bool
  start : StartEnv
  addr : Option ReqPtr
  ok : Bool
  argsOk : Bool
  dataOk : Bool
  netlink : Int32
  exec : ExecAlloc
  handler : HandlerEnv
  fresh : FoReq

/-- The memory of a request. -/
def Ker.setReq (p : Addr) (req : Pending) : Ker Unit :=
  Ker.modify fun reg => { reg with reqs := Function.update reg.reqs p req }

/-- What an operation does. A task that waits for a completion is blocked, as it is
by a semaphore that nobody releases. -/
def FoOp.exec (env : FoEnv) : (op : FoOp) → Ker op.Res
  | .enter => return ()
  | .findPid minor => ndmgmFindPid env.free minor
  | .find nlpid => ndmgmFind env.free nlpid
  | .get nddata => do ndmgmGet (← Ker.deref nddata)
  | .put d => ndmgmPut d
  | .findAcc d accessId => ndmgmFindAcc env.free d accessId
  | .accStart nddata pid => foAccStart env.start nddata pid
  | .accDestroy acc => foAccDestroy acc
  | .dummy d => do return (← Ker.dev d).dummy
  | .active acc => do
      let _ ← Ker.acc acc
      return (← Ker.dev acc.nddata).active
  | .newReq acc call => do
      let data ← Ker.acc acc
      let _ ← Ker.dev acc.nddata
      match env.addr with
      | none => return none
      | some p => do
          -- `seq` keeps the old content of the memory
          Ker.setReq p ⟨call.request data.accessId env.fresh.seq, 0⟩
          return some p
  | .foreqAdd acc req => do
      let data ← Ker.acc acc
      let (rvalue, queue) := foAccForeqAdd env.free data.queue req
      Ker.setAcc acc { data with queue }
      return rvalue
  | .kzalloc => return env.ok
  | .incseq d => ndmgmIncseq d
  | .setSeq req seq => do
      let p := (← Ker.registry).reqs req
      Ker.setReq req { p with req := { p.req with seq := seq.toInt64 } }
  | .netlinkSend d => do
      let _ ← Ker.dev d
      return env.netlink
  | .wait req => do
      let p := (← Ker.registry).reqs req
      if p.comp = 0 then
        Exec.stop .blocked
      else
        return p.req.rvalue
  | .freeReq acc req => do
      let _ ← Ker.acc acc
      let _ ← Ker.dev acc.nddata
      -- `kmem_cache_free` takes no null pointer
      let _ ← Ker.deref req
      return ()
  | .foreqFind acc seq => do
      let data ← Ker.acc acc
      match foAccForeqFind env.free (← Ker.registry).reqs data.queue seq with
      | none => Exec.stop .blocked
      | some (tmp, queue) => do
          Ker.setAcc acc { data with queue }
          return tmp
  | .deserializeToreq req data => do
      let p := (← Ker.registry).reqs req
      let (ok, r) ← Ker.ofMem (foDeserializeToreq env.argsOk env.dataOk p.req data)
      Ker.setReq req { p with req := r }
      return ok
  | .complete req => do
      let p := (← Ker.registry).reqs req
      Ker.setReq req { p with comp := p.comp + 1 }
  | .execute acc nlh => do
      let data ← Ker.acc acc
      let _ ← Ker.dev acc.nddata
      let result ← Ker.ofMem (foExecute env.exec env.handler env.fresh data.server nlh)
      Ker.setAcc acc { data with server := result.acc }
      return result.rvalue

/-! ## `fo_send` -/

/-- From the allocation of the request to the label `out`. -/
def foSendReq (acc : AccRef) (req : ReqPtr) : FoM Int32 := do
  let _ ← fo (.foreqAdd acc req)
  if !(← fo .kzalloc) then
    return -ENODATA
  else
    let seq ← fo (.incseq acc.nddata)
    fo (.setSeq req seq)
    if seq = 0 then
      return -EBUSY
    else if (← fo (.netlinkSend acc.nddata)) < 0 then
      return -ECANCELED
    else
      fo (.wait req)

/-- The label `out`. -/
def foSendOut (call : FoCall) (acc : AccRef) (req : Option ReqPtr) (rvalue : Int32) : FoM Int32 := do
  fo (.put acc.nddata)
  fo (.freeReq acc req)
  if call.msgtype = MSGT_FO_RELEASE.toInt16 then
    fo (.accDestroy acc)
    return rvalue
  else
    return rvalue

def foSend (call : FoCall) (acc : AccRef) : FoM Int32 := do
  fo .enter
  if !(← fo (.active acc)) then
    return -EBUSY
  else
    fo (.get (some acc.nddata))
    match ← fo (.newReq acc call) with
    | none => foSendOut call acc none (-ENOMEM)
    | some req => do
        let rvalue ← foSendReq acc req
        foSendOut call acc (some req) rvalue

/-- `ndfo_send_open`; `pad` is the padding of its args struct. -/
def ndfoSendOpen (minor : Nat) (pid : Int32) (pad : UInt32) : FoM Int32 := do
  let nlpid ← fo (.findPid minor)
  let nddata ← fo (.find nlpid)
  let acc : Option AccRef ← fo (.accStart nddata pid)
  match acc with
  | none => return -ENOMEM
  | some acc => foSend (.open pad) acc

/-! ## `fo_recv` -/

def foComplete (acc : AccRef) (nlh : NlMessage) : FoM Int32 := do
  match ← fo (.foreqFind acc nlh.header.nlmsgSeq.toInt32) with
  | none => return -1
  | some req => do
      if !(← fo (.deserializeToreq req nlh.payload)) then
        return -1
      else
        fo (.complete req)
        return 0

/-- `fo_execute` together with the end of a release. -/
def foExecuteTask (acc : AccRef) (nlh : NlMessage) : FoM Int32 := do
  let rvalue ← fo (.execute acc nlh)
  if nlh.msgtype = MSGT_FO_RELEASE then
    fo (.accDestroy acc)
    return rvalue
  else
    return rvalue

/-- The end of `fo_recv`. -/
def foRecvOut (d : DevId) (acc : AccRef) (nlh : NlMessage) (rvalue : Int32) : FoM Int32 := do
  if rvalue = -1 ∧ nlh.msgtype = MSGT_FO_OPEN then
    fo (.accDestroy acc)
    fo (.put d)
    return rvalue
  else
    fo (.put d)
    return rvalue

/-- `fo_recv` from where the open file is known. -/
def foRecvAcc (d : DevId) (acc : AccRef) (nlh : NlMessage) : FoM Int32 := do
  if ← fo (.dummy d) then
    let rvalue ← foComplete acc nlh
    foRecvOut d acc nlh rvalue
  else
    let rvalue ← foExecuteTask acc nlh
    foRecvOut d acc nlh rvalue

/-- The two early exits do not call `ndmgm_put`. -/
def foRecvDev (d : DevId) (nlh : NlMessage) : FoM Int32 := do
  match ← fo (.findAcc d (asInt nlh.payload)) with
  | some acc => foRecvAcc d acc nlh
  | none =>
      if nlh.msgtype ≠ MSGT_FO_OPEN then
        return -ENFILE
      else
        match ← fo (.accStart (some d) (asInt nlh.payload)) with
        | none => return -ENOMEM
        | some acc => foRecvAcc d acc nlh

/-- `IS_ERR` does not catch the null pointer of a failed lookup. -/
def foRecv (nlh : NlMessage) : FoM Int32 := do
  fo .enter
  let nddata : Option DevId ← fo (.find nlh.header.nlmsgPid.toInt32)
  fo (.get nddata)
  match nddata with
  | none => return -ENODEV
  | some d => foRecvDev d nlh

end Netdev.Kernel
