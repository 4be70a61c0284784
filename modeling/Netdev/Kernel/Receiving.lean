-- SUMMARY: `fo_recv` on a dummy device from call to return: an open without a request takes a file out of the table.
import Netdev.Kernel.Frame
import Netdev.Kernel.Lifetime
import Netdev.Kernel.FoSizes
import Netdev.Kernel.Sending

/-!
# Messages for a dummy device

`fo_recv` serves both sides. It starts a file for an open with an unknown access id, and
destroys the file of an open that fails; it asks for the kind of the device only in
between. A file that it has started has no requests, so that the open fails and the file
goes again. A file that was there goes as well.
-/

namespace Netdev.Kernel
open Base Registry

/-! ## Execution -/

/-- An operation with nobody else at work. Each operation has an environment of its own. -/
def FoOp.call (env : FoOp → FoEnv) (op : FoOp) : Exec Registry Halt op.Res := fun reg =>
  Ker.call (op.exec (env op)) reg

/-- `fo_recv` from its call to its end. -/
def foRecvAlone (env : FoOp → FoEnv) (nlh : NlMessage) : Exec Registry Halt Int32 :=
  (foRecv nlh).exec (FoOp.call env)

section Rules
variable {env : FoOp → FoEnv} {reg reg' : Registry} {α : Type} {Q : Except Halt α → Registry → Prop}

end Rules

/-! ## Operations -/

/-- The open files of a device. -/
def Registry.files (reg : Registry) (d : DevId) : Option (Hashtable UInt32 AccRef) :=
  (reg.devs d).map NetdevData.foaccHtable

/-- The file that `ndmgm_find_acc` finds under its lock. -/
def Registry.openFile (reg : Registry) (d : DevId) (pid : Int32) : Option AccRef :=
  match reg.devs d with
  | none => none
  | some x => (x.foaccHtable.possible reg.hashMin pid.toUInt32).find? fun a =>
      (reg.accs a).any fun data => data.accessId = pid

section Operations
variable {env : FoEnv} {reg : Registry} {a : AccRef} {d : DevId} {data : Acc} {x : NetdevData}

theorem call_complete {env : FoEnv} (reg : Registry) (p : Addr) : Ker.call ((FoOp.complete p).exec env) reg
    = (.ok (), reg.setReq p { reg.reqs p with comp := (reg.reqs p).comp + 1 }) := rfl

theorem Registry.Opened.call_foreqFind (h : reg.Opened a data x) {seq : Int32} {tmp : Option Addr}
    {queue : FoAccess} (hfind : foAccForeqFind env.free reg.reqs data.queue seq = some (tmp, queue)) :
    Ker.call ((FoOp.foreqFind a seq).exec env) reg = (.ok tmp, reg.setAcc a { data with queue }) := by
  refine Ker.call_eq (Ker.wp_acc_live h.file ?_)
  refine Ker.wp_registry ?_
  rw [hfind]
  exact ⟨rfl, rfl⟩

end Operations

/-! ## What is left of an open -/

/-- `fo_complete` returns -1: the lock of the queue is busy, its first request has another
sequence number, or a buffer for the reply cannot be allocated. -/
inductive CompleteFails (env : FoOp → FoEnv) (nlh : NlMessage) (a : AccRef) (reqs : Requests)
    (pending : List Addr) : Prop where
  | busy (h : (env (.foreqFind a nlh.header.nlmsgSeq.toInt32)).free = false)
  | unknown (h : ∀ p, pending.head? = some p → (reqs p).req.seq ≠ nlh.header.nlmsgSeq.toInt32.toInt64)
  | memory {p : Addr} (hp : pending.head? = some p)
      (hseq : (reqs p).req.seq = nlh.header.nlmsgSeq.toInt32.toInt64)
      (hin : InBounds (env (.deserializeToreq p nlh.payload)).argsOk
        (env (.deserializeToreq p nlh.payload)).dataOk (reqs p).req nlh.payload)
      (hno : NoBuffer (env (.deserializeToreq p nlh.payload)).argsOk
        (env (.deserializeToreq p nlh.payload)).dataOk (reqs p).req nlh.payload)

section Complete
variable {env : FoOp → FoEnv} {nlh : NlMessage} {reg : Registry} {a : AccRef} {data : Acc} {x : NetdevData}
  {ps : List Addr}

theorem call_deserialize {env : FoEnv} {p : Addr} {bytes : Bytes} {ok : Bool} {r : FoReq}
    (h : foDeserializeToreq env.argsOk env.dataOk (reg.reqs p).req bytes = .ok (ok, r)) :
    Ker.call ((FoOp.deserializeToreq p bytes).exec env) reg
      = (.ok ok, reg.setReq p { reg.reqs p with req := r }) := by
  refine Ker.call_eq (Ker.wp_registry (Ker.wp_ofMem_error (fun result hresult => ?_) (fun e he => ?_)))
  · obtain rfl := Except.ok.inj (h.symm.trans hresult)
    exact ⟨rfl, rfl⟩
  · exact nomatch h.symm.trans he

end Complete

/-- A reply to an open takes the file from the table: the file is found, and `fo_complete`
fails on it. -/
structure TakesFile (env : FoOp → FoEnv) (nlh : NlMessage) (reg : Registry) (d : DevId) (a : AccRef) :
    Prop where
  opens : nlh.msgtype = MSGT_FO_OPEN
  lock : (env (.findAcc d (asInt nlh.payload))).free = true ∧ Sem.dev d ∉ reg.stuck
  file : reg.openFile d (asInt nlh.payload) = some a
  fails : ∀ data, reg.accs a = some data → CompleteFails env nlh a reg.reqs data.queue.pending

section Receive
variable {env : FoOp → FoEnv} {nlh : NlMessage} {reg : Registry} {d : DevId} {x : NetdevData}

end Receive

/-! ## Messages one after the other -/

/-- A message that is handed to `fo_recv`, and what the call meets on its way. -/
structure Receipt where
  nlh : NlMessage
  env : FoOp → FoEnv

namespace Receipt

/-- The registry after the message. -/
def after (m : Receipt) (reg : Registry) : Registry := (foRecvAlone m.env m.nlh reg).2

/-- What `ndmgm_find` returns. -/
def finds (m : Receipt) (reg : Registry) : Except Halt (Option DevId) :=
  (Ker.call (ndmgmFind (m.env (.find m.nlh.header.nlmsgPid.toInt32)).free m.nlh.header.nlmsgPid.toInt32) reg).1

/-- The message is for this device. -/
def Addresses (m : Receipt) (reg : Registry) (d : DevId) : Prop := ∀ d', m.finds reg = .ok (some d') → d' = d

/-- The message takes a file from the table of the device. -/
def Takes (m : Receipt) (reg : Registry) (d : DevId) (a : AccRef) : Prop :=
  m.finds reg = .ok (some d) ∧ TakesFile m.env m.nlh reg d a

variable {m : Receipt} {reg : Registry} {d : DevId} {x : NetdevData}

end Receipt

/-- The registry after several messages. -/
def received (reg : Registry) (ms : List Receipt) : Registry := ms.foldl (fun reg m => m.after reg) reg

section Received
variable {reg : Registry} {d : DevId} {x : NetdevData} {m : Receipt}

end Received

end Netdev.Kernel
