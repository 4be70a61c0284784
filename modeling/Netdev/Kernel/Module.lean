-- SUMMARY: The kernel module as a transition system: registrations, and any number of tasks that are interrupted anywhere.
import Netdev.Base.System
import Netdev.Kernel.FoTask
import Netdev.Kernel.Unregister

/-!
# The kernel module

The state is the registry and the tasks that run. A registration, an unregistration
and the end of the module are one step each; a task takes one step for each of its
operations.
-/

namespace Netdev.Kernel
open Base Registry

/-! ## References of a task -/

/-- The references that an operation takes. -/
def FoOp.hold : FoOp → DevId → Int
  | .get (some d) => Pi.single d 1
  | .put d => Pi.single d (-1)
  | _ => 0

section Operations
variable {c : Call}

theorem setReq_keeps (h : c.registry.Wf) (p : Addr) (req : Pending) :
    c.registry.Balanced { c.registry with reqs := Function.update c.registry.reqs p req } 0 :=
  .of_eq h rfl rfl rfl rfl rfl

theorem live_acc {a : AccRef} {data : Acc} (ha : c.registry.accs a = some data) :
    c.registry.accs a ≠ none :=
  ha.trans_ne (Option.some_ne_none _)

/-- Every operation keeps the balance but for the references it takes. -/
theorem FoOp.exec_keeps (h : c.registry.Wf) (env : FoEnv) (op : FoOp) :
    Exec.wp (op.exec env) (Keeps c.registry op.hold) c := by
  cases op with
  | enter => exact Balanced.refl h
  | findPid minor => exact (ndmgmFindPid_looks env.free minor).mono fun _ _ hr => hr.keeps h
  | find nlpid => exact (ndmgmFind_looks env.free nlpid).mono fun _ _ hr => hr.keeps h
  | get nddata =>
      cases nddata with
      | none => exact Balanced.refl h
      | some d => exact ndmgmGet_keeps h d
  | put d => exact ndmgmPut_keeps h d
  | findAcc d accessId => exact (ndmgmFindAcc_looks env.free d accessId).mono fun _ _ hr => hr.keeps h
  | accStart nddata pid => exact foAccStart_keeps h env.start nddata pid
  | accDestroy acc => exact foAccDestroy_keeps h acc
  | dummy d => exact Ker.wp_dev (fun _ _ => Balanced.refl h) (fun _ => Balanced.refl h)
  | active acc =>
      refine Ker.wp_acc (fun _ _ => ?_) (fun _ => Balanced.refl h)
      exact Ker.wp_dev (fun _ _ => Balanced.refl h) (fun _ => Balanced.refl h)
  | newReq acc call =>
      refine Ker.wp_acc (fun data _ => ?_) (fun _ => Balanced.refl h)
      refine Ker.wp_dev (fun _ _ => ?_) (fun _ => Balanced.refl h)
      cases env.addr with
      | none => exact Balanced.refl h
      | some p => exact setReq_keeps h _ _
  | foreqAdd acc req =>
      refine Ker.wp_acc (fun data ha => ?_) (fun _ => Balanced.refl h)
      obtain ⟨ps, hqueued⟩ := h.queued acc data ha
      rcases hqueued.foAccForeqAdd req.property env.free with hadd | hadd
      · exact balanced_setAcc h (live_acc ha) hadd
      · exact balanced_setAcc h (live_acc ha) hadd
  | kzalloc => exact Balanced.refl h
  | incseq d => exact ndmgmIncseq_keeps h d
  | setSeq req seq => exact setReq_keeps h _ _
  | netlinkSend d => exact Ker.wp_dev (fun _ _ => Balanced.refl h) (fun _ => Balanced.refl h)
  | wait req =>
      exact Ker.wp_registry (Exec.wp_ite (fun _ => Balanced.refl h) (fun _ => Balanced.refl h))
  | freeReq acc req =>
      refine Ker.wp_acc (fun _ _ => ?_) (fun _ => Balanced.refl h)
      refine Ker.wp_dev (fun _ _ => ?_) (fun _ => Balanced.refl h)
      exact Ker.wp_deref (fun _ _ => Balanced.refl h) (fun _ => Balanced.refl h)
  | foreqFind acc seq =>
      refine Ker.wp_acc (fun data ha => ?_) (fun _ => Balanced.refl h)
      obtain ⟨ps, hqueued⟩ := h.queued acc data ha
      obtain ⟨tmp, queue, ps', hfind, hqueue, -⟩ :=
        hqueued.foAccForeqFind env.free c.registry.reqs seq
      refine Ker.wp_registry ?_
      rw [hfind]
      exact balanced_setAcc h (live_acc ha) hqueue
  | deserializeToreq req data =>
      exact Ker.wp_registry (Ker.wp_ofMem (fun _ _ => setReq_keeps h _ _) (Balanced.refl h))
  | complete req => exact setReq_keeps h _ _
  | execute acc nlh =>
      refine Ker.wp_acc (fun data ha => ?_) (fun _ => Balanced.refl h)
      refine Ker.wp_dev (fun _ _ => ?_) (fun _ => Balanced.refl h)
      refine Ker.wp_ofMem (fun _ _ => ?_) (Balanced.refl h)
      obtain ⟨ps, hqueued⟩ := h.queued acc data ha
      exact balanced_setAcc h (live_acc ha) hqueued

end Operations

/-! ## Tasks -/

inductive Task where
  /-- An operation on an open file of a dummy device. -/
  | send (call : FoCall) (acc : AccRef)
  | open (minor : Nat) (pid : Int32) (pad : UInt32)
  | recv (nlh : NlMessage)

def Task.prog : Task → FoM Int32
  | .send call acc => foSend call acc
  | .open minor pid pad => ndfoSendOpen minor pid pad
  | .recv nlh => foRecv nlh

/-- A process operates on files that exist, it opens nodes of devices that exist, and
`netlink_recv` starts a thread when it has found a device. -/
def Task.Enabled (reg : Registry) : Task → Prop
  | .send _ acc => reg.accs acc ≠ none
  | .open minor _ _ => ∃ d nddata, reg.devs d = some nddata ∧ nddata.dummy = true ∧
      nddata.minor = minor
  | .recv nlh => ∃ free d, (Ker.call (ndmgmFind free nlh.header.nlmsgPid.toInt32) reg).1 = .ok (some d)

/-- `started` says whether `fo_send` or `fo_recv` was entered. `held` are the
references that the task has taken and not dropped; no code looks at it. -/
structure Thread where
  task : Task
  prog : FoM Int32
  started : Bool
  held : DevId → Int

def Task.thread (task : Task) : Thread := ⟨task, task.prog, false, 0⟩

def FoOp.starts : FoOp → Bool
  | .enter => true
  | _ => false

/-- After an operation, with what follows it. -/
def Thread.next (t : Thread) (op : FoOp) (prog : FoM Int32) : Thread :=
  ⟨t.task, prog, t.started || op.starts, t.held + op.hold⟩

/-! ## The system -/

/-- The messages that `netlink_recv` hands to the registry, with the sender's pid. -/
inductive Control where
  | regDummy (env : CreateEnv) (pid : Int32)
  | regServer (env : CreateEnv) (pid : Int32)
  | unregister (env : DestroyEnv) (pid : Int32)

namespace Control

def pid : Control → Int32
  | .regDummy _ pid => pid
  | .regServer _ pid => pid
  | .unregister _ pid => pid

def exec : Control → Ker Int32
  | .regDummy env pid => ndmgmCreateDummy env pid
  | .regServer env pid => ndmgmCreateServer env pid
  | .unregister env pid => ndmgmFindDestroy env pid

/-- The registry after the message. -/
def after (msg : Control) (reg : Registry) : Registry := (Ker.call msg.exec reg).2

end Control

/-- The registry after `ndmgm_end`. -/
def Registry.ended (reg : Registry) (free : Bool) (env : DevId → DestroyEnv) : Registry :=
  (Ker.call (ndmgmEnd free env) reg).2

namespace Module

structure State where
  registry : Registry
  threads : List Thread

inductive Label where
  | control (msg : Control)
  | exit (free : Bool) (env : DevId → DestroyEnv)
  | start (task : Task)
  | perform (n : Nat) (env : FoEnv)
  | finish (n : Nat)

/-- A step of a task. -/
def OfTask : Label → Prop
  | .control _ => False
  | .exit .. => False
  | _ => True

/-- A message from pid 0 is ignored. A task that follows a pointer to memory that is
gone does not run any more; one that is blocked stays where it is. -/
inductive Step : State → Label → State → Prop where
  | control {s : State} {msg : Control} (hpid : msg.pid ≠ 0) :
      Step s (.control msg) { s with registry := msg.after s.registry }
  | exit {s : State} {free : Bool} {env : DevId → DestroyEnv} :
      Step s (.exit free env) { s with registry := s.registry.ended free env }
  | start {s : State} {task : Task} (henabled : task.Enabled s.registry) :
      Step s (.start task) { s with threads := s.threads ++ [task.thread] }
  | perform {reg reg' : Registry} {ts ts' : List Thread} {t : Thread} {env : FoEnv} {op : FoOp}
      {k : op.Res → FoM Int32} {r : op.Res} (hprog : t.prog = .call op k)
      (hexec : Ker.call (op.exec env) reg = (.ok r, reg')) :
      Step ⟨reg, ts ++ t :: ts'⟩ (.perform ts.length env) ⟨reg', ts ++ t.next op (k r) :: ts'⟩
  | oops {reg reg' : Registry} {ts ts' : List Thread} {t : Thread} {env : FoEnv} {op : FoOp}
      {k : op.Res → FoM Int32} {e : Halt} (hprog : t.prog = .call op k)
      (hexec : Ker.call (op.exec env) reg = (.error e, reg')) (he : e ≠ .blocked) :
      Step ⟨reg, ts ++ t :: ts'⟩ (.perform ts.length env) ⟨reg', ts ++ ts'⟩
  | finish {reg : Registry} {ts ts' : List Thread} {t : Thread} {rvalue : Int32}
      (hprog : t.prog = .ret rvalue) :
      Step ⟨reg, ts ++ t :: ts'⟩ (.finish ts.length) ⟨reg, ts ++ ts'⟩

/-- After `ndmgm_prepare` no task runs. -/
def system (hashMin : UInt32 → Fin 32) (reqs : Requests) : System State Label where
  init s := s = ⟨.prepare hashMin reqs, []⟩
  step := Step

end Module

/-! ## Sample tasks -/

namespace Sample

/-- All entries of a table in one bucket. -/
def hashMin : UInt32 → Fin 32 := fun _ => 0

def requests : Requests := fun _ =>
  ⟨{ seq := 0, msgtype := 0, accessId := 0, args := none, data := none, size := 0, dataSize := 0,
     rvalue := 0 }, 0⟩

/-- Every lock is free and every allocation succeeds; a remote device cannot be opened. -/
def foEnv : FoEnv where
  free := true
  start := .all
  addr := some ⟨4096, by decide⟩
  ok := true
  argsOk := true
  dataOk := true
  netlink := 0
  exec := .all
  handler := ⟨.error (-2), true⟩
  fresh := (requests 0).req

/-- A seek to the start of a file. -/
def seek : FoCall := .llseek 0 0 0

/-- A read of process 3, sent by the daemon 7. -/
def strayRead : NlMessage := .build 7 MSGT_FO_READ NLM_F_ACK (toBytes (3 : Int32))

/-- The open of process 3, as the server gets it. -/
def openRequest : NlMessage :=
  .build 7 MSGT_FO_OPEN NLM_F_ACK (toBytes (3 : Int32) ++ toBytes (-1 : Int32) ++ toBytes (16 : UInt64) ++
    toBytes (0 : UInt64) ++ toBytes ({ inode := 0, rvalue := - EIO, pad := 0 } : SFoOpen))

/-- The module after the daemon 7 has registered a server device. -/
def served : Module.State := ⟨(Control.regServer .all 7).after (.prepare hashMin requests), []⟩

def system : System Module.State Module.Label := Module.system hashMin requests

end Sample

end Netdev.Kernel
