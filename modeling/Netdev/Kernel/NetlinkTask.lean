-- SUMMARY: `netlink_recv` and the threads of the file operations as programs around `nllock` and the daemon's socket.
import Netdev.Kernel.FoTask
import Netdev.Kernel.Netlink

/-!
# Netlink messages as tasks

A call of `netlink_recv`, the `fo_recv` thread that it starts and the processes in
`fo_send` run interleaved. Between them stand the spinlock `nllock` of the device
and the order in which messages come to the socket of its daemon.
-/

namespace Netdev.Kernel
open Base

/-! ## Operations -/

/-- `find` is `ndmgm_find`, `registry` a function that registers or unregisters, and
`allocate` the allocation of an `sk_buff`. A task is named by a number. -/
inductive NlOp where
  | find
  | registry
  | allocate
  | kthreadCreate (nlh : NlMessage)
  | wakeUpProcess (task : Except Int32 Nat)
  | spinLock
  | spinUnlock
  | netlinkAck (err : Int32)
  | nlmsgUnicast
  | fo (op : FoOp)

abbrev NlOp.Res : NlOp → Type
  | .find => Bool
  | .registry => Int32
  | .allocate => Bool
  | .kthreadCreate _ => Except Int32 Nat
  | .nlmsgUnicast => Int32
  | .fo op => op.Res
  | _ => Unit

abbrev NlI : Interface := ⟨NlOp, NlOp.Res⟩

abbrev NlM := Prog NlI

abbrev nl (op : NlOp) : NlM op.Res := Prog.perform (I := NlI) op

/-! ## Senders -/

/-- The end of `netlink_send` and of `netlink_send_skb`. -/
def unicastLocked : NlM Int32 := do
  nl .spinLock
  let rvalue ← nl .nlmsgUnicast
  nl .spinUnlock
  if rvalue < 0 then
    return -1
  else
    return 0

/-- `netlink_send`. -/
def netlinkSendTask (found : Bool) : NlM Int32 := do
  if !found then
    return -1
  else if !(← nl .allocate) then
    return -1
  else
    unicastLocked

/-- `netlink_send_skb`; the null pointer is what a failed `netlink_pack_skb` leaves. -/
def netlinkSendSkb : NlM Int32 := do
  if !(← nl .allocate) then
    return -1
  else
    unicastLocked

/-- An operation of a file operation's task. Two of them send: `netlink_send`, and
`fo_execute` at its end. -/
def FoOp.task : (op : FoOp) → NlM op.Res
  | .netlinkSend _ => netlinkSendTask true
  | .execute acc nlh => do
      let rvalue ← nl (.fo (.execute acc nlh))
      let _ ← netlinkSendSkb
      return rvalue
  | op => nl (.fo op)

/-- A task of `fo_send` or of `fo_recv`. -/
def foTask (p : FoM Int32) : NlM Unit := do
  let _ ← p.translate FoOp.task
  return ()

/-! ## `netlink_recv` -/

/-- The `switch` over control messages. -/
def netlinkControlTask (nlh : NlMessage) : NlM Int32 := do
  if nlh.msgtype = MSGT_CONTROL_ECHO then
    netlinkSendTask (← nl .find)
  else if nlh.msgtype = MSGT_CONTROL_VERSION then
    netlinkSendTask (← nl .find)
  else if nlh.msgtype = MSGT_CONTROL_REG_DUMMY then
    nl .registry
  else if nlh.msgtype = MSGT_CONTROL_REG_SERVER then
    nl .registry
  else if nlh.msgtype = MSGT_CONTROL_UNREGISTER then
    nl .registry
  else
    return 0

/-- The lock is held if there is a device. -/
def unlockEnd (nddata : Bool) : NlM Unit :=
  if nddata then
    nl .spinUnlock
  else
    return ()

/-- The end of `netlink_recv`. -/
def recvEnd (nlh : NlMessage) (nddata : Bool) (err : Int32) : NlM Unit :=
  match netlinkAck nlh err with
  | some err => do
      nl (.netlinkAck err)
      unlockEnd nddata
  | none => unlockEnd nddata

/-- `PTR_ERR` of what `kthread_create` returns, or 0. -/
def ptrErr : Except Int32 Nat → Int32
  | .error err => err
  | .ok _ => 0

/-- From the lock on. -/
def wakeTask (nlh : NlMessage) (task : Except Int32 Nat) : NlM Unit := do
  nl (.wakeUpProcess task)
  recvEnd nlh true (ptrErr task)

/-- From the thread on. -/
def lockTask (nlh : NlMessage) (task : Except Int32 Nat) : NlM Unit := do
  nl .spinLock
  wakeTask nlh task

/-- From the device on. -/
def createTask (nlh : NlMessage) : NlM Unit := do
  lockTask nlh (← nl (.kthreadCreate nlh))

/-- The branch for file operations. -/
def fileOperationTask (nlh : NlMessage) : NlM Unit := do
  if !(← nl .find) then
    return ()
  else
    createTask nlh

def netlinkRecvTask (nlh : NlMessage) : NlM Unit :=
  if nlh.header.nlmsgPid = 0 then
    return ()
  else if MSGT_CONTROL_START ≤ nlh.msgtype ∧ nlh.msgtype < MSGT_CONTROL_END then do
    let err ← netlinkControlTask nlh
    recvEnd nlh false err
  else if isFileOperation nlh.msgtype then
    fileOperationTask nlh
  else
    recvEnd nlh false 0

/-! ## A call that nothing interrupts -/

/-- What it has left behind: whether a message was queued, the acknowledgement, and whether a
thread runs. -/
structure Left where
  reply : Bool
  ack : Option Int32
  task : Bool

def Left.nothing : Left := ⟨false, none, false⟩

/-- Its operations when the functions that it calls return what `env` says; a message that is
not sent may fail to be allocated or to be delivered. It stops where it wakes an error. -/
def RecvEnv.exec (env : RecvEnv) (allocated : Bool) : (op : NlOp) → Exec Left Unit op.Res
  | .find => pure env.found
  | .registry => pure env.registry
  | .allocate => pure (allocated || env.sendOk)
  | .kthreadCreate _ => pure (if env.thread = 0 then .ok 0 else .error env.thread)
  | .wakeUpProcess (.ok _) => Exec.modify fun l => { l with task := true }
  | .wakeUpProcess (.error _) => Exec.stop ()
  | .spinLock => pure ()
  | .spinUnlock => pure ()
  | .netlinkAck err => Exec.modify fun l => { l with ack := some err }
  | .nlmsgUnicast => fun l => if env.sendOk then (.ok 0, { l with reply := true }) else (.ok (-1), l)
  | .fo _ => Exec.stop ()

section
variable (env : RecvEnv) (allocated : Bool) (version : Int32) (nlh : NlMessage)

/-- A message is sent or not. -/
theorem netlinkSendTask_exec (flags : UInt16) (buff : Bytes) (l : Left) :
    (netlinkSendTask env.found).exec (env.exec allocated) l = (.ok (netlinkSendMsg env nlh flags buff).1,
      { l with reply := l.reply || (netlinkSendMsg env nlh flags buff).2.isSome }) := by
  obtain ⟨found, registry, sendOk, thread⟩ := env
  cases found with
  | false => simp [netlinkSendTask, netlinkSendMsg, Prog.exec]
  | true =>
      cases sendOk with
      | true =>
          have hunicast : unicastLocked.exec (RecvEnv.exec ⟨true, registry, true, thread⟩ allocated) l
              = (.ok 0, { l with reply := true }) := rfl
          simp [netlinkSendTask, netlinkSendMsg, Prog.exec, RecvEnv.exec, hunicast]
      | false =>
          have hunicast : unicastLocked.exec (RecvEnv.exec ⟨true, registry, false, thread⟩ allocated) l
              = (.ok (-1), l) := rfl
          cases allocated with
          | true => simp [netlinkSendTask, netlinkSendMsg, Prog.exec, RecvEnv.exec, hunicast]
          | false => simp [netlinkSendTask, netlinkSendMsg, Prog.exec, RecvEnv.exec]

theorem netlinkControlTask_exec (l : Left) :
    (netlinkControlTask nlh).exec (env.exec allocated) l = (.ok (netlinkControl env version nlh).1,
      { l with reply := l.reply || (netlinkControl env version nlh).2.isSome }) := by
  have hsend (flags : UInt16) (buff : Bytes) :
      (nl .find >>= fun found => netlinkSendTask found).exec (env.exec allocated) l
        = (.ok (netlinkSendMsg env nlh flags buff).1,
          { l with reply := l.reply || (netlinkSendMsg env nlh flags buff).2.isSome }) :=
    netlinkSendTask_exec env allocated nlh flags buff l
  have hquiet (err : Int32) :
      ((.ok err, l) : Except Unit Int32 × Left) = (.ok err, { l with reply := l.reply || false }) := by
    simp
  unfold netlinkControlTask netlinkControl
  simp only
  split_ifs
  · exact hsend _ _
  · exact hsend _ _
  · exact hquiet _
  · exact hquiet _
  · exact hquiet _
  · exact hquiet 0

theorem recvEnd_exec (nddata : Bool) (err : Int32) (l : Left) (hack : l.ack = none) :
    (recvEnd nlh nddata err).exec (env.exec allocated) l = (.ok (), { l with ack := netlinkAck nlh err }) := by
  obtain ⟨reply, ack, task⟩ := l
  subst hack
  unfold recvEnd
  cases netlinkAck nlh err with
  | none => cases nddata <;> rfl
  | some err => cases nddata <;> rfl

/-- Where nothing runs beside it the task does what `netlink_recv` does in one piece. -/
theorem netlinkRecvTask_exec :
    (netlinkRecvTask nlh).exec (env.exec allocated) .nothing = match netlinkRecv env version nlh with
      | some r => (.ok (), ⟨r.reply.isSome, r.ack, r.task⟩)
      | none => (.error (), .nothing) := by
  unfold netlinkRecvTask netlinkRecv
  by_cases hpid : nlh.header.nlmsgPid = 0
  · rw [if_pos hpid, if_pos hpid]
    rfl
  rw [if_neg hpid, if_neg hpid]
  by_cases hctl : MSGT_CONTROL_START ≤ nlh.msgtype ∧ nlh.msgtype < MSGT_CONTROL_END
  · rw [if_pos hctl, if_pos hctl]
    have hcontrol := netlinkControlTask_exec env allocated version nlh .nothing
    refine Prog.wp_exec_bind (Q := fun r l => (r, l) = _) (R := fun r l => (r, l) = _) hcontrol ?_ ?_
    · intro err l hl
      cases hl
      exact recvEnd_exec env allocated nlh false _ _ rfl
    · intro e l hl
      cases hl
  rw [if_neg hctl, if_neg hctl]
  by_cases hfo : isFileOperation nlh.msgtype
  swap
  · rw [if_neg hfo, if_neg hfo]
    exact recvEnd_exec env allocated nlh false 0 .nothing rfl
  rw [if_pos hfo, if_pos hfo]
  obtain ⟨found, registry, sendOk, thread⟩ := env
  cases found with
  | false => rfl
  | true =>
      by_cases hthread : thread = 0
      · subst hthread
        exact recvEnd_exec _ allocated nlh true 0 ⟨false, none, true⟩ rfl
      · -- an error is woken
        simp only [fileOperationTask, createTask, lockTask, wakeTask, Prog.call_bind, Prog.ret_bind, Prog.exec,
          RecvEnv.exec, pure_bind, ne_eq, hthread, not_false_eq_true, if_true, Bool.not_true, Bool.false_eq_true,
          if_false]
        rfl

end

/-! ## What the programs do with the lock -/

/-- Whether a task holds the lock after an operation. -/
def NlOp.holds (held : Bool) : NlOp → Bool
  | .spinLock => true
  | .spinUnlock => false
  | _ => held

/-- A task takes the lock when it has it not, and sends when it has it. -/
def NlOp.Allowed (held : Bool) : NlOp → Prop
  | .spinLock => held = false
  | .spinUnlock => held = true
  | .nlmsgUnicast => held = true
  | _ => True

/-- The program takes and releases the lock in turn, sends in between, and ends
without it. -/
def Disciplined {α : Type} : Bool → NlM α → Prop
  | held, .ret _ => held = false
  | held, .call op k => op.Allowed held ∧ ∀ r, Disciplined (op.holds held) (k r)

/-- Programs that neither create a thread nor wake one. -/
def NlOp.Plain : NlOp → Prop
  | .kthreadCreate _ => False
  | .wakeUpProcess _ => False
  | _ => True

abbrev Quiet {α : Type} (p : NlM α) : Prop := p.Only NlOp.Plain

section Disciplined
variable {α β : Type}

@[simp] theorem disciplined_ret (held : Bool) (a : α) :
    Disciplined held (.ret a : NlM α) ↔ held = false := Iff.rfl

@[simp] theorem disciplined_call (held : Bool) (op : NlOp) (k : op.Res → NlM α) :
    Disciplined held (.call op k : NlM α) ↔
      op.Allowed held ∧ ∀ r, Disciplined (op.holds held) (k r) := Iff.rfl

theorem Disciplined.bind {held : Bool} {p : NlM α} {f : α → NlM β} (h : Disciplined held p)
    (hf : ∀ a, Disciplined false (f a)) : Disciplined held (p >>= f) := by
  induction p generalizing held with
  | ret a =>
      obtain rfl : held = false := h
      exact hf a
  | call op k ih => exact ⟨h.1, fun r => ih r (h.2 r)⟩

theorem disciplined_perform {op : NlOp} (hallowed : op.Allowed false) (hholds : op.holds false = false) :
    Disciplined false (nl op) :=
  ⟨hallowed, fun _ => hholds⟩

end Disciplined

/-! ## The programs are disciplined -/

theorem unicastLocked_disciplined : Disciplined false unicastLocked := by
  refine ⟨rfl, fun _ => ⟨rfl, fun rvalue => ⟨rfl, fun _ => ?_⟩⟩⟩
  split
  · rfl
  · rfl

theorem unicastLocked_quiet : Quiet unicastLocked := by
  refine ⟨trivial, fun _ => ⟨trivial, fun rvalue => ⟨trivial, fun _ => ?_⟩⟩⟩
  split
  · trivial
  · trivial

theorem netlinkSendSkb_disciplined : Disciplined false netlinkSendSkb := by
  refine ⟨trivial, fun ok => ?_⟩
  cases ok with
  | false => rfl
  | true => exact unicastLocked_disciplined

theorem netlinkSendSkb_quiet : Quiet netlinkSendSkb := by
  refine ⟨trivial, fun ok => ?_⟩
  cases ok with
  | false => trivial
  | true => exact unicastLocked_quiet

theorem netlinkSendTask_disciplined (found : Bool) : Disciplined false (netlinkSendTask found) := by
  cases found with
  | false => rfl
  | true => exact netlinkSendSkb_disciplined

theorem netlinkSendTask_quiet (found : Bool) : Quiet (netlinkSendTask found) := by
  cases found with
  | false => trivial
  | true => exact netlinkSendSkb_quiet

/-- Each operation of a file operation's task leaves the lock as it was. -/
theorem FoOp.task_disciplined (op : FoOp) : Disciplined false op.task := by
  cases op with
  | netlinkSend d => exact netlinkSendTask_disciplined true
  | execute acc nlh =>
      refine ⟨trivial, fun rvalue => ?_⟩
      exact netlinkSendSkb_disciplined.bind fun _ => rfl
  | _ => exact disciplined_perform trivial rfl

theorem FoOp.task_quiet (op : FoOp) : Quiet op.task := by
  cases op with
  | netlinkSend d => exact netlinkSendTask_quiet true
  | execute acc nlh =>
      refine ⟨trivial, fun rvalue => ?_⟩
      exact netlinkSendSkb_quiet.bind fun _ => trivial
  | _ => exact ⟨trivial, fun _ => trivial⟩

theorem foTask_disciplined (p : FoM Int32) : Disciplined false (foTask p) := by
  refine Disciplined.bind ?_ fun _ => rfl
  induction p with
  | ret a => rfl
  | call op k ih => exact (FoOp.task_disciplined op).bind ih

theorem foTask_quiet (p : FoM Int32) : Quiet (foTask p) :=
  (Prog.Only.translate FoOp.task_quiet p).bind fun _ => trivial

theorem netlinkControlTask_disciplined (nlh : NlMessage) :
    Disciplined false (netlinkControlTask nlh) := by
  have hsend : Disciplined false (nl .find >>= netlinkSendTask) :=
    ⟨trivial, fun found => netlinkSendTask_disciplined found⟩
  have hregistry : Disciplined false (nl .registry) := disciplined_perform trivial rfl
  unfold netlinkControlTask
  split_ifs
  · exact hsend
  · exact hsend
  · exact hregistry
  · exact hregistry
  · exact hregistry
  · rfl

theorem netlinkControlTask_quiet (nlh : NlMessage) : Quiet (netlinkControlTask nlh) := by
  have hsend : Quiet (nl .find >>= netlinkSendTask) :=
    ⟨trivial, fun found => netlinkSendTask_quiet found⟩
  have hregistry : Quiet (nl .registry) := ⟨trivial, fun _ => trivial⟩
  unfold netlinkControlTask
  split_ifs
  · exact hsend
  · exact hsend
  · exact hregistry
  · exact hregistry
  · exact hregistry
  · trivial

theorem unlockEnd_disciplined (nddata : Bool) : Disciplined nddata (unlockEnd nddata) := by
  cases nddata with
  | false => rfl
  | true => exact ⟨rfl, fun _ => rfl⟩

theorem unlockEnd_quiet (nddata : Bool) : Quiet (unlockEnd nddata) := by
  cases nddata with
  | false => trivial
  | true => exact ⟨trivial, fun _ => trivial⟩

theorem recvEnd_disciplined (nlh : NlMessage) (nddata : Bool) (err : Int32) :
    Disciplined nddata (recvEnd nlh nddata err) := by
  unfold recvEnd
  cases netlinkAck nlh err with
  | none => exact unlockEnd_disciplined nddata
  | some err => exact ⟨trivial, fun _ => unlockEnd_disciplined nddata⟩

theorem recvEnd_quiet (nlh : NlMessage) (nddata : Bool) (err : Int32) :
    Quiet (recvEnd nlh nddata err) := by
  unfold recvEnd
  cases netlinkAck nlh err with
  | none => exact unlockEnd_quiet nddata
  | some err => exact ⟨trivial, fun _ => unlockEnd_quiet nddata⟩

theorem netlinkRecvTask_disciplined (nlh : NlMessage) : Disciplined false (netlinkRecvTask nlh) := by
  unfold netlinkRecvTask
  split_ifs
  · rfl
  · exact (netlinkControlTask_disciplined nlh).bind fun err => recvEnd_disciplined nlh false err
  · refine ⟨trivial, fun found => ?_⟩
    cases found with
    | false => rfl
    | true =>
        -- the thread is created without the lock and woken under it
        refine ⟨trivial, fun task => ⟨rfl, fun _ => ⟨trivial, fun _ => ?_⟩⟩⟩
        exact recvEnd_disciplined nlh true (ptrErr task)
  · exact recvEnd_disciplined nlh false 0

end Netdev.Kernel
