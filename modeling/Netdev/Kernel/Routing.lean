-- SUMMARY: Client and server together: which open file an operation, its execution and its reply meet.
import Netdev.Kernel.FailedOpen
import Netdev.Kernel.FileTable

/-!
# Routing between two machines

The files of a dummy device of the client are opened on a device of the server. A
message names its file by the access id, which is the pid of the process that has
opened it, and `fo_recv` of either side looks it up. Messages pass through both
daemons and may be late. Both devices are known from the start: a program begins
where it has found its device.
-/

namespace Netdev.Kernel
open Base Registry

namespace Routing

/-! ## `fo_send` -/

/-- How far `fo_send` is. It is astray when it does what it never does. -/
inductive Outbound where
  | opening
  | ready (acc : AccRef)
  | waiting (acc : AccRef)
  | woken (acc : AccRef)
  | closed
  | astray
  deriving DecidableEq

namespace Outbound

/-- A release that has done its work, or not even sent it, destroys its own file. -/
def afterDestroy (releases : Bool) (acc acc' : AccRef) : Outbound :=
  if releases = true ∧ acc' = acc then .closed else .astray

/-- The phase of `fo_send` on a file of `pid` after an operation. -/
def after (d : DevId) (pid : Int32) (releases : Bool) : Outbound → FileEvent → Outbound
  | .opening, .start d' pid' acc =>
      if d' = some d ∧ pid' = pid then
        match acc with
        | some acc => .ready acc
        | none => .closed
      else
        .astray
  | .ready acc, .send sent => if sent then .waiting acc else .ready acc
  | .ready acc, .destroy acc' => afterDestroy releases acc acc'
  | .ready acc, .other => .ready acc
  | .waiting acc, .wait => .woken acc
  | .woken acc, .destroy acc' => afterDestroy releases acc acc'
  | .woken acc, .other => .woken acc
  | _, _ => .astray

/-- What a call that returns has done: one that was not woken reports failure. -/
def Final (releases : Bool) (rvalue : Int32) : Outbound → Prop
  | .ready _ => rvalue < 0
  | .opening => rvalue < 0
  | .woken _ => True
  | .closed => releases = true ∨ rvalue < 0
  | _ => False

/-- The file that the call uses. -/
def acc? : Outbound → Option AccRef
  | .ready acc => some acc
  | .waiting acc => some acc
  | .woken acc => some acc
  | _ => none

end Outbound

/-! ## `fo_recv` -/

/-- How far a thread of `fo_recv` is. `done` is after `complete` on the client, and after
`fo_execute` on the server. -/
inductive Inbound where
  | lookup
  | missed
  | found (acc : AccRef)
  | done (acc : AccRef)
  | gone (acc : AccRef)
  | failed
  | astray
  deriving DecidableEq

namespace Inbound

/-- The phase after an operation of a thread with this message, on a device of this
kind. -/
def after (dummy : Bool) (d : DevId) (nlh : NlMessage) : Inbound → FileEvent → Inbound
  | .lookup, .lookup d' pid acc =>
      if d' = d ∧ pid = asInt nlh.payload then
        match acc with
        | some acc => .found acc
        | none => .missed
      else
        .astray
  | .missed, .start d' pid acc =>
      if d' = some d ∧ pid = asInt nlh.payload ∧ nlh.msgtype = MSGT_FO_OPEN then
        match acc with
        | some acc => .found acc
        | none => .failed
      else
        .astray
  | .found acc, .search acc' => if dummy = true ∧ acc' = acc then .found acc else .astray
  | .found acc, .complete => if dummy = true then .done acc else .astray
  | .found acc, .execute acc' nlh' _ =>
      if dummy = false ∧ acc' = acc ∧ nlh' = nlh then .done acc else .astray
  | .found acc, .destroy acc' =>
      if dummy = true ∧ nlh.msgtype = MSGT_FO_OPEN ∧ acc' = acc then .failed else .astray
  | .done acc, .destroy acc' =>
      if dummy = false ∧ nlh.msgtype = MSGT_FO_RELEASE ∧ acc' = acc then .gone acc else .astray
  | ph, .kind .. => ph
  | ph, .other => ph
  | _, _ => .astray

/-- The file that the thread has found. -/
def acc? : Inbound → Option AccRef
  | .found acc => some acc
  | .done acc => some acc
  | .gone acc => some acc
  | _ => none

/-- The server has executed the operation. -/
def executed : Inbound → Bool
  | .done _ => true
  | .gone _ => true
  | _ => false

end Inbound

/-! ## The programs keep to their phases -/

/-- The phases of `fo_send`, for `Prog.wp`. -/
def outEnv (d : DevId) (pid : Int32) (releases : Bool) : Prog.Env FoI Outbound :=
  fun ph e ph' => ph' = ph.after d pid releases (e.1.event e.2)

/-- What is known of the results on a machine whose device is of this kind. -/
def Admits (dummy : Bool) (d : DevId) : FileEvent → Prop
  | .kind d' dummy' => d' = d → dummy' = dummy
  | .execute _ _ rvalue => rvalue ≠ -1
  | _ => True

def inEnv (dummy : Bool) (d : DevId) (nlh : NlMessage) : Prog.Env FoI Inbound :=
  fun ph e ph' => Admits dummy d (e.1.event e.2) ∧ ph' = ph.after dummy d nlh (e.1.event e.2)

/-- The rest of a call of `fo_send`. -/
def OnCourse (d : DevId) (pid : Int32) (releases : Bool) (prog : FoM Int32) (ph : Outbound) : Prop :=
  prog.wp (outEnv d pid releases) (· ≠ .astray) (fun rvalue ph => ph.Final releases rvalue) ph

/-- The rest of a thread. -/
def OnTrack (dummy : Bool) (d : DevId) (nlh : NlMessage) (prog : FoM Int32) (ph : Inbound) : Prop :=
  prog.wp (inEnv dummy d nlh) (· ≠ .astray) (fun _ ph => ph ≠ .astray) ph

/-- The release, by the test of `fo_send`. -/
def releases (call : FoCall) : Bool := call.msgtype = MSGT_FO_RELEASE.toInt16

section Programs
variable {d : DevId} {pid : Int32} {call : FoCall} {acc : AccRef} {rel : Bool}

theorem onCourse_call {op : FoOp} {k : op.Res → FoM Int32} {ph : Outbound} (hph : ph ≠ .astray)
    (h : ∀ r, OnCourse d pid rel (k r) (ph.after d pid rel (op.event r))) :
    OnCourse d pid rel (.call op k) ph := by
  refine ⟨hph, fun r ph' hph' => ?_⟩
  obtain rfl := hph'
  exact h r

/-- The end of `fo_send`, when it was woken or reports failure. -/
theorem foSendOut_onCourse (req : Option ReqPtr) {rvalue : Int32} {ph : Outbound}
    (hph : ph = .woken acc ∨ ph = .ready acc ∧ rvalue < 0) :
    OnCourse d pid (releases call) (foSendOut call acc req rvalue) ph := by
  have hdestroy : releases call = true →
      OnCourse d pid (releases call) (do fo (.accDestroy acc); return rvalue) ph := by
    intro hrel
    rcases hph with rfl | ⟨rfl, hneg⟩
    · refine onCourse_call (by simp) fun _ => ?_
      change Outbound.Final _ _ (Outbound.afterDestroy (releases call) acc acc)
      rw [Outbound.afterDestroy, if_pos ⟨hrel, rfl⟩]
      exact .inl hrel
    · refine onCourse_call (by simp) fun _ => ?_
      change Outbound.Final _ _ (Outbound.afterDestroy (releases call) acc acc)
      rw [Outbound.afterDestroy, if_pos ⟨hrel, rfl⟩]
      exact .inl hrel
  have hreturn : OnCourse d pid (releases call) (.ret rvalue) ph := by
    rcases hph with rfl | ⟨rfl, hneg⟩
    · exact trivial
    · exact hneg
  have hend : OnCourse d pid (releases call)
      (if call.msgtype = MSGT_FO_RELEASE.toInt16 then do fo (.accDestroy acc); return rvalue
        else return rvalue) ph := by
    by_cases hrel : call.msgtype = MSGT_FO_RELEASE.toInt16
    · rw [if_pos hrel]
      exact hdestroy (decide_eq_true hrel)
    · rw [if_neg hrel]
      exact hreturn
  have hstay : ph.after d pid (releases call) .other = ph := by
    rcases hph with rfl | ⟨rfl, -⟩
    · rfl
    · rfl
  have hne : ph ≠ .astray := by
    rcases hph with rfl | ⟨rfl, -⟩
    · simp
    · simp
  refine onCourse_call hne fun _ => ?_
  change OnCourse d pid (releases call) _ (ph.after d pid (releases call) .other)
  rw [hstay]
  refine onCourse_call hne fun _ => ?_
  change OnCourse d pid (releases call) _ (ph.after d pid (releases call) .other)
  rw [hstay]
  exact hend

theorem foSend_onCourse : OnCourse d pid (releases call) (foSend call acc) (.ready acc) := by
  have hready : (Outbound.ready acc) ≠ .astray := by simp
  refine onCourse_call hready fun _ => onCourse_call hready fun active => ?_
  cases active with
  | false => exact (by decide : -EBUSY < 0)
  | true =>
      refine onCourse_call hready fun _ => onCourse_call hready fun req => ?_
      cases req with
      | none => exact foSendOut_onCourse none (.inr ⟨rfl, by decide⟩)
      | some req =>
          refine onCourse_call hready fun _ => onCourse_call hready fun ok => ?_
          cases ok with
          | false => exact foSendOut_onCourse (some req) (.inr ⟨rfl, by decide⟩)
          | true =>
              refine onCourse_call hready fun seq => onCourse_call hready fun _ => ?_
              change OnCourse d pid (releases call) ((if seq = 0 then _ else _ : FoM Int32) >>= _) (.ready acc)
              by_cases hseq : seq = 0
              · rw [if_pos hseq]
                exact foSendOut_onCourse (some req) (.inr ⟨rfl, by decide⟩)
              · rw [if_neg hseq]
                refine onCourse_call hready fun sent => ?_
                change OnCourse d pid (releases call) ((if sent < 0 then _ else _ : FoM Int32) >>= _)
                  (if (!decide (sent < 0)) = true then .waiting acc else .ready acc)
                by_cases hsent : sent < 0
                · have hnot : ¬ (!decide (sent < 0)) = true := by simp [hsent]
                  rw [if_pos hsent, if_neg hnot]
                  exact foSendOut_onCourse (some req) (.inr ⟨rfl, by decide⟩)
                · have hok : (!decide (sent < 0)) = true := by simp [hsent]
                  rw [if_neg hsent, if_pos hok]
                  exact onCourse_call (by simp) fun rvalue => foSendOut_onCourse (some req) (.inl rfl)

/-- `ndfo_send_open` from `fo_acc_start` on. -/
theorem ndfoSendOpenStart_onCourse (pad : UInt32) :
    OnCourse d pid (releases (.open pad)) (ndfoSendOpenStart (some d) pid pad) .opening := by
  refine onCourse_call (by simp) fun started => ?_
  change OnCourse d pid (releases (.open pad)) _ (if some d = some d ∧ pid = pid then _ else _)
  rw [if_pos ⟨rfl, rfl⟩]
  cases started with
  | none => exact .inr (by decide)
  | some acc => exact foSend_onCourse

variable {dummy : Bool} {nlh : NlMessage}

theorem onTrack_call {op : FoOp} {k : op.Res → FoM Int32} {ph : Inbound} (hph : ph ≠ .astray)
    (h : ∀ r, Admits dummy d (op.event r) → OnTrack dummy d nlh (k r) (ph.after dummy d nlh (op.event r))) :
    OnTrack dummy d nlh (.call op k) ph := by
  refine ⟨hph, fun r ph' hph' => ?_⟩
  obtain ⟨hadmits, rfl⟩ := hph'
  exact h r hadmits

/-- The end of `fo_recv` with nothing left to destroy. -/
theorem foRecvOut_onTrack {rvalue : Int32} {ph : Inbound} (hph : ph ≠ .astray)
    (hstay : ph.after dummy d nlh .other = ph) (hkept : ¬ (rvalue = -1 ∧ nlh.msgtype = MSGT_FO_OPEN)) :
    OnTrack dummy d nlh (foRecvOut d acc nlh rvalue) ph := by
  unfold foRecvOut
  rw [if_neg hkept]
  refine onTrack_call hph fun _ _ => ?_
  change OnTrack dummy d nlh _ (ph.after dummy d nlh .other)
  rw [hstay]
  exact hph

/-- The reply to an open that cannot be completed destroys the file. -/
theorem foRecvOut_onTrack_failed :
    OnTrack true d nlh (foRecvOut d acc nlh (-1)) (.found acc) := by
  by_cases hopen : nlh.msgtype = MSGT_FO_OPEN
  · unfold foRecvOut
    rw [if_pos ⟨rfl, hopen⟩]
    refine onTrack_call (by simp) fun _ _ => ?_
    change OnTrack true d nlh _ (if true = true ∧ nlh.msgtype = MSGT_FO_OPEN ∧ acc = acc then _ else _)
    rw [if_pos ⟨rfl, hopen, rfl⟩]
    exact onTrack_call (by simp) fun _ _ => (by simp : Inbound.failed ≠ .astray)
  · exact foRecvOut_onTrack (by simp) rfl fun h => hopen h.2

/-- `fo_complete` and the end. -/
theorem foComplete_onTrack :
    OnTrack true d nlh (foComplete acc nlh >>= fun rvalue => foRecvOut d acc nlh rvalue) (.found acc) := by
  have hfound : (Inbound.found acc) ≠ .astray := by simp
  refine onTrack_call hfound fun req _ => ?_
  change OnTrack true d nlh _ (if true = true ∧ acc = acc then _ else _)
  rw [if_pos ⟨rfl, rfl⟩]
  cases req with
  | none => exact foRecvOut_onTrack_failed
  | some req =>
      refine onTrack_call hfound fun ok _ => ?_
      cases ok with
      | false => exact foRecvOut_onTrack_failed
      | true =>
          have hdone : (Inbound.done acc) ≠ .astray := by simp
          exact onTrack_call hfound fun _ _ => @foRecvOut_onTrack d acc true nlh 0 (.done acc) hdone rfl (by simp)

/-- `fo_execute` and the end. -/
theorem foExecuteTask_onTrack :
    OnTrack false d nlh (foExecuteTask acc nlh >>= fun rvalue => foRecvOut d acc nlh rvalue) (.found acc) := by
  refine onTrack_call (by simp) fun rvalue hne => ?_
  change OnTrack false d nlh _ (if false = false ∧ acc = acc ∧ nlh = nlh then _ else _)
  rw [if_pos ⟨rfl, rfl, rfl⟩]
  have hkept : ¬ (rvalue = -1 ∧ nlh.msgtype = MSGT_FO_OPEN) := fun h => hne h.1
  change OnTrack false d nlh ((if nlh.msgtype = MSGT_FO_RELEASE then _ else _ : FoM Int32) >>= _) (.done acc)
  by_cases hrel : nlh.msgtype = MSGT_FO_RELEASE
  · rw [if_pos hrel]
    refine onTrack_call (by simp) fun _ _ => ?_
    change OnTrack false d nlh _ (if false = false ∧ nlh.msgtype = MSGT_FO_RELEASE ∧ acc = acc then _ else _)
    rw [if_pos ⟨rfl, hrel, rfl⟩]
    exact foRecvOut_onTrack (by simp) rfl hkept
  · rw [if_neg hrel]
    exact foRecvOut_onTrack (by simp) rfl hkept

theorem foRecvAcc_onTrack : OnTrack dummy d nlh (foRecvAcc d acc nlh) (.found acc) := by
  refine onTrack_call (by simp) fun isDummy hdummy => ?_
  obtain rfl : isDummy = dummy := hdummy rfl
  cases isDummy with
  | true => exact foComplete_onTrack
  | false => exact foExecuteTask_onTrack

theorem foRecvDev_onTrack : OnTrack dummy d nlh (foRecvDev d nlh) .lookup := by
  refine onTrack_call (by simp) fun found _ => ?_
  have hroute : d = d ∧ asInt nlh.payload = asInt nlh.payload := ⟨rfl, rfl⟩
  change OnTrack dummy d nlh _ (if d = d ∧ asInt nlh.payload = asInt nlh.payload then _ else _)
  rw [if_pos hroute]
  cases found with
  | some acc => exact foRecvAcc_onTrack
  | none =>
      by_cases hopen : nlh.msgtype = MSGT_FO_OPEN
      · change OnTrack dummy d nlh (if nlh.msgtype ≠ MSGT_FO_OPEN then _ else _) .missed
        rw [if_neg fun hne => hne hopen]
        refine onTrack_call (by simp) fun started _ => ?_
        have hstart : some d = some d ∧ asInt nlh.payload = asInt nlh.payload ∧ nlh.msgtype = MSGT_FO_OPEN :=
          ⟨rfl, rfl, hopen⟩
        change OnTrack dummy d nlh _ (if some d = some d ∧ asInt nlh.payload = asInt nlh.payload ∧
          nlh.msgtype = MSGT_FO_OPEN then _ else _)
        rw [if_pos hstart]
        cases started with
        | none => exact (by simp : Inbound.failed ≠ .astray)
        | some acc => exact foRecvAcc_onTrack
      · change OnTrack dummy d nlh (if nlh.msgtype ≠ MSGT_FO_OPEN then _ else _) .missed
        rw [if_pos hopen]
        exact (by simp : Inbound.missed ≠ .astray)

end Programs

/-! ## The state of both machines -/

/-- A thread of `fo_recv` with its message. -/
structure Receiver where
  nlh : NlMessage
  prog : FoM Int32
  phase : Inbound

/-- One call of a file operation. It is an operation on the file that the call `opener`
has opened, by the process `pid`; a call that opens is its own opener. `sent` is the access
id in its request, `serve` the thread of the server that gets the request, and `answer` the
one of the client that gets the reply. -/
structure Operation where
  call : FoCall
  pid : Int32
  opener : Nat
  acc : Option AccRef
  prog : FoM Int32
  phase : Outbound
  sent : Option Int32
  serve : Option Receiver
  answer : Option Receiver

/-- What a program has returned. -/
def result : FoM Int32 → Option Int32
  | .ret rvalue => some rvalue
  | .call .. => none

def Receiver.returned (r : Receiver) : Bool := (result r.prog).isSome

namespace Operation

/-- Before the call. -/
def inert : Operation where
  call := .flush
  pid := 0
  opener := 0
  acc := none
  prog := .ret (-1)
  phase := .closed
  sent := none
  serve := none
  answer := none

def opens (op : Operation) : Bool := op.call.msgtype = MSGT_FO_OPEN.toInt16

def releases (op : Operation) : Bool := Routing.releases op.call

def returned (op : Operation) : Bool := (result op.prog).isSome

/-- `fo_send` has not reported an error. -/
def succeeded (op : Operation) : Bool := (result op.prog).any fun rvalue => decide (0 ≤ rvalue)

/-- The server has executed the call. -/
def executed (op : Operation) : Bool := op.serve.any fun r => r.phase.executed

/-- Its reply has completed the request. -/
def completed (op : Operation) : Bool := op.answer.any fun r => r.phase.executed

/-- No message and no thread of the call is left. -/
def ended (op : Operation) : Bool :=
  op.returned && (op.sent.isNone || op.serve.any Receiver.returned) &&
    (!op.executed || op.answer.any Receiver.returned)

end Operation

/-- An operation that was executed on the server: the open for which its `filp` was opened,
with what `filp_open` has returned, and the `filp` itself. -/
structure Execution where
  op : Nat
  opened : Option (Nat × Option File)
  filp : Option File

/-- `opened` says of each file of the server which open was executed on it last. Like the
phases, it and the three logs are read by no code. -/
structure State where
  client : Registry
  server : Registry
  next : Nat
  ops : Nat → Operation
  opened : AccRef → Option (Nat × Option File)
  lookups : List (Nat × Option AccRef)
  searches : List (Nat × AccRef)
  executions : List Execution

namespace State

def initial (client server : Registry) : State where
  client := client
  server := server
  next := 0
  ops _ := .inert
  opened _ := none
  lookups := []
  searches := []
  executions := []

/-- The open has succeeded, and nobody has begun to release the file. -/
def fileOpen (s : State) (m : Nat) : Prop :=
  (s.ops m).opens = true ∧ (s.ops m).succeeded = true ∧
    ∀ n < s.next, (s.ops n).opener = m → (s.ops n).releases = false

instance (s : State) (m : Nat) : Decidable (s.fileOpen m) := by
  unfold fileOpen
  infer_instance

def setOp (s : State) (n : Nat) (op : Operation) : State := { s with ops := Function.update s.ops n op }

/-- A new call. -/
def start (s : State) (op : Operation) : State :=
  { s with next := s.next + 1, ops := Function.update s.ops s.next op }

end State

/-! ## Steps -/

/-- One operation of a program: what it was, what follows it, and the registry after it.
There is no event when the thread dies; one that is blocked takes no step. -/
def perform (env : FoEnv) (reg : Registry) : FoM Int32 → Option (Option FileEvent × FoM Int32 × Registry)
  | .ret _ => none
  | .call op k =>
      match Ker.call (op.exec env) reg with
      | (.ok r, reg') => some (some (op.event r), k r, reg')
      | (.error .blocked, _) => none
      | (.error _, reg') => some (none, .ret (-1), reg')

/-- `filp->private_data`. -/
def accAfter (acc : Option AccRef) : FileEvent → Option AccRef
  | .start _ _ (some acc') => some acc'
  | _ => acc

/-- The access id in the request, from `acc->access_id`. -/
def sentAfter (accessId sent : Option Int32) : FileEvent → Option Int32
  | .send true => accessId
  | _ => sent

/-- `fo_send` after an operation. -/
def Operation.goOn (d : DevId) (op : Operation) (accessId : Option Int32) (e : Option FileEvent)
    (prog : FoM Int32) : Operation :=
  match e with
  | none => { op with prog }
  | some e =>
      { op with
        prog
        phase := op.phase.after d op.pid op.releases e
        acc := accAfter op.acc e
        sent := sentAfter accessId op.sent e }

/-- `fo_recv` after an operation. -/
def Receiver.goOn (dummy : Bool) (d : DevId) (r : Receiver) (e : Option FileEvent) (prog : FoM Int32) :
    Receiver :=
  match e with
  | none => { r with prog }
  | some e => { r with prog, phase := r.phase.after dummy d r.nlh e }

/-- What the client's `fo_recv` does for call `n`, for the logs. -/
def State.note (s : State) (n : Nat) : Option FileEvent → State
  | some (.lookup _ _ acc) => { s with lookups := s.lookups ++ [(n, acc)] }
  | some (.search acc) => { s with searches := s.searches ++ [(n, acc)] }
  | _ => s

/-- The same for the server. -/
def State.record (s : State) (n : Nat) (env : HandlerEnv) : Option FileEvent → State
  | some (.execute acc nlh _) =>
      if nlh.msgtype = MSGT_FO_OPEN then
        { s with opened := Function.update s.opened acc (some ((s.ops n).opener, env.opened)) }
      else
        { s with executions := s.executions ++ [⟨n, s.opened acc, s.server.filp acc⟩] }
  | _ => s

inductive Label where
  | open (pid : Int32) (pad : UInt32)
  | call (m : Nat) (call : FoCall)
  /-- The request of call `n` comes to the server. -/
  | request (n : Nat) (nlh : NlMessage)
  /-- Its reply comes to the client. -/
  | reply (n : Nat) (nlh : NlMessage)
  | send (n : Nat) (env : FoEnv)
  | serve (n : Nat) (env : FoEnv)
  | answer (n : Nat) (env : FoEnv)

/-- A new open. -/
def openOp (s : State) (d : DevId) (pid : Int32) (pad : UInt32) : Operation :=
  { Operation.inert with
    call := .open pad
    pid
    opener := s.next
    prog := ndfoSendOpenStart (some d) pid pad
    phase := .opening }

/-- A new call on the file that `m` has opened. -/
def callOp (s : State) (m : Nat) (call : FoCall) (acc : AccRef) : Operation :=
  { Operation.inert with
    call
    pid := (s.ops m).pid
    opener := m
    acc := some acc
    prog := foSend call acc
    phase := .ready acc }

/-- A file is used while it is open. The release comes when no other call on the file is
under way. -/
def State.MayCall (s : State) (m : Nat) (call : FoCall) : Prop :=
  call.msgtype ≠ MSGT_FO_OPEN.toInt16 ∧ s.fileOpen m ∧
    (releases call = true → ∀ n < s.next, (s.ops n).opener = m → (s.ops n).returned = true)

instance (s : State) (m : Nat) (call : FoCall) : Decidable (s.MayCall m call) := by
  unfold State.MayCall
  infer_instance

/-- The daemons hand on the type and the payload of a message. -/
def step? (d e : DevId) (s : State) : Label → Option State
  | .open pid pad => some (s.start (openOp s d pid pad))
  | .call m call =>
      match (s.ops m).acc with
      | some acc => if s.MayCall m call then some (s.start (callOp s m call acc)) else none
      | none => none
  | .request n nlh =>
      let op := s.ops n
      if op.serve.isNone ∧ op.sent = some (asInt nlh.payload) ∧ nlh.msgtype = op.call.msgtype.toInt32 then
        some (s.setOp n { op with serve := some ⟨nlh, foRecvDev e nlh, .lookup⟩ })
      else
        none
  | .reply n nlh =>
      let op := s.ops n
      match op.serve with
      | some r =>
          if op.answer.isNone ∧ r.phase.executed = true ∧ SameRoute r.nlh nlh then
            some (s.setOp n { op with answer := some ⟨nlh, foRecvDev d nlh, .lookup⟩ })
          else
            none
      | none => none
  | .send n env =>
      let op := s.ops n
      match perform env s.client op.prog with
      | some (event, prog, client) =>
          let accessId := (op.acc.bind s.client.accs).map Acc.accessId
          some { s.setOp n (op.goOn d accessId event prog) with client }
      | none => none
  | .serve n env =>
      let op := s.ops n
      match op.serve with
      | some r =>
          match perform env s.server r.prog with
          | some (event, prog, server) =>
              some { (s.record n env.handler event).setOp n
                { op with serve := some (r.goOn false e event prog) } with server }
          | none => none
      | none => none
  | .answer n env =>
      let op := s.ops n
      match op.answer with
      | some r =>
          match perform env s.client r.prog with
          | some (event, prog, client) =>
              some { (s.note n event).setOp n { op with answer := some (r.goOn true d event prog) } with client }
          | none => none
      | none => none

/-- The client's dummy device `d` and the server's device `e`, before anything is opened. -/
def system (d e : DevId) : System State Label where
  init s := ∃ client server, client.Lists d true [] ∧ server.Lists e false [] ∧ s = .initial client server
  step s l s' := step? d e s l = some s'

/-! ## The property and its condition -/

/-- Nothing of a process is left: no open file, no call, no message and no thread. -/
def State.Clear (s : State) (pid : Int32) : Prop :=
  ∀ n < s.next, (s.ops n).pid = pid → (s.ops n).ended = true ∧ ¬ s.fileOpen n

/-- A process that opens the device has nothing left on it. No call is woken by the reply to
another one, and the client's lookups get the lock of the device. -/
def Unshared (d : DevId) (s : State) : Label → Prop
  | .open pid _ => s.Clear pid
  | .send n _ => ∀ a, (s.ops n).phase = .waiting a → (s.ops n).completed = true
  | .answer n env => ∀ r, (s.ops n).answer = some r → r.phase = .lookup →
      env.free = true ∧ Sem.dev d ∉ s.client.stuck
  | _ => True

end Routing

end Netdev.Kernel
