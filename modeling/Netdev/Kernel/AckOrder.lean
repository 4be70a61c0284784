-- SUMMARY: However the tasks of a device are interleaved, the acknowledgement of a file operation is queued before every message that it causes.
import Netdev.Base.System
import Netdev.Kernel.NetlinkTask

/-!
# The order of acknowledgements

Calls of `netlink_recv`, the threads that they create and the processes that send
file operations share the lock and the socket of one device. A message is caused by
a call when the thread of the call sends it, or a process that this thread has
woken, directly or through others.
-/

namespace Netdev.Kernel
open Base

/-! ## The state -/

/-- `thread c` is the `fo_recv` thread created by the call `c` of `netlink_recv`. -/
inductive Entry where
  | recv (nlh : NlMessage)
  | thread (call : Nat)
  | process

/-- A message on the daemon's socket; an acknowledgement answers the call that queues
it, and of any other message the calls that have caused it are noted. -/
inductive Sent where
  | ack (call : Nat) (err : Int32)
  | message (sender : Nat) (causes : List Nat)

/-- Tasks are numbered in the order of their start. `completions` are the signals of
a request that nobody has waited for, each with the causes of the task that gave it;
no code looks at `entry` and `causes`. -/
structure NlState where
  next : Nat
  entry : Nat → Option Entry
  prog : Nat → NlM Unit
  asleep : Nat → Bool
  causes : Nat → List Nat
  holder : Option Nat
  queue : List Sent
  completions : Addr → List (List Nat)

namespace NlState

def initial : NlState where
  next := 0
  entry _ := none
  prog _ := .ret ()
  asleep _ := false
  causes _ := []
  holder := none
  queue := []
  completions _ := []

/-- A new task. -/
def start (s : NlState) (entry : Entry) (prog : NlM Unit) (asleep : Bool) (causes : List Nat) :
    NlState :=
  { s with
    next := s.next + 1
    entry := Function.update s.entry s.next (some entry)
    prog := Function.update s.prog s.next prog
    asleep := Function.update s.asleep s.next asleep
    causes := Function.update s.causes s.next causes }

/-- `complete`. -/
def signal (s : NlState) (req : Addr) (causes : List Nat) : NlState :=
  { s with completions := Function.update s.completions req (s.completions req ++ [causes]) }

/-- A task goes on with `prog`. -/
def goOn (s : NlState) (t : Nat) (prog : NlM Unit) : NlState :=
  { s with prog := Function.update s.prog t prog }

end NlState

/-! ## Steps -/

/-- The operations that neither change the state nor depend on it. -/
def NlOp.Local : NlOp → Prop
  | .find => True
  | .registry => True
  | .allocate => True
  | .fo (.find _) => False
  | .fo (.newReq ..) => False
  | .fo (.complete _) => False
  | .fo (.wait _) => False
  | .fo _ => True
  | _ => False

/-- What an operation of task `t` does, with every answer that it may get. The device
is `d`; an error pointer cannot be woken. -/
inductive NlEffect (d : DevId) (t : Nat) (s : NlState) : Event NlI → NlState → Prop where
  | spinLock (hfree : s.holder = none) :
      NlEffect d t s ⟨.spinLock, ()⟩ { s with holder := some t }
  | spinUnlock : NlEffect d t s ⟨.spinUnlock, ()⟩ { s with holder := none }
  | netlinkAck {err : Int32} :
      NlEffect d t s ⟨.netlinkAck err, ()⟩ { s with queue := s.queue ++ [.ack t err] }
  | nlmsgUnicast {rvalue : Int32} (hrvalue : 0 ≤ rvalue) :
      NlEffect d t s ⟨.nlmsgUnicast, rvalue⟩ { s with queue := s.queue ++ [.message t (s.causes t)] }
  | notSent {rvalue : Int32} (hrvalue : rvalue < 0) : NlEffect d t s ⟨.nlmsgUnicast, rvalue⟩ s
  | kthreadCreate {nlh : NlMessage} :
      NlEffect d t s ⟨.kthreadCreate nlh, .ok s.next⟩
        (s.start (.thread t) (foTask (foRecv nlh)) true [t])
  | notCreated {nlh : NlMessage} {err : Int32} : NlEffect d t s ⟨.kthreadCreate nlh, .error err⟩ s
  | wakeUpProcess {u : Nat} :
      NlEffect d t s ⟨.wakeUpProcess (.ok u), ()⟩
        { s with asleep := Function.update s.asleep u false }
  | find {nlpid : Int32} {nddata : Option DevId} (hdevice : ∀ d', nddata = some d' → d' = d) :
      NlEffect d t s ⟨.fo (.find nlpid), nddata⟩ s
  | newReq {acc : AccRef} {call : FoCall} {req : ReqPtr} :
      -- `init_completion`
      NlEffect d t s ⟨.fo (.newReq acc call), some req⟩
        { s with completions := Function.update s.completions req [] }
  | noReq {acc : AccRef} {call : FoCall} : NlEffect d t s ⟨.fo (.newReq acc call), none⟩ s
  | complete {req : Addr} :
      NlEffect d t s ⟨.fo (.complete req), ()⟩
        (s.signal req (s.causes t))
  | wait {req : ReqPtr} {rvalue : Int32} {causes : List Nat} {rest : List (List Nat)}
      (hcomp : s.completions req = causes :: rest) :
      NlEffect d t s ⟨.fo (.wait req), rvalue⟩
        { s with
          completions := Function.update s.completions req rest
          causes := Function.update s.causes t (s.causes t ++ causes) }
  | other {op : NlOp} {r : op.Res} (hlocal : op.Local) : NlEffect d t s ⟨op, r⟩ s

inductive NlLabel where
  | recv (nlh : NlMessage)
  | process
  | send (t : Nat) (call : FoCall) (acc : AccRef)
  | open (t : Nat) (minor : Nat) (pid : Int32) (pad : UInt32)
  | perform (t : Nat)
  | freeQueue (req : Addr)

/-- A process that has nothing to do may start an operation on the device. The end of
a device signals the requests in its queues. -/
inductive NlStep (d : DevId) : NlState → NlLabel → NlState → Prop where
  | recv {s : NlState} {nlh : NlMessage} :
      NlStep d s (.recv nlh) (s.start (.recv nlh) (netlinkRecvTask nlh) false [])
  | process {s : NlState} : NlStep d s .process (s.start .process (.ret ()) false [])
  | send {s : NlState} {t : Nat} {call : FoCall} {acc : AccRef} (hacc : acc.nddata = d)
      (hentry : s.entry t = some .process) (hidle : s.prog t = .ret ()) :
      NlStep d s (.send t call acc) (s.goOn t (foTask (foSend call acc)))
  | open {s : NlState} {t minor : Nat} {pid : Int32} {pad : UInt32}
      (hentry : s.entry t = some .process) (hidle : s.prog t = .ret ()) :
      NlStep d s (.open t minor pid pad) (s.goOn t (foTask (ndfoSendOpen minor pid pad)))
  | perform {s s' : NlState} {t : Nat} {op : NlOp} {k : op.Res → NlM Unit} {r : op.Res}
      (hawake : s.asleep t = false) (hprog : s.prog t = .call op k)
      (heffect : NlEffect d t s ⟨op, r⟩ s') : NlStep d s (.perform t) (s'.goOn t (k r))
  | freeQueue {s : NlState} {req : Addr} :
      NlStep d s (.freeQueue req)
        (s.signal req [])

/-- The tasks around the device `d`. -/
def netlinkSystem (d : DevId) : System NlState NlLabel where
  init s := s = .initial
  step := NlStep d

/-! ## What a call has caused -/

/-- No message on the socket is caused by the call `c`. -/
def Unsent (s : NlState) (c : Nat) : Prop :=
  ∀ sender causes, .message sender causes ∈ s.queue → c ∉ causes

/-- Every message that the call `c` causes is queued behind its acknowledgement. -/
def AckFirst (queue : List Sent) (c : Nat) : Prop :=
  ∀ before sender causes after, queue = before ++ .message sender causes :: after → c ∈ causes →
    .ack c 0 ∈ before

def Acked (s : NlState) (c : Nat) : Prop := .ack c 0 ∈ s.queue ∧ AckFirst s.queue c

/-- The call `c` has caused nothing, but for the task `who` that has not run yet. -/
structure Untouched (s : NlState) (c : Nat) (who : Option Nat) : Prop where
  tasks : ∀ t, c ∈ s.causes t → who = some t
  completions : ∀ req, ∀ causes ∈ s.completions req, c ∉ causes
  unsent : Unsent s c

theorem AckFirst.snoc {queue : List Sent} {c : Nat} (h : AckFirst queue c) {x : Sent}
    (hx : ∀ sender causes, x = .message sender causes → c ∈ causes → .ack c 0 ∈ queue) :
    AckFirst (queue ++ [x]) c := by
  intro before sender causes after hqueue hcaused
  rcases List.eq_nil_or_concat after with rfl | ⟨after, y, rfl⟩
  · obtain ⟨rfl, hlast⟩ := List.append_inj' hqueue rfl
    exact hx sender causes (List.singleton_inj.mp hlast) hcaused
  · have hsplit : queue ++ [x] = (before ++ .message sender causes :: after) ++ [y] := by
      rw [hqueue]
      simp
    obtain ⟨hqueue, -⟩ := List.append_inj' hsplit rfl
    exact h before sender causes after hqueue hcaused

theorem Unsent.ackFirst {s : NlState} {c : Nat} (h : Unsent s c) : AckFirst s.queue c := by
  intro before sender causes after hqueue hcaused
  have hmem : .message sender causes ∈ s.queue := by
    rw [hqueue]
    simp
  exact absurd hcaused (h sender causes hmem)

namespace Untouched
variable {s : NlState} {c : Nat} {who : Option Nat}

theorem signal (h : Untouched s c who) (req : Addr) {causes : List Nat} (hcauses : c ∉ causes) :
    Untouched (s.signal req causes) c who := by
  refine ⟨h.tasks, fun p causes' hmem => ?_, h.unsent⟩
  by_cases hp : p = req
  · subst hp
    simp only [NlState.signal, Function.update_self, List.mem_append, List.mem_singleton] at hmem
    rcases hmem with hmem | rfl
    · exact h.completions p causes' hmem
    · exact hcauses
  · simp only [NlState.signal, Function.update_of_ne hp] at hmem
    exact h.completions p causes' hmem

/-- The new task may be the one that the call has caused. -/
theorem start (h : Untouched s c who) {entry : Entry} {prog : NlM Unit} {asleep : Bool}
    {causes : List Nat} (hcauses : c ∈ causes → who = some s.next) :
    Untouched (s.start entry prog asleep causes) c who := by
  refine ⟨fun t ht => ?_, h.completions, h.unsent⟩
  by_cases hnew : t = s.next
  · subst hnew
    simp only [NlState.start, Function.update_self] at ht
    exact hcauses ht
  · simp only [NlState.start, Function.update_of_ne hnew] at ht
    exact h.tasks t ht

theorem mono (h : Untouched s c none) : Untouched s c who :=
  ⟨fun t ht => absurd (h.tasks t ht) (Option.some_ne_none t).symm, h.completions, h.unsent⟩

theorem goOn (h : Untouched s c who) (t : Nat) (prog : NlM Unit) : Untouched (s.goOn t prog) c who :=
  ⟨h.tasks, h.completions, h.unsent⟩

end Untouched

/-! ## What an operation leaves alone -/

namespace NlEffect
variable {d : DevId} {t c : Nat} {s s' : NlState} {e : Event NlI}

/-- The socket only grows. -/
theorem queue (h : NlEffect d t s e s') : s'.queue = s.queue ∨
    (∃ err, e.1 = .netlinkAck err ∧ s'.queue = s.queue ++ [.ack t err]) ∨
      e.1 = .nlmsgUnicast ∧ s'.queue = s.queue ++ [.message t (s.causes t)] := by
  cases h with
  | @netlinkAck err => exact .inr (.inl ⟨err, rfl, rfl⟩)
  | nlmsgUnicast => exact .inr (.inr ⟨rfl, rfl⟩)
  | _ => exact .inl rfl

theorem acked (h : NlEffect d t s e s') (hacked : Acked s c) : Acked s' c := by
  obtain ⟨hmem, hfirst⟩ := hacked
  rcases h.queue with hqueue | ⟨err, -, hqueue⟩ | ⟨-, hqueue⟩
  · unfold Acked
    rw [hqueue]
    exact ⟨hmem, hfirst⟩
  · unfold Acked
    rw [hqueue]
    exact ⟨List.mem_append_left _ hmem, hfirst.snoc fun _ _ hx => nomatch hx⟩
  · unfold Acked
    rw [hqueue]
    exact ⟨List.mem_append_left _ hmem, hfirst.snoc fun _ _ _ _ => hmem⟩

/-- A task that `c` has not caused sends nothing that `c` causes. -/
theorem unsent (h : NlEffect d t s e s') (hunsent : Unsent s c)
    (ht : e.1 = .nlmsgUnicast → c ∉ s.causes t) : Unsent s' c := by
  intro sender causes hmem
  rcases h.queue with hqueue | ⟨err, -, hqueue⟩ | ⟨he, hqueue⟩
  · rw [hqueue] at hmem
    exact hunsent sender causes hmem
  · rw [hqueue, List.mem_append, List.mem_singleton] at hmem
    rcases hmem with hmem | hmem
    · exact hunsent sender causes hmem
    · cases hmem
  · rw [hqueue, List.mem_append, List.mem_singleton] at hmem
    rcases hmem with hmem | hmem
    · exact hunsent sender causes hmem
    · cases hmem
      exact ht he

theorem entry (h : NlEffect d t s e s') {u : Nat} (hu : u ≠ s.next) : s'.entry u = s.entry u := by
  cases h with
  | kthreadCreate => exact Function.update_of_ne hu _ _
  | _ => rfl

/-- Only the call itself creates its thread. -/
theorem untouched (h : NlEffect d t s e s') {who : Option Nat} (hc : Untouched s c who)
    (hwho : who ≠ some t) (hcreate : ∀ nlh, e.1 = .kthreadCreate nlh → c ≠ t) :
    Untouched s' c who := by
  have ht : c ∉ s.causes t := fun hmem => hwho (hc.tasks t hmem)
  have hunsent := h.unsent hc.unsent fun _ => ht
  cases h with
  | kthreadCreate =>
      refine hc.start fun hmem => ?_
      exact absurd (List.mem_singleton.mp hmem) (hcreate _ rfl)
  | @newReq acc call req =>
      refine ⟨hc.tasks, fun p causes hmem => ?_, hunsent⟩
      by_cases hp : p = req
      · subst hp
        simp at hmem
      · simp only [Function.update_of_ne hp] at hmem
        exact hc.completions p causes hmem
  | @complete req => exact hc.signal req ht
  | @wait req rvalue causes rest hcomp =>
      have hcauses := hc.completions req
      rw [hcomp] at hcauses
      refine ⟨fun u hu => ?_, fun p causes' hmem => ?_, hunsent⟩
      · by_cases hu' : u = t
        · subst hu'
          simp only [Function.update_self, List.mem_append] at hu
          exact absurd hu (not_or.mpr ⟨ht, hcauses causes List.mem_cons_self⟩)
        · simp only [Function.update_of_ne hu'] at hu
          exact hc.tasks u hu
      · by_cases hp : p = req
        · subst hp
          simp only [Function.update_self] at hmem
          exact hcauses causes' (List.mem_cons_of_mem _ hmem)
        · simp only [Function.update_of_ne hp] at hmem
          exact hc.completions p causes' hmem
  | _ => exact ⟨hc.tasks, hc.completions, hunsent⟩

end NlEffect

/-! ## The stages of a call -/

/-- The call asks for an acknowledgement. -/
def AsksAck (nlh : NlMessage) : Prop := nlh.header.nlmsgFlags &&& NLM_F_ACK ≠ 0

theorem netlinkAck_zero {nlh : NlMessage} (hasks : AsksAck nlh) : netlinkAck nlh 0 = some 0 :=
  if_pos (.inr hasks)

/-- Before the call has created a thread, and where it does not get one. -/
inductive Preparing (nlh : NlMessage) : NlM Unit → Prop where
  | find : Preparing nlh (fileOperationTask nlh)
  | create : Preparing nlh (createTask nlh)
  | lock {err : Int32} : Preparing nlh (lockTask nlh (.error err))
  | wake {err : Int32} : Preparing nlh (wakeTask nlh (.error err))

/-- The thread of the call `c` has been created and not been woken. -/
structure Asleep (s : NlState) (c u : Nat) : Prop where
  entry : s.entry u = some (.thread c)
  asleep : s.asleep u = true
  untouched : Untouched s c (some u)

/-- How far task `c` is, if it is a call, and what it has caused so far. -/
inductive Stage (s : NlState) (c : Nat) : Prop where
  | quiet (hprog : Quiet (s.prog c)) (huntouched : Untouched s c none)
  | prepare {nlh : NlMessage} (hentry : s.entry c = some (.recv nlh))
      (hprog : Preparing nlh (s.prog c)) (huntouched : Untouched s c none)
  | lock {nlh : NlMessage} {u : Nat} (hentry : s.entry c = some (.recv nlh))
      (hprog : s.prog c = lockTask nlh (.ok u)) (hthread : Asleep s c u)
  | wake {nlh : NlMessage} {u : Nat} (hentry : s.entry c = some (.recv nlh))
      (hprog : s.prog c = wakeTask nlh (.ok u)) (hthread : Asleep s c u) (hholder : s.holder = some c)
  | ack {nlh : NlMessage} (hentry : s.entry c = some (.recv nlh))
      (hprog : s.prog c = recvEnd nlh true 0) (hunsent : Unsent s c) (hholder : s.holder = some c)
  | done (hprog : Quiet (s.prog c))
      (hacked : ∀ nlh, s.entry c = some (.recv nlh) → AsksAck nlh → Acked s c)

/-- What holds in every state. -/
structure Ordered (s : NlState) : Prop where
  disciplined : ∀ t, Disciplined (decide (s.holder = some t)) (s.prog t)
  stage : ∀ c, Stage s c
  fresh : ∀ c, s.next ≤ c → s.entry c = none ∧ s.prog c = .ret () ∧ Untouched s c none

/-- In every stage the messages that the call has caused are in order. -/
theorem Stage.ackFirst {s : NlState} {c : Nat} (h : Stage s c) {nlh : NlMessage}
    (hentry : s.entry c = some (.recv nlh)) (hasks : AsksAck nlh) : AckFirst s.queue c := by
  cases h with
  | quiet _ huntouched => exact huntouched.unsent.ackFirst
  | prepare _ _ huntouched => exact huntouched.unsent.ackFirst
  | lock _ _ hthread => exact hthread.untouched.unsent.ackFirst
  | wake _ _ hthread _ => exact hthread.untouched.unsent.ackFirst
  | ack _ _ hunsent _ => exact hunsent.ackFirst
  | done _ hacked => exact (hacked nlh hentry hasks).2

/-! ## Other tasks -/

/-- A step that concerns the call `c` only in what others do. -/
structure Leaves (s s' : NlState) (c : Nat) : Prop where
  prog : s'.prog c = s.prog c
  entry : s'.entry c = s.entry c
  asleep : ∀ u, Asleep s c u → Asleep s' c u
  untouched : Untouched s c none → Untouched s' c none
  holder : s.holder = some c → s'.holder = some c
  unsent : s.holder = some c → Unsent s c → Unsent s' c
  acked : Acked s c → Acked s' c

theorem Leaves.stage {s s' : NlState} {c : Nat} (h : Leaves s s' c) (hstage : Stage s c) :
    Stage s' c := by
  cases hstage with
  | quiet hprog huntouched => exact .quiet (h.prog.symm ▸ hprog) (h.untouched huntouched)
  | prepare hentry hprog huntouched =>
      exact .prepare (h.entry.trans hentry) (h.prog.symm ▸ hprog) (h.untouched huntouched)
  | lock hentry hprog hthread =>
      exact .lock (h.entry.trans hentry) (h.prog.trans hprog) (h.asleep _ hthread)
  | wake hentry hprog hthread hholder =>
      exact .wake (h.entry.trans hentry) (h.prog.trans hprog) (h.asleep _ hthread) (h.holder hholder)
  | ack hentry hprog hunsent hholder =>
      exact .ack (h.entry.trans hentry) (h.prog.trans hprog) (h.unsent hholder hunsent)
        (h.holder hholder)
  | done hprog hacked =>
      refine .done (h.prog.symm ▸ hprog) fun nlh hentry hasks => ?_
      exact h.acked (hacked nlh (h.entry.symm.trans hentry) hasks)

namespace Ordered
variable {d : DevId} {s s' : NlState} {t c : Nat}

/-- A new task does not concern the others, unless it is caused by them. -/
theorem leaves_start (h : Ordered s) (hc : c ≠ s.next) (entry : Entry) (prog : NlM Unit)
    (asleep : Bool) {causes : List Nat} (hcauses : c ∉ causes) :
    Leaves s (s.start entry prog asleep causes) c where
  prog := Function.update_of_ne hc _ _
  entry := Function.update_of_ne hc _ _
  asleep := by
    intro u hu
    have hne : u ≠ s.next := by
      rintro rfl
      exact absurd ((h.fresh s.next le_rfl).1.symm.trans hu.entry) (Option.some_ne_none _).symm
    exact ⟨(Function.update_of_ne hne _ _).trans hu.entry, (Function.update_of_ne hne _ _).trans hu.asleep,
      hu.untouched.start fun hmem => absurd hmem hcauses⟩
  untouched hu := hu.start fun hmem => absurd hmem hcauses
  holder hh := hh
  unsent _ hu := hu
  acked ha := ha

/-- A task that goes on does not concern the others. -/
theorem leaves_goOn (hc : c ≠ t) (prog : NlM Unit) : Leaves s (s.goOn t prog) c where
  prog := Function.update_of_ne hc _ _
  entry := rfl
  asleep _ hu := ⟨hu.entry, hu.asleep, hu.untouched.goOn t prog⟩
  untouched hu := hu.goOn t prog
  holder hh := hh
  unsent _ hu := hu
  acked ha := ha

theorem leaves_signal (req : Addr) : Leaves s (s.signal req []) c where
  prog := rfl
  entry := rfl
  asleep _ hu := ⟨hu.entry, hu.asleep, hu.untouched.signal req List.not_mem_nil⟩
  untouched hu := hu.signal req List.not_mem_nil
  holder hh := hh
  unsent _ hu := hu
  acked ha := ha

theorem allowed (h : Ordered s) {op : NlOp} {k : op.Res → NlM Unit} (hprog : s.prog t = .call op k) :
    op.Allowed (decide (s.holder = some t)) := by
  have hdisciplined := h.disciplined t
  rw [hprog] at hdisciplined
  exact hdisciplined.1

theorem lt_next (h : Ordered s) {op : NlOp} {k : op.Res → NlM Unit} (hprog : s.prog t = .call op k) :
    t < s.next := by
  by_contra hge
  have hidle := (h.fresh t (Nat.not_lt.mp hge)).2.1
  rw [hprog] at hidle
  cases hidle

/-- Only the call that has created a thread wakes it. -/
theorem wakes_own (h : Ordered s) {u : Nat} {k : Unit → NlM Unit}
    (hprog : s.prog t = .call (.wakeUpProcess (.ok u)) k) : s.entry u = some (.thread t) := by
  cases h.stage t with
  | quiet hquiet _ =>
      rw [hprog] at hquiet
      exact hquiet.1.elim
  | prepare _ hprepare _ =>
      rw [hprog] at hprepare
      cases hprepare
  | lock _ hlock _ =>
      rw [hprog] at hlock
      cases hlock
  | wake _ hwake hthread _ =>
      rw [hprog] at hwake
      cases hwake
      exact hthread.entry
  | @ack nlh _ hack _ _ =>
      have hquiet := recvEnd_quiet nlh true 0
      rw [← hack, hprog] at hquiet
      exact hquiet.1.elim
  | done hquiet _ =>
      rw [hprog] at hquiet
      exact hquiet.1.elim

/-- An operation of another task. -/
theorem leaves_effect (h : Ordered s) {op : NlOp} {k : op.Res → NlM Unit} {r : op.Res}
    (hc : c ≠ t) (hlt : c < s.next) (hawake : s.asleep t = false) (hprog : s.prog t = .call op k)
    (heffect : NlEffect d t s ⟨op, r⟩ s') : Leaves s s' c := by
  have hallowed := h.allowed hprog
  have huntouched : ∀ who, who ≠ some t → Untouched s c who → Untouched s' c who :=
    fun who hwho hu => heffect.untouched hu hwho fun _ _ => hc
  have hsleeper : ∀ u, Asleep s c u → u ≠ t := by
    rintro u hu rfl
    exact absurd (hawake.symm.trans hu.asleep) Bool.false_ne_true
  have hasleep : ∀ u, Asleep s c u → Untouched s' c (some u) :=
    fun u hu => huntouched (some u) (fun heq => hsleeper u hu (Option.some.inj heq)) hu.untouched
  have hnone : Untouched s c none → Untouched s' c none :=
    huntouched none (Option.some_ne_none t).symm
  have hunsent : s.holder = some c → Unsent s c → Unsent s' c := by
    intro hholder hunsent
    refine heffect.unsent hunsent fun hop => ?_
    -- only the holder sends
    obtain rfl : op = .nlmsgUnicast := hop
    have ht : s.holder = some t := of_decide_eq_true hallowed
    exact absurd (Option.some.inj (hholder.symm.trans ht)) hc
  have hacked : Acked s c → Acked s' c := heffect.acked
  cases heffect with
  | spinLock hfree =>
      refine ⟨rfl, rfl, fun u hu => ⟨hu.entry, hu.asleep, hasleep u hu⟩, hnone, fun hholder => ?_,
        hunsent, hacked⟩
      exact absurd (hfree.symm.trans hholder) (Option.some_ne_none c).symm
  | spinUnlock =>
      refine ⟨rfl, rfl, fun u hu => ⟨hu.entry, hu.asleep, hasleep u hu⟩, hnone, fun hholder => ?_,
        hunsent, hacked⟩
      have ht : s.holder = some t := of_decide_eq_true hallowed
      exact absurd (Option.some.inj (hholder.symm.trans ht)) hc
  | kthreadCreate =>
      exact h.leaves_start hlt.ne (.thread t) _ true fun hmem => hc (List.mem_singleton.mp hmem)
  | @wakeUpProcess v =>
      have hown : s.entry v = some (.thread t) := h.wakes_own hprog
      refine ⟨rfl, rfl, fun u hu => ⟨hu.entry, ?_, hasleep u hu⟩, hnone, id, hunsent, hacked⟩
      have hne : u ≠ v := by
        rintro rfl
        cases hu.entry.symm.trans hown
        exact hc rfl
      exact (Function.update_of_ne hne _ _).trans hu.asleep
  | _ =>
      exact ⟨rfl, rfl, fun u hu => ⟨hu.entry, hu.asleep, hasleep u hu⟩, hnone, id, hunsent, hacked⟩

/-! ## The task itself -/

/-- Creating the thread is the first thing that a call causes. -/
theorem stage_prepare (h : Ordered s) {op : NlOp} {k : op.Res → NlM Unit} {r : op.Res}
    {nlh : NlMessage} (hprog : s.prog t = .call op k) (heffect : NlEffect d t s ⟨op, r⟩ s')
    (hentry : s.entry t = some (.recv nlh)) (hprepare : Preparing nlh (s.prog t))
    (hnone : Untouched s t none) : Stage (s'.goOn t (k r)) t := by
  have hlt := h.lt_next hprog
  have hnext : (s'.goOn t (k r)).prog t = k r := Function.update_self _ _ _
  have hsame : (s'.goOn t (k r)).entry t = some (.recv nlh) := (heffect.entry hlt.ne).trans hentry
  rw [hprog] at hprepare
  cases hprepare with
  | find =>
      cases heffect with
      | other hlocal =>
          cases r with
          | false => exact .quiet (hnext.symm ▸ trivial) (hnone.goOn t _)
          | true => exact .prepare hsame (hnext.symm ▸ .create) (hnone.goOn t _)
  | create =>
      cases heffect with
      | kthreadCreate =>
          refine .lock hsame hnext ⟨Function.update_self _ _ _, Function.update_self _ _ _, ?_⟩
          have hstart : Untouched (s.start (.thread t) (foTask (foRecv nlh)) true [t]) t (some s.next) :=
            hnone.mono.start fun _ => rfl
          exact hstart.goOn t _
      | notCreated => exact .prepare hsame (hnext.symm ▸ .lock) (hnone.goOn t _)
      | other hlocal => exact hlocal.elim
  | lock =>
      have hu := heffect.untouched hnone (Option.some_ne_none t).symm fun _ hop => nomatch hop
      cases heffect with
      | spinLock hfree => exact .prepare hsame (hnext.symm ▸ .wake) (hu.goOn t _)
      | other hlocal => exact hlocal.elim
  | wake =>
      -- nothing follows an error pointer
      cases heffect with
      | other hlocal => exact hlocal.elim

/-- A call goes on from stage to stage, and stays in the one for quiet tasks. -/
theorem stage_self (h : Ordered s) {op : NlOp} {k : op.Res → NlM Unit} {r : op.Res}
    (hawake : s.asleep t = false) (hprog : s.prog t = .call op k)
    (heffect : NlEffect d t s ⟨op, r⟩ s') : Stage (s'.goOn t (k r)) t := by
  have hlt := h.lt_next hprog
  have hnext : (s'.goOn t (k r)).prog t = k r := Function.update_self _ _ _
  have hsame : ∀ e, s.entry t = e → (s'.goOn t (k r)).entry t = e :=
    fun e he => (heffect.entry hlt.ne).trans he
  have huntouched : ∀ who, who ≠ some t → (∀ nlh, op ≠ .kthreadCreate nlh) → Untouched s t who →
      Untouched (s'.goOn t (k r)) t who :=
    fun who hwho hop hu => (heffect.untouched hu hwho fun nlh he => absurd he (hop nlh)).goOn t (k r)
  have hsleeper : ∀ u, Asleep s t u → some u ≠ some t := by
    rintro u hu heq
    cases heq
    exact absurd (hawake.symm.trans hu.asleep) Bool.false_ne_true
  cases h.stage t with
  | quiet hquiet hnone =>
      rw [hprog] at hquiet
      have hop : ∀ nlh, op ≠ .kthreadCreate nlh := by
        rintro nlh rfl
        exact hquiet.1.elim
      exact .quiet (hnext.symm ▸ hquiet.2 r) (huntouched none (Option.some_ne_none t).symm hop hnone)
  | @prepare nlh hentry hprepare hnone => exact h.stage_prepare hprog heffect hentry hprepare hnone
  | @lock nlh u hentry hlock hthread =>
      rw [hprog] at hlock
      cases hlock
      have hu := huntouched (some u) (hsleeper u hthread) (fun _ hop => nomatch hop) hthread.untouched
      cases heffect with
      | spinLock hfree => exact .wake (hsame _ hentry) hnext ⟨hthread.entry, hthread.asleep, hu⟩ rfl
      | other hlocal => exact hlocal.elim
  | @wake nlh u hentry hwake hthread hholder =>
      rw [hprog] at hwake
      cases hwake
      cases heffect with
      | wakeUpProcess => exact .ack (hsame _ hentry) hnext hthread.untouched.unsent hholder
      | other hlocal => exact hlocal.elim
  | @ack nlh hentry hack hunsent _ =>
      have hquiet := recvEnd_quiet nlh true 0
      rw [← hack, hprog] at hquiet
      refine .done (hnext.symm ▸ hquiet.2 r) fun nlh' hentry' hasks => ?_
      obtain rfl : nlh = nlh' :=
        Entry.recv.inj (Option.some.inj (hentry.symm.trans ((heffect.entry hlt.ne).symm.trans hentry')))
      -- the call is at its acknowledgement
      rw [recvEnd, netlinkAck_zero hasks, hprog] at hack
      cases hack
      cases heffect with
      | netlinkAck =>
          have hfirst : AckFirst (s.queue ++ [.ack t 0]) t :=
            hunsent.ackFirst.snoc fun _ _ hx => nomatch hx
          exact ⟨List.mem_append_right _ (List.mem_singleton_self _), hfirst⟩
      | other hlocal => exact hlocal.elim
  | done hquiet hacked =>
      rw [hprog] at hquiet
      refine .done (hnext.symm ▸ hquiet.2 r) fun nlh hentry hasks => ?_
      exact heffect.acked (hacked nlh ((heffect.entry hlt.ne).symm.trans hentry) hasks)

/-! ## Every state -/

/-- A task that does not exist does not hold the lock. -/
theorem holder_ne (h : Ordered s) (hidle : s.prog t = .ret ()) : s.holder ≠ some t := by
  have hdisciplined := h.disciplined t
  rw [hidle] at hdisciplined
  exact of_decide_eq_false hdisciplined

theorem disciplined_start (h : Ordered s) (entry : Entry) {prog : NlM Unit} (asleep : Bool)
    (causes : List Nat) (hprog : Disciplined false prog) (u : Nat) :
    Disciplined (decide (s.holder = some u)) ((s.start entry prog asleep causes).prog u) := by
  by_cases hu : u = s.next
  · subst hu
    have hholder := h.holder_ne (h.fresh s.next le_rfl).2.1
    simp only [NlState.start, Function.update_self, hholder, decide_false]
    exact hprog
  · simp only [NlState.start, Function.update_of_ne hu]
    exact h.disciplined u

theorem fresh_start (h : Ordered s) (entry : Entry) (prog : NlM Unit) (asleep : Bool)
    {causes : List Nat} (hcauses : ∀ c ∈ causes, c < s.next) (hc : s.next + 1 ≤ c) :
    (s.start entry prog asleep causes).entry c = none ∧
      (s.start entry prog asleep causes).prog c = .ret () ∧
        Untouched (s.start entry prog asleep causes) c none := by
  obtain ⟨hentry, hprog, huntouched⟩ := h.fresh c (by omega)
  have hne : c ≠ s.next := by omega
  refine ⟨(Function.update_of_ne hne _ _).trans hentry, (Function.update_of_ne hne _ _).trans hprog,
    huntouched.start fun hmem => ?_⟩
  have hlt := hcauses c hmem
  omega

/-- A new task that nobody has caused. -/
theorem start (h : Ordered s) (entry : Entry) {prog : NlM Unit} (hprog : Disciplined false prog)
    (hstage : Untouched (s.start entry prog false []) s.next none →
      Stage (s.start entry prog false []) s.next) : Ordered (s.start entry prog false []) where
  disciplined := h.disciplined_start entry false [] hprog
  stage c := by
    by_cases hc : c = s.next
    · subst hc
      exact hstage ((h.fresh s.next le_rfl).2.2.start fun hmem => absurd hmem List.not_mem_nil)
    · exact (h.leaves_start hc entry prog false List.not_mem_nil).stage (h.stage c)
  fresh _ hc := h.fresh_start entry prog false (fun _ hmem => absurd hmem List.not_mem_nil) hc

/-- An idle process starts an operation. -/
theorem call (h : Ordered s) (hentry : s.entry t = some .process) (hidle : s.prog t = .ret ())
    (p : FoM Int32) : Ordered (s.goOn t (foTask p)) where
  disciplined u := by
    by_cases hu : u = t
    · subst hu
      simp only [NlState.goOn, Function.update_self, h.holder_ne hidle, decide_false]
      exact foTask_disciplined p
    · simp only [NlState.goOn, Function.update_of_ne hu]
      exact h.disciplined u
  stage c := by
    by_cases hc : c = t
    · subst hc
      have hquiet : Quiet ((s.goOn c (foTask p)).prog c) := by
        simp only [NlState.goOn, Function.update_self]
        exact foTask_quiet p
      exact .done hquiet fun nlh hrecv => absurd (hentry.symm.trans hrecv) (fun heq => nomatch heq)
    · exact (leaves_goOn hc _).stage (h.stage c)
  fresh c hc := by
    obtain ⟨hnone, hprog, huntouched⟩ := h.fresh c hc
    have hne : c ≠ t := by
      rintro rfl
      exact absurd (hnone.symm.trans hentry) (Option.some_ne_none _).symm
    exact ⟨hnone, (Function.update_of_ne hne _ _).trans hprog, huntouched.goOn _ _⟩

theorem signal (h : Ordered s) (req : Addr) : Ordered (s.signal req []) where
  disciplined := h.disciplined
  stage c := (leaves_signal req).stage (h.stage c)
  fresh c hc := by
    obtain ⟨hentry, hprog, huntouched⟩ := h.fresh c hc
    exact ⟨hentry, hprog, huntouched.signal req List.not_mem_nil⟩

/-- The lock after an operation, as the others see it. -/
theorem disciplined_effect (h : Ordered s) {op : NlOp} {k : op.Res → NlM Unit} {r : op.Res}
    (hprog : s.prog t = .call op k) (heffect : NlEffect d t s ⟨op, r⟩ s') (u : Nat) (hu : u ≠ t) :
    Disciplined (decide (s'.holder = some u)) (s'.prog u) := by
  have hallowed := h.allowed hprog
  have hold := h.disciplined u
  cases heffect with
  | spinLock hfree =>
      have hother : decide (some t = some u) = decide (s.holder = some u) := by
        rw [hfree]
        simp [Ne.symm hu]
      simp only [hother]
      exact hold
  | spinUnlock =>
      have ht : s.holder = some t := of_decide_eq_true hallowed
      have hother : decide (none = some u) = decide (s.holder = some u) := by
        rw [ht]
        simp [Ne.symm hu]
      simp only [hother]
      exact hold
  | kthreadCreate => exact h.disciplined_start _ true [t] (foTask_disciplined _) u
  | _ => exact hold

/-- And as the task itself sees it. -/
theorem disciplined_self (h : Ordered s) {op : NlOp} {k : op.Res → NlM Unit} {r : op.Res}
    (hprog : s.prog t = .call op k) (heffect : NlEffect d t s ⟨op, r⟩ s') :
    Disciplined (decide (s'.holder = some t)) (k r) := by
  have hself := h.disciplined t
  rw [hprog] at hself
  have hrest := hself.2 r
  have hholds : op.holds (decide (s.holder = some t)) = decide (s'.holder = some t) := by
    cases heffect with
    | spinLock => exact (decide_eq_true rfl).symm
    | spinUnlock => exact (decide_eq_false (Option.some_ne_none t).symm).symm
    | other hlocal =>
        cases op with
        | spinLock => exact hlocal.elim
        | spinUnlock => exact hlocal.elim
        | _ => rfl
    | _ => rfl
  rw [← hholds]
  exact hrest

/-- Only a created thread is new. -/
theorem fresh_effect (h : Ordered s) {op : NlOp} {k : op.Res → NlM Unit} {r : op.Res}
    (hprog : s.prog t = .call op k) (heffect : NlEffect d t s ⟨op, r⟩ s') (hc : s'.next ≤ c) :
    s'.entry c = none ∧ s'.prog c = .ret () ∧ Untouched s' c none := by
  have hlt := h.lt_next hprog
  have huntouched : s.next ≤ c → Untouched s' c none := fun hle =>
    heffect.untouched (h.fresh c hle).2.2 (Option.some_ne_none t).symm fun _ _ => by omega
  cases heffect with
  | kthreadCreate =>
      refine h.fresh_start _ _ true (fun c' hmem => ?_) hc
      exact List.mem_singleton.mp hmem ▸ hlt
  | _ => exact ⟨(h.fresh c hc).1, (h.fresh c hc).2.1, huntouched hc⟩

theorem perform (h : Ordered s) {op : NlOp} {k : op.Res → NlM Unit} {r : op.Res}
    (hawake : s.asleep t = false) (hprog : s.prog t = .call op k)
    (heffect : NlEffect d t s ⟨op, r⟩ s') : Ordered (s'.goOn t (k r)) where
  disciplined u := by
    by_cases hu : u = t
    · subst hu
      simp only [NlState.goOn, Function.update_self]
      exact h.disciplined_self hprog heffect
    · simp only [NlState.goOn, Function.update_of_ne hu]
      exact h.disciplined_effect hprog heffect u hu
  stage c := by
    by_cases hc : c = t
    · subst hc
      exact h.stage_self hawake hprog heffect
    by_cases hlt : c < s.next
    · have hleaves := h.leaves_effect hc hlt hawake hprog heffect
      exact (leaves_goOn hc (k r)).stage (hleaves.stage (h.stage c))
    · -- the created thread, or none
      have huntouched := heffect.untouched (h.fresh c (Nat.not_lt.mp hlt)).2.2
        (Option.some_ne_none t).symm fun _ _ => hc
      refine .quiet ?_ (huntouched.goOn t (k r))
      have hquiet : Quiet (s'.prog c) := by
        have hidle := (h.fresh c (Nat.not_lt.mp hlt)).2.1
        cases heffect with
        | @kthreadCreate nlh =>
            by_cases hnew : c = s.next
            · subst hnew
              simp only [NlState.start, Function.update_self]
              exact foTask_quiet (foRecv nlh)
            · simp only [NlState.start, Function.update_of_ne hnew, hidle]
              trivial
        | _ =>
            change Quiet (s.prog c)
            rw [hidle]
            trivial
      simp only [NlState.goOn, Function.update_of_ne hc]
      exact hquiet
  fresh c hc := by
    have hlt := h.lt_next hprog
    have hle : s.next ≤ s'.next := by
      cases heffect with
      | kthreadCreate => exact Nat.le_succ _
      | _ => exact le_rfl
    obtain ⟨hentry, hidle, huntouched⟩ := h.fresh_effect hprog heffect hc
    have hne : c ≠ t := fun heq => absurd (hle.trans hc) (Nat.not_le.mpr (heq ▸ hlt))
    exact ⟨hentry, (Function.update_of_ne hne _ _).trans hidle, huntouched.goOn t (k r)⟩

end Ordered

theorem netlinkRecvTask_stage {s : NlState} {c : Nat} {nlh : NlMessage}
    (hentry : s.entry c = some (.recv nlh)) (hprog : s.prog c = netlinkRecvTask nlh)
    (huntouched : Untouched s c none) : Stage s c := by
  unfold netlinkRecvTask at hprog
  split_ifs at hprog
  · exact .quiet (hprog.symm ▸ trivial) huntouched
  · refine .quiet (hprog.symm ▸ ?_) huntouched
    exact (netlinkControlTask_quiet nlh).bind fun err => recvEnd_quiet nlh false err
  · exact .prepare hentry (hprog.symm ▸ .find) huntouched
  · exact .quiet (hprog.symm ▸ recvEnd_quiet nlh false 0) huntouched

theorem ordered_invariant (d : DevId) : (netlinkSystem d).Invariant Ordered where
  init s hs := by
    obtain rfl := hs
    have huntouched : ∀ c, Untouched .initial c none := fun c =>
      ⟨fun _ hmem => absurd hmem List.not_mem_nil, fun _ _ hmem => absurd hmem List.not_mem_nil,
        fun _ _ hmem => absurd hmem List.not_mem_nil⟩
    exact ⟨fun _ => rfl, fun c => .quiet trivial (huntouched c), fun c _ => ⟨rfl, rfl, huntouched c⟩⟩
  step s l s' h hstep := by
    cases hstep with
    | @recv nlh =>
        refine h.start _ (netlinkRecvTask_disciplined nlh) fun huntouched => ?_
        exact netlinkRecvTask_stage (Function.update_self _ _ _) (Function.update_self _ _ _) huntouched
    | process =>
        refine h.start _ rfl fun huntouched => .quiet ?_ huntouched
        simp only [NlState.start, Function.update_self]
        trivial
    | @send t call acc _ hentry hidle => exact h.call hentry hidle (foSend call acc)
    | @«open» t minor pid pad hentry hidle => exact h.call hentry hidle (ndfoSendOpen minor pid pad)
    | perform hawake hprog heffect => exact h.perform hawake hprog heffect
    | @freeQueue req => exact h.signal req

/-! ## The causes that are noted -/

/-- A thread and its messages are caused by the call that has created it. -/
structure Noted (s : NlState) : Prop where
  thread : ∀ t c, s.entry t = some (.thread c) → c ∈ s.causes t
  sent : ∀ sender causes, .message sender causes ∈ s.queue →
    sender < s.next ∧ ∀ c, s.entry sender = some (.thread c) → c ∈ causes

namespace Noted
variable {d : DevId} {s s' : NlState} {t : Nat}

theorem start (h : Noted s) {entry : Entry} (prog : NlM Unit) (asleep : Bool) {causes : List Nat}
    (hentry : ∀ c, entry = .thread c → c ∈ causes) : Noted (s.start entry prog asleep causes) where
  thread t c ht := by
    by_cases hnew : t = s.next
    · subst hnew
      simp only [NlState.start, Function.update_self] at ht ⊢
      exact hentry c (Option.some.inj ht)
    · simp only [NlState.start, Function.update_of_ne hnew] at ht ⊢
      exact h.thread t c ht
  sent sender causes hmem := by
    obtain ⟨hlt, hsent⟩ := h.sent sender causes hmem
    refine ⟨Nat.lt_succ_of_lt hlt, fun c hc => ?_⟩
    simp only [NlState.start, Function.update_of_ne hlt.ne] at hc
    exact hsent c hc

theorem effect (h : Noted s) (hlt : t < s.next) {e : Event NlI} (heffect : NlEffect d t s e s') :
    Noted s' := by
  cases heffect with
  | netlinkAck =>
      refine ⟨h.thread, fun sender causes hmem => ?_⟩
      rcases List.mem_append.mp hmem with hmem | hmem
      · exact h.sent sender causes hmem
      · cases List.mem_singleton.mp hmem
  | nlmsgUnicast =>
      refine ⟨h.thread, fun sender causes hmem => ?_⟩
      rcases List.mem_append.mp hmem with hmem | hmem
      · exact h.sent sender causes hmem
      · cases List.mem_singleton.mp hmem
        exact ⟨hlt, h.thread t⟩
  | kthreadCreate =>
      refine h.start _ true fun c hc => ?_
      cases hc
      exact List.mem_singleton_self _
  | wait =>
      refine ⟨fun u c hu => ?_, h.sent⟩
      have hmem := h.thread u c hu
      by_cases hself : u = t
      · subst hself
        simp only [Function.update_self]
        exact List.mem_append_left _ hmem
      · simp only [Function.update_of_ne hself]
        exact hmem
  | _ => exact ⟨h.thread, h.sent⟩

theorem step (h : Noted s) (hordered : Ordered s) {l : NlLabel} (hstep : NlStep d s l s') :
    Noted s' := by
  cases hstep with
  | recv => exact h.start _ false fun _ hc => nomatch hc
  | process => exact h.start _ false fun _ hc => nomatch hc
  | perform _ hprog heffect =>
      have hnoted := h.effect (hordered.lt_next hprog) heffect
      exact ⟨hnoted.thread, hnoted.sent⟩
  | _ => exact ⟨h.thread, h.sent⟩

end Noted

theorem noted_invariant (d : DevId) : (netlinkSystem d).Invariant fun s => Ordered s ∧ Noted s where
  init s hs := by
    refine ⟨(ordered_invariant d).init s hs, ?_⟩
    obtain rfl := hs
    exact ⟨fun _ _ ht => absurd ht (Option.some_ne_none _).symm,
      fun _ _ hmem => absurd hmem List.not_mem_nil⟩
  step s l s' h hstep := ⟨(ordered_invariant d).step s l s' h.1 hstep, h.2.step h.1 hstep⟩

/-! ## The order -/

/-- The acknowledgement of a call that asks for one is queued before every message that
the call has caused: what its thread answers, and what is sent by a process that the
thread has woken. -/
theorem ack_first {d : DevId} {ls : List NlLabel} {s : NlState} (hrun : (netlinkSystem d).Run ls s)
    {c : Nat} {nlh : NlMessage} (hcall : s.entry c = some (.recv nlh))
    (hasks : nlh.header.nlmsgFlags &&& NLM_F_ACK ≠ 0) {before after : List Sent} {sender : Nat}
    {causes : List Nat} (hqueue : s.queue = before ++ .message sender causes :: after)
    (hcaused : s.entry sender = some (.thread c) ∨ c ∈ causes) : .ack c 0 ∈ before := by
  obtain ⟨hordered, hnoted⟩ := hrun.invariant (noted_invariant d)
  have hmem : .message sender causes ∈ s.queue := by
    rw [hqueue]
    simp
  have hcause : c ∈ causes := by
    rcases hcaused with hthread | hcause
    · exact (hnoted.sent sender causes hmem).2 c hthread
    · exact hcause
  exact (hordered.stage c).ackFirst hcall hasks before sender causes after hqueue hcause

/-- A read of process 3, that the daemon 7 hands to the server device 0. -/
def Sample.ackedRead : NlMessage := .build 7 MSGT_FO_READ NLM_F_ACK (toBytes (3 : Int32))

/-- It is acknowledged, then its thread answers. -/
theorem ack_first_read : ∃ ls s, (netlinkSystem 0).Run ls s ∧
    s.queue = [.ack 0 0, .message 1 [0]] ∧ .ack 0 0 ∈ [Sent.ack 0 0] := by
  have hrecv : netlinkRecvTask Sample.ackedRead = fileOperationTask Sample.ackedRead := by
    unfold netlinkRecvTask
    rw [if_neg (by decide), if_neg (by decide), if_pos (by decide)]
  have hasks : Sample.ackedRead.header.nlmsgFlags &&& NLM_F_ACK ≠ 0 := by decide
  have hend : recvEnd Sample.ackedRead true 0 = (nl (.netlinkAck 0) >>= fun _ => nl .spinUnlock) := by
    rw [recvEnd, netlinkAck_zero hasks]
    rfl
  have started : (netlinkSystem 0).Run [.recv Sample.ackedRead] _ := (System.Run.init rfl).step NlStep.recv
  have found := started.step (NlStep.perform (t := 0) rfl hrecv (.other (r := true) trivial))
  have created := found.step (NlStep.perform (t := 0) rfl rfl .kthreadCreate)
  have locked := created.step (NlStep.perform (t := 0) rfl rfl (.spinLock rfl))
  have woken := locked.step (NlStep.perform (t := 0) rfl rfl .wakeUpProcess)
  have acked := woken.step (NlStep.perform (t := 0) rfl hend .netlinkAck)
  have unlocked := acked.step (NlStep.perform (t := 0) rfl rfl .spinUnlock)
  have entered := unlocked.step (NlStep.perform (t := 1) rfl rfl (.other (r := ()) trivial))
  have device := entered.step
    (NlStep.perform (t := 1) rfl rfl (@NlEffect.find _ _ _ _ (some 0) fun _ h => (Option.some.inj h).symm))
  have referred := device.step (NlStep.perform (t := 1) rfl rfl (.other (r := ()) trivial))
  have opened := referred.step (NlStep.perform (t := 1) rfl rfl (.other (r := some ⟨0, 0⟩) trivial))
  have server := opened.step (NlStep.perform (t := 1) rfl rfl (.other (r := false) trivial))
  have executed := server.step (NlStep.perform (t := 1) rfl rfl (.other (r := 0) trivial))
  have packed := executed.step (NlStep.perform (t := 1) rfl rfl (.other (r := true) trivial))
  have free := packed.step (NlStep.perform (t := 1) rfl rfl (.spinLock rfl))
  have sent := free.step (NlStep.perform (t := 1) rfl rfl (@NlEffect.nlmsgUnicast _ _ _ 0 (by decide)))
  exact ⟨_, _, sent, rfl, @ack_first _ _ _ sent 0 Sample.ackedRead rfl hasks [.ack 0 0] [] 1 [0] rfl
    (.inl rfl)⟩

end Netdev.Kernel
