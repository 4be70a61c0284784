-- SUMMARY: `main` and `netdev_listener` as processes that fork: which of them hold which descriptors.
import Mathlib.Data.List.Flatten
import Netdev.Base.Process

/-!
# The processes of the daemon

`main` forks a client for each entry of its configuration file and then serves connections,
each in a process of its own. Here a call is one that opens, hands on or closes descriptors;
what the proxies do with theirs is the subject of the other modules.
-/

namespace Netdev.Daemon.Listener
open Base Prog

/-! ## Descriptors -/

inductive File where
  | config
  | listening
  | connection
  /-- A socket that a proxy has opened. -/
  | proxy
  deriving DecidableEq

/-- A descriptor, with the number of the open file behind it. -/
structure Desc where
  fd : Nat
  file : File
  id : Nat

/-- How `accept` returns. -/
inductive Accept where
  | ok (fd : Nat)
  | interrupted
  | error

/-- The parts of a proxy that open and close nothing. -/
inductive Work where
  | bind
  | listen
  | getpeername (connfd : Int)
  | connect
  | connClient
  | connSendDevReg
  | connRecvDevReg
  | proxyLoop
  | netlinkUnregisterDev

inductive Call where
  | open (file : File)
  | accept
  | socketpair
  | close (fd : Int)
  | work (work : Work)

abbrev Call.Res : Call → Type
  | .open _ => Option Nat
  | .accept => Accept
  | .socketpair => Option (Nat × Nat)
  | .close _ => Unit
  | .work _ => Bool

abbrev CallI : Interface := ⟨Call, Call.Res⟩

/-- What a process has for itself. No code looks at the last two: it is the one that was
started, and a child of its has taken over its connections. -/
structure Own where
  descs : List Desc
  main : Bool
  handed : Bool

namespace Own

def Unused (own : Own) (fd : Nat) : Prop := ∀ d ∈ own.descs, d.fd ≠ fd

def add (own : Own) (d : Desc) : Own := { own with descs := d :: own.descs }

def close (own : Own) (fd : Int) : Own := { own with descs := own.descs.filter fun d => (d.fd : Int) ≠ fd }

def files (own : Own) : List File := own.descs.map Desc.file

/-- The connections that the process has open. -/
def connections (own : Own) : List Nat := (own.descs.filter fun d => d.file = .connection).map Desc.id

/-- Those of which no child has taken charge. -/
def held (own : Own) : List Nat := if own.handed then [] else own.connections

end Own

/-- The machine: the shared part counts the files that were opened. -/
inductive Opens : Prog.Env CallI (Own × Nat) where
  | open {own : Own} {n fd : Nat} {file : File} : own.Unused fd →
      Opens (own, n) ⟨.open file, some fd⟩ (own.add ⟨fd, file, n⟩, n + 1)
  | openFails {own : Own} {n : Nat} {file : File} : Opens (own, n) ⟨.open file, none⟩ (own, n)
  | accept {own : Own} {n fd : Nat} : own.Unused fd →
      Opens (own, n) ⟨.accept, .ok fd⟩ ({ own.add ⟨fd, .connection, n⟩ with handed := false }, n + 1)
  | interrupted {own : Own} {n : Nat} : Opens (own, n) ⟨.accept, .interrupted⟩ (own, n)
  | acceptFails {own : Own} {n : Nat} : Opens (own, n) ⟨.accept, .error⟩ (own, n)
  | socketpair {own : Own} {n a b : Nat} : own.Unused a → own.Unused b → a ≠ b →
      Opens (own, n) ⟨.socketpair, some (a, b)⟩ ((own.add ⟨a, .proxy, n⟩).add ⟨b, .proxy, n + 1⟩, n + 2)
  | socketpairFails {own : Own} {n : Nat} : Opens (own, n) ⟨.socketpair, none⟩ (own, n)
  | close {own : Own} {n : Nat} {fd : Int} : Opens (own, n) ⟨.close fd, ()⟩ (own.close fd, n)
  | work {own : Own} {n : Nat} {work : Work} (ok : Bool) : Opens (own, n) ⟨.work work, ok⟩ (own, n)

def machine : Machine CallI where
  Own := Own
  Shared := Nat
  call := Opens
  parent own := { own with handed := true }
  child own := { own with main := false }

abbrev ListenerM := ProcM CallI

abbrev sys (op : Call) : ListenerM op.Res := proc (C := CallI) (.call op)

abbrev fork : ListenerM Int := proc (C := CallI) .fork

def exit : ListenerM Unit := Prog.call (I := ProcI CallI) .exit fun r => r.elim

/-! ## The functions -/

def netlinkSetup : ListenerM Bool := do
  match ← sys (.open .proxy) with
  | none => return false
  | some _ => sys (.work .bind)

def connServer : ListenerM Bool := do
  match ← sys (.open .proxy) with
  | none => return false
  | some _ => sys (.work .connect)

def proxyClient : ListenerM Unit := do
  match ← sys .socketpair with
  | none => return
  | some _ =>
      if !(← netlinkSetup) then
        return
      if !(← connServer) then
        return
      if !(← sys (.work .connSendDevReg)) then
        return
      let _ ← sys (.work .proxyLoop)
      let _ ← sys (.work .netlinkUnregisterDev)

/-- Only at its end it closes the connection; until then that is left to `exit`. -/
def proxyServer (connfd : Int) : ListenerM Unit := do
  if !(← sys (.work (.getpeername connfd))) then
    return
  match ← sys .socketpair with
  | none => return
  | some _ =>
      if !(← netlinkSetup) then
        return
      if !(← sys (.work .connClient)) then
        return
      if !(← sys (.work .connRecvDevReg)) then
        return
      let _ ← sys (.work .proxyLoop)
      let _ ← sys (.work .netlinkUnregisterDev)
      sys (.close connfd)

/-- `netdev_listener` after `accept`. -/
def forkServer (listenfd : Nat) (connfd : Int) : ListenerM Unit := do
  if (← fork) = 0 then
    sys (.close listenfd)
    proxyServer connfd
    exit
  sys (.close connfd)

/-- So many turns of the loop of `netdev_listener`. An `accept` that fails is printed, and its
result is served like a connection. -/
def listenerLoop (listenfd : Nat) : Nat → ListenerM Unit
  | 0 => return
  | turns + 1 => do
      match ← sys .accept with
      | .interrupted => listenerLoop listenfd turns
      | .error =>
          forkServer listenfd (-1)
          listenerLoop listenfd turns
      | .ok connfd =>
          forkServer listenfd connfd
          listenerLoop listenfd turns

def netdevListener (turns : Nat) : ListenerM Unit := do
  match ← sys (.open .listening) with
  | none => return
  | some listenfd =>
      if !(← sys (.work .bind)) then
        return
      if !(← sys (.work .listen)) then
        return
      listenerLoop listenfd turns

/-- One client for each entry. -/
def startClients : Nat → ListenerM Unit
  | 0 => return
  | count + 1 => do
      if (← fork) = 0 then
        proxyClient
        exit
      startClients count

/-- `main`, with the number of entries that `read_config` has found. The configuration file is
never closed. -/
def main (conffile : Bool) (count turns : Nat) : ListenerM Unit := do
  if conffile then
    match ← sys (.open .config) with
    | none => pure ()
    | some _ => startClients count
  netdevListener turns

/-! ## What a process may do -/

/-- A child forks no further, and accepts nothing. The listening socket it only closes, and of a
connection it has taken charge. -/
structure Child (own : Own) (op : ProcOp CallI) : Prop where
  forks : op ≠ .fork
  accepts : op ≠ .call .accept
  listening : ∀ d ∈ own.descs, d.file = .listening → op = .call (.close d.fd)
  connection : own.connections.length ≤ 1
  charge : own.held = own.connections

/-- The first process calls `accept` with nothing open but what it had open for the first one. -/
def Admits (own : Own) (op : ProcOp CallI) : Prop :=
  if own.main then op = .call .accept → own.files = [.listening] ∨ own.files = [.listening, .config]
  else Child own op

/-- The operations of the proxies. -/
def Proxying : ProcOp CallI → Prop
  | .call (.open file) => file = .proxy
  | .call .accept => False
  | .fork => False
  | _ => True

/-- A child that has closed the listening socket. -/
structure Serving (own : Own) : Prop where
  main : own.main = false
  listening : ∀ d ∈ own.descs, d.file ≠ .listening
  connection : own.connections.length ≤ 1
  charge : own.handed = true → own.connections = []

section
variable {own own' : Own} {op : ProcOp CallI}

theorem Serving.child (h : Serving own) (hforks : op ≠ .fork) (haccepts : op ≠ .call .accept) : Child own op where
  forks := hforks
  accepts := haccepts
  listening d hd hfile := absurd hfile (h.listening d hd)
  connection := h.connection
  charge := by
    unfold Own.held
    split
    · rename_i hhanded
      exact (h.charge hhanded).symm
    · rfl

theorem Serving.admits (h : Serving own) (hforks : op ≠ .fork) (haccepts : op ≠ .call .accept) :
    Admits own op := by
  rw [Admits, h.main]
  exact h.child hforks haccepts

theorem connections_add {d : Desc} (hfile : d.file ≠ .connection) :
    (own.add d).connections = own.connections := by
  simp [Own.add, Own.connections, hfile]

theorem connections_close (own : Own) (fd : Int) : (own.close fd).connections.Sublist own.connections := by
  unfold Own.connections Own.close
  exact (List.filter_sublist.filter _).map _

/-- A new socket of a proxy. -/
theorem Serving.add (h : Serving own) {fd id : Nat} : Serving (own.add ⟨fd, .proxy, id⟩) where
  main := h.main
  listening d hd := by
    simp only [Own.add, List.mem_cons] at hd
    rcases hd with rfl | hd
    · simp
    · exact h.listening d hd
  connection := by
    rw [connections_add (by simp)]
    exact h.connection
  charge hhanded := by
    rw [connections_add (by simp)]
    exact h.charge hhanded

theorem Serving.close (h : Serving own) (fd : Int) : Serving (own.close fd) where
  main := h.main
  listening d hd := h.listening d (List.mem_of_mem_filter hd)
  connection := Nat.le_trans (connections_close own fd).length_le h.connection
  charge hhanded := by
    have hnone := h.charge hhanded
    have hsub := connections_close own fd
    rw [hnone] at hsub
    exact List.sublist_nil.mp hsub

/-- Whatever a proxy does, it stays what it is. -/
theorem serving_step (hop : Proxying op) (h : Serving own) : Admits own op ∧
    ∀ r own', Machine.Alone machine own ⟨op, r⟩ own' → Serving own' := by
  refine ⟨h.admits ?_ ?_, ?_⟩
  · rintro rfl
    exact hop
  · rintro rfl
    exact hop
  · intro r own' hstep
    cases op with
    | fork => exact hop.elim
    | exit => exact hstep.elim
    | call op =>
        obtain ⟨g, g', hcall⟩ := hstep
        cases hcall with
        | «open» =>
            cases hop
            exact h.add
        | accept => exact hop.elim
        | socketpair => exact h.add.add
        | close => exact h.close _
        | _ => exact h

/-- What follows after the `exit` of a child does not matter. -/
theorem Serving.meets {α : Type} {Q : α → Own → Prop} (h : Serving own) {prog : ListenerM Unit}
    (hprog : prog.Only Proxying) {next : Unit → ListenerM α} :
    Prog.meets (Machine.Alone machine) Admits Q (prog >>= fun _ => exit >>= next) own := by
  refine meets_bind (hprog.meets h fun own op hop hserving => serving_step hop hserving) fun _ own' hserving => ?_
  exact Machine.meets_exit (hserving.admits (by simp) (by simp))

end

/-! ## The proxies -/

theorem only_ite {c : Prop} [Decidable c] {p q : ListenerM Unit} (hp : p.Only Proxying) (hq : q.Only Proxying) :
    (if c then p else q).Only Proxying := by
  split
  · exact hp
  · exact hq

theorem netlinkSetup_only : netlinkSetup.Only Proxying := by
  refine ⟨rfl, fun r => ?_⟩
  cases r with
  | none => trivial
  | some fd => exact ⟨trivial, fun _ => trivial⟩

theorem connServer_only : connServer.Only Proxying := by
  refine ⟨rfl, fun r => ?_⟩
  cases r with
  | none => trivial
  | some fd => exact ⟨trivial, fun _ => trivial⟩

theorem proxyClient_only : proxyClient.Only Proxying := by
  refine ⟨trivial, fun r => ?_⟩
  cases r with
  | none => trivial
  | some us =>
      refine netlinkSetup_only.bind fun ok => only_ite trivial ?_
      refine connServer_only.bind fun ok => only_ite trivial ?_
      refine ⟨trivial, fun ok => only_ite trivial ?_⟩
      exact ⟨trivial, fun _ => ⟨trivial, fun _ => trivial⟩⟩

theorem proxyServer_only (connfd : Int) : (proxyServer connfd).Only Proxying := by
  refine ⟨trivial, fun ok => only_ite trivial ?_⟩
  refine ⟨trivial, fun r => ?_⟩
  cases r with
  | none => trivial
  | some us =>
      refine netlinkSetup_only.bind fun ok => only_ite trivial ?_
      refine ⟨trivial, fun ok => only_ite trivial ?_⟩
      refine ⟨trivial, fun ok => only_ite trivial ?_⟩
      exact ⟨trivial, fun _ => ⟨trivial, fun _ => ⟨trivial, fun _ => trivial⟩⟩⟩

/-! ## The first process -/

/-- Before it listens. -/
structure Starting (own : Own) : Prop where
  main : own.main = true
  files : own.files = [] ∨ own.files = [.config]

/-- It listens, and serves no connection. -/
structure Listening (listenfd : Nat) (own : Own) : Prop where
  main : own.main = true
  files : own.files = [.listening] ∨ own.files = [.listening, .config]
  listenfd : ∀ d ∈ own.descs, d.file = .listening ↔ d.fd = listenfd

section
variable {own : Own} {listenfd : Nat}

theorem admits_main {op : ProcOp CallI} (hmain : own.main = true) (hop : op ≠ .call .accept) : Admits own op := by
  rw [Admits, if_pos hmain]
  exact fun heq => absurd heq hop

theorem connections_nil (h : ∀ d ∈ own.descs, d.file ≠ .connection) : own.connections = [] := by
  simpa [Own.connections] using h

/-- A client is forked before anything is listened to. -/
theorem Starting.serving (h : Starting own) : Serving { own with main := false } := by
  have hfiles : ∀ d ∈ own.descs, d.file = .config := by
    intro d hd
    have hmem : d.file ∈ own.files := List.mem_map_of_mem hd
    rcases h.files with hnone | hconfig
    · rw [hnone] at hmem
      cases hmem
    · rw [hconfig] at hmem
      exact List.mem_singleton.mp hmem
  have hnone : Own.connections { own with main := false } = [] :=
    connections_nil fun d hd => by simp [hfiles d hd]
  exact ⟨rfl, fun d hd => by simp [hfiles d hd], by simp [hnone], fun _ => hnone⟩

theorem startClients_meets (count : Nat) (h : Starting own) :
    Prog.meets (Machine.Alone machine) Admits (fun _ => Starting) (startClients count) own := by
  induction count generalizing own with
  | zero => exact h
  | succ count ih =>
      refine Machine.meets_fork (M := machine) (admits_main h.main (by simp)) ?_ (fun pid hpid => ?_) ?_
      · exact meets_ite (fun _ => h.serving.meets proxyClient_only) fun hne => absurd rfl hne
      · exact meets_ite (fun hzero => absurd hzero (Int.ne_of_gt hpid)) fun _ => ih ⟨h.main, h.files⟩
      · exact meets_ite (fun hzero => absurd hzero (by decide)) fun _ => ih h

/-- Between `accept` and the `close` of its result. -/
structure Accepted (listenfd : Nat) (connfd : Int) (own : Own) : Prop where
  main : own.main = true
  rest : Listening listenfd (own.close connfd)
  listenfd : ∀ d ∈ own.descs, d.file = .listening ↔ d.fd = listenfd
  connection : own.connections.length ≤ 1
  charge : own.handed = true → own.connections = []

theorem connections_of_files (h : own.files = [.listening] ∨ own.files = [.listening, .config]) :
    own.connections = [] := by
  refine connections_nil fun d hd => ?_
  have hmem : d.file ∈ own.files := List.mem_map_of_mem hd
  rcases h with hfiles | hfiles
  · rw [hfiles] at hmem
    simp [List.mem_singleton.mp hmem]
  · rw [hfiles] at hmem
    rcases List.mem_pair.mp hmem with hfile | hfile
    · simp [hfile]
    · simp [hfile]

theorem Listening.connections (h : Listening listenfd own) : own.connections = [] := connections_of_files h.files

/-- `close(-1)` does nothing. -/
theorem close_neg_one (own : Own) : own.close (-1) = own := by
  have hall : own.descs.filter (fun d => (d.fd : Int) ≠ -1) = own.descs := by
    refine List.filter_eq_self.mpr fun d _ => ?_
    have hne : (d.fd : Int) ≠ -1 := by omega
    simp [hne]
  rw [Own.close, hall]

theorem Listening.accepted_error (h : Listening listenfd own) : Accepted listenfd (-1) own where
  main := h.main
  rest := (close_neg_one own).symm ▸ h
  listenfd := h.listenfd
  connection := by simp [h.connections]
  charge _ := h.connections

theorem Listening.accepted (h : Listening listenfd own) {connfd id : Nat} (hunused : own.Unused connfd) :
    Accepted listenfd connfd { own.add ⟨connfd, .connection, id⟩ with handed := false } := by
  have hclose : Own.close { own.add ⟨connfd, .connection, id⟩ with handed := false } connfd
      = { own with handed := false } := by
    have hkept : own.descs.filter (fun d => (d.fd : Int) ≠ connfd) = own.descs := by
      refine List.filter_eq_self.mpr fun d hd => ?_
      have hne : (d.fd : Int) ≠ connfd := fun heq => hunused d hd (Int.ofNat.inj heq)
      simp [hne]
    simp only [Own.close, Own.add, List.filter_cons, ne_eq, not_true_eq_false, decide_false, Bool.false_eq_true,
      if_false]
    rw [hkept]
  have hused : listenfd ≠ connfd := by
    have hmem : File.listening ∈ own.files := by
      rcases h.files with hfiles | hfiles <;> simp [hfiles]
    obtain ⟨d, hd, hfile⟩ := List.mem_map.mp hmem
    rw [← (h.listenfd d hd).mp hfile]
    exact hunused d hd
  refine ⟨h.main, hclose ▸ ⟨h.main, h.files, h.listenfd⟩, ?_, ?_, fun hhanded => absurd hhanded (by simp)⟩
  · intro d hd
    rcases List.mem_cons.mp hd with rfl | hd
    · simp [hused.symm]
    · exact h.listenfd d hd
  · have hnone := h.connections
    unfold Own.connections at hnone ⊢
    simp only [Own.add, List.filter_cons, decide_true, if_true, List.map_cons, hnone]
    exact Nat.le_refl 1

theorem forkServer_meets {connfd : Int} (h : Accepted listenfd connfd own) :
    Prog.meets (Machine.Alone machine) Admits (fun _ => Listening listenfd) (forkServer listenfd connfd) own := by
  have hclose {own' : Own} (hmain : own'.main = true) (hrest : Listening listenfd (own'.close connfd)) :
      Prog.meets (Machine.Alone machine) Admits (fun _ => Listening listenfd) (sys (.close connfd)) own' := by
    refine Machine.meets_call (M := machine) (admits_main hmain (by simp)) ?_
    intro g r own'' g' hcall
    cases hcall
    exact hrest
  refine Machine.meets_fork (M := machine) (admits_main h.main (by simp)) ?_ (fun pid hpid => ?_) ?_
  · refine meets_ite (fun _ => ?_) fun hne => absurd rfl hne
    -- the child closes the listening socket first
    have hadmits : Admits { own with main := false } (.call (.close listenfd)) := by
      have hchild : Child { own with main := false } (.call (.close listenfd)) := {
        forks := by simp
        accepts := by simp
        listening := fun d hd hfile => by rw [(h.listenfd d hd).mp hfile]
        connection := h.connection
        charge := by
          unfold Own.held
          split
          · rename_i hhanded
            exact (h.charge hhanded).symm
          · rfl }
      exact hchild
    refine Machine.meets_call (M := machine) hadmits ?_
    intro g r own' g' hcall
    cases hcall
    refine Serving.meets ?_ (proxyServer_only connfd)
    have hsub := connections_close { own with main := false } listenfd
    refine ⟨rfl, fun d hd hfile => ?_, Nat.le_trans hsub.length_le h.connection, fun hhanded => ?_⟩
    · obtain ⟨hmem, hne⟩ := List.mem_filter.mp hd
      rw [(h.listenfd d hmem).mp hfile] at hne
      simp at hne
    · have hnone : Own.connections { own with main := false } = [] := h.charge hhanded
      rw [hnone] at hsub
      exact List.sublist_nil.mp hsub
  · exact meets_ite (fun hzero => absurd hzero (Int.ne_of_gt hpid)) fun _ =>
      hclose h.main ⟨h.rest.main, h.rest.files, h.rest.listenfd⟩
  · exact meets_ite (fun hzero => absurd hzero (by decide)) fun _ => hclose h.main h.rest

theorem listenerLoop_meets (turns : Nat) (h : Listening listenfd own) :
    Machine.Admitted (M := machine) Admits (listenerLoop listenfd turns) own := by
  induction turns generalizing own with
  | zero => exact admits_main h.main (by simp)
  | succ turns ih =>
      have haccept : Admits own (.call .accept) := by
        rw [Admits, if_pos h.main]
        exact fun _ => h.files
      refine Machine.meets_call (M := machine) haccept ?_
      intro g r own' g' hcall
      cases hcall with
      | accept hunused =>
          exact meets_bind (forkServer_meets (h.accepted hunused)) fun _ own'' h' => ih h'
      | interrupted => exact ih h
      | acceptFails => exact meets_bind (forkServer_meets h.accepted_error) fun _ own'' h' => ih h'

theorem netdevListener_meets (turns : Nat) (h : Starting own) :
    Machine.Admitted (M := machine) Admits (netdevListener turns) own := by
  refine Machine.meets_call (M := machine) (admits_main h.main (by simp)) ?_
  intro g r own' g' hcall
  cases hcall with
  | openFails => exact admits_main h.main (by simp)
  | @«open» _ _ listenfd _ hunused =>
      have hlistening : Listening listenfd (own.add ⟨listenfd, .listening, g⟩) := by
        refine ⟨h.main, ?_, fun d hd => ?_⟩
        · rcases h.files with hfiles | hfiles
          · left
            simpa [Own.files, Own.add] using hfiles
          · right
            simpa [Own.files, Own.add] using hfiles
        · rcases List.mem_cons.mp hd with rfl | hd
          · simp
          · have hfile := h.serving.listening d hd
            simp [hfile, hunused d hd]
      have hadmits {op : ProcOp CallI} (hop : op ≠ .call .accept) := admits_main hlistening.main hop
      refine Machine.meets_call (M := machine) (hadmits (by simp)) ?_
      intro g r own' g' hcall
      cases hcall
      refine meets_ite (fun _ => hadmits (by simp)) fun _ => ?_
      refine Machine.meets_call (M := machine) (hadmits (by simp)) ?_
      intro g r own' g' hcall
      cases hcall
      exact meets_ite (fun _ => hadmits (by simp)) fun _ => listenerLoop_meets turns hlistening

theorem main_meets (conffile : Bool) (count turns : Nat) (hmain : own.main = true) (hnone : own.files = []) :
    Machine.Admitted (M := machine) Admits (main conffile count turns) own := by
  have hstart : Starting own := ⟨hmain, .inl hnone⟩
  refine meets_ite (fun _ => ?_) fun _ => netdevListener_meets turns hstart
  refine Machine.meets_call (M := machine) (admits_main hmain (by simp)) ?_
  intro g r own' g' hcall
  cases hcall with
  | openFails => exact netdevListener_meets turns hstart
  | @«open» _ _ fd _ hunused =>
      have hconfig : Starting (own.add ⟨fd, .config, g⟩) := by
        refine ⟨hmain, .inr ?_⟩
        simpa [Own.files, Own.add] using hnone
      exact meets_bind (startClients_meets count hconfig) fun _ own'' h => netdevListener_meets turns h

end

/-! ## Runs -/

theorem held_add {own : Own} {d : Desc} : (own.add d).held.Subperm (d.id :: own.held) := by
  cases hhanded : own.handed with
  | true => simp [Own.held, Own.add, hhanded]
  | false =>
      have hadd : (own.add d).connections.Sublist (d.id :: own.connections) := by
        unfold Own.connections Own.add
        rw [List.filter_cons]
        split
        · exact List.Sublist.refl _
        · exact List.sublist_cons_self _ _
      simpa [Own.held, Own.add, hhanded] using hadd.subperm

theorem held_close (own : Own) (fd : Int) : (own.close fd).held.Sublist own.held := by
  cases hhanded : own.handed with
  | true => simp [Own.held, Own.close, hhanded]
  | false =>
      have hclose : (own.close fd).handed = false := hhanded
      simpa [Own.held, hclose, hhanded] using connections_close own fd

theorem Child.of_admits {own : Own} {op : ProcOp CallI} (h : Admits own op) (hmain : own.main = false) :
    Child own op := by
  rw [Admits, hmain] at h
  exact h

theorem files_of_accept {own : Own} (h : Admits own (.call .accept)) :
    own.main = true ∧ (own.files = [.listening] ∨ own.files = [.listening, .config]) := by
  cases hmain : own.main with
  | false => exact absurd rfl (Child.of_admits h hmain).accepts
  | true =>
      rw [Admits, if_pos hmain] at h
      exact ⟨rfl, h rfl⟩

/-- What is new after a call is a file that it has opened. -/
theorem held_call {own own' : Own} {n n' : Nat} {op : Call} {r : op.Res} (hadmits : Admits own (.call op))
    (hcall : Opens (own, n) ⟨op, r⟩ (own', n')) : n ≤ n' ∧ ∃ new : List Nat, new.Nodup ∧
      (∀ i ∈ new, n ≤ i ∧ i < n') ∧ own'.held.Subperm (new ++ own.held) := by
  cases hcall with
  | «open» => exact ⟨Nat.le_succ n, [n], by simp, by simp, held_add⟩
  | @accept _ _ fd hunused =>
      have hnone := connections_of_files (files_of_accept hadmits).2
      refine ⟨Nat.le_succ n, [n], by simp, by simp, ?_⟩
      have hheld : Own.held { own.add ⟨fd, .connection, n⟩ with handed := false } = [n] := by
        unfold Own.connections at hnone
        simp [Own.held, Own.connections, Own.add, hnone]
      rw [hheld]
      exact (List.sublist_append_left [n] own.held).subperm
  | socketpair =>
      refine ⟨Nat.le_add_right n 2, [], .nil, by simp, List.Perm.subperm ?_⟩
      simp [Own.held, Own.add, Own.connections]
  | close => exact ⟨Nat.le_refl n, [], .nil, by simp, (held_close own _).subperm⟩
  | _ => exact ⟨Nat.le_refl n, [], .nil, by simp, .refl _⟩

/-- A connection is handed to the child that serves it. -/
theorem handsOver : Machine.HandsOver (M := machine) Admits Own.held id where
  parent own := by simp [machine, Own.held]
  child own := rfl
  call own n op r own' n' hadmits hcall := held_call hadmits hcall

/-- Every process but the first was forked by the first. -/
def Rooted (root : Nat) (s : Machine.State machine) : Prop :=
  ∀ p ∈ s.procs, if p.own.main then p.pid = root else p.parent = root

theorem rooted_step {root pid : Nat} {s s' : Machine.State machine} (hstep : Machine.Step machine s pid s')
    (hmeets : ∀ p ∈ s.procs, p.Meets Admits) (h : Rooted root s) : Rooted root s' := by
  refine Machine.step_forall hstep h ?_ ?_ ?_
  · intro p hp op k g g' r own hprog hcall
    have hmain : own.main = p.own.main := by cases hcall <;> rfl
    simpa only [hmain] using h p hp
  · intro p hp k pid hprog hpid
    refine ⟨h p hp, ?_⟩
    have hroot := h p hp
    have hadmits := (hmeets p hp).op hprog
    cases hmain : p.own.main with
    | false => exact absurd rfl (Child.of_admits hadmits hmain).forks
    | true =>
        rw [if_pos hmain] at hroot
        exact hroot
  · intro p hp k hprog
    exact h p hp

/-- The first process, started with nothing open. -/
def start (conffile : Bool) (count turns root parent : Nat) : Machine.Process machine :=
  ⟨root, parent, ⟨[], true, false⟩, main conffile count turns⟩

/-- Which processes there are, and what they hold. -/
structure Disciplined (root : Nat) (s : Machine.State machine) : Prop where
  /-- Only the first process forks. -/
  forked : ∀ p ∈ s.procs, p.pid ≠ root → p.parent = root
  /-- It is the one that accepts connections, and then it has none open. -/
  accepts : ∀ p ∈ s.procs, ∀ k, p.prog = .call (.call .accept) k →
    p.pid = root ∧ (p.own.files = [.listening] ∨ p.own.files = [.listening, .config])
  /-- Another process holds the listening socket only until it closes it, which it does next. -/
  listening : ∀ p ∈ s.procs, p.pid ≠ root → ∀ d ∈ p.own.descs, d.file = .listening →
    ∃ k, p.prog = .call (.call (.close d.fd)) k
  /-- A server has one connection, which no other server has. -/
  connection : ∀ p ∈ s.procs, p.pid ≠ root → p.own.connections.length ≤ 1
  charge : ((s.procs.filter fun p => p.pid ≠ root).flatMap fun p => p.own.connections).Nodup

section
variable {root : Nat} {s : Machine.State machine}

theorem Rooted.child (h : Rooted root s) {p : Machine.Process machine} (hp : p ∈ s.procs) (hpid : p.pid ≠ root) :
    p.own.main = false ∧ p.parent = root := by
  have hroot := h p hp
  cases hmain : p.own.main with
  | true =>
      rw [if_pos hmain] at hroot
      exact absurd hroot hpid
  | false =>
      rw [if_neg (by simp [hmain])] at hroot
      exact ⟨rfl, hroot⟩

/-- What a child does next. -/
theorem Child.next {p : Machine.Process machine} (hmeets : p.Meets Admits) (hmain : p.own.main = false) :
    ∃ op, Child p.own op ∧ (op = .exit ∨ ∃ k, p.prog = .call op k) := by
  rcases hmeets.next with ⟨-, hadmits⟩ | ⟨op, k, hprog, hadmits⟩
  · exact ⟨.exit, Child.of_admits hadmits hmain, .inl rfl⟩
  · exact ⟨op, Child.of_admits hadmits hmain, .inr ⟨k, hprog⟩⟩

/-- The processes of the daemon, however they are scheduled and whatever fails: descriptors are
handed to one process and are not left open in another. -/
theorem disciplined_of_run {conffile : Bool} {count turns parent : Nat} {pids : List Nat}
    (hrun : (Machine.system machine (0 : Nat) (start conffile count turns root parent)).Run pids s) :
    Disciplined root s := by
  have hstart : (start conffile count turns root parent).Meets Admits :=
    main_meets conffile count turns rfl rfl
  have hmeets := Machine.run_meets hstart hrun
  have honce := Machine.run_once handsOver hstart (by simp [start, Own.held, Own.connections]) hrun
  have hrooted : Rooted root s := by
    have hinv := hrun.invariant (I := fun s => (∀ p ∈ s.procs, p.Meets Admits) ∧ Rooted root s) ⟨?_, ?_⟩
    · exact hinv.2
    · rintro s rfl
      exact ⟨by simpa using hstart, by simp [Rooted, start]⟩
    · rintro s pid s' ⟨hmeets, hrooted⟩ hstep
      exact ⟨Machine.step_meets hstep hmeets, rooted_step hstep hmeets hrooted⟩
  have hchild {p : Machine.Process machine} (hp : p ∈ s.procs) (hpid : p.pid ≠ root) :=
    Child.next (hmeets p hp) (hrooted.child hp hpid).1
  constructor
  · intro p hp hpid
    exact (hrooted.child hp hpid).2
  · intro p hp k hprog
    obtain ⟨hmain, hfiles⟩ := files_of_accept ((hmeets p hp).op hprog)
    have hroot := hrooted p hp
    rw [if_pos hmain] at hroot
    exact ⟨hroot, hfiles⟩
  · intro p hp hpid d hd hfile
    obtain ⟨op, hop, hnext⟩ := hchild hp hpid
    have hclose := hop.listening d hd hfile
    subst hclose
    exact hnext.resolve_left (by simp)
  · intro p hp hpid
    obtain ⟨op, hop, -⟩ := hchild hp hpid
    exact hop.connection
  · -- what a child has open it is responsible for
    have hheld : (s.procs.filter fun p => p.pid ≠ root).flatMap (fun p => p.own.connections)
        = (s.procs.filter fun p => p.pid ≠ root).flatMap fun p => p.own.held := by
      refine List.flatMap_congr fun p hp => ?_
      obtain ⟨hmem, hpid⟩ := List.mem_filter.mp hp
      obtain ⟨op, hop, -⟩ := hchild hmem (by simpa using hpid)
      exact hop.charge.symm
    rw [hheld]
    exact honce.nodup.sublist (List.filter_sublist.flatMap _)

end

/-- A connection has been accepted and is served: the listener and its child have it open. -/
theorem disciplined_of_run_served : ∃ s : Machine.State machine,
    s.procs.map (fun p => (p.pid, p.own.connections)) = [(7, [1]), (8, [1])] ∧ Disciplined 7 s := by
  have listening : Opens (⟨[], true, false⟩, 0) ⟨.open .listening, some 3⟩
      (⟨[⟨3, .listening, 0⟩], true, false⟩, 1) := .open (by simp [Own.Unused])
  have accepted : Opens (⟨[⟨3, .listening, 0⟩], true, false⟩, 1) ⟨.accept, .ok 4⟩
      (⟨[⟨4, .connection, 1⟩, ⟨3, .listening, 0⟩], true, false⟩, 2) := .accept (by simp [Own.Unused])
  have run : (Machine.system machine (0 : Nat) (start false 0 1 7 1)).Run [] _ := .init rfl
  have run := run.step (@Machine.Step.call _ machine _ _ [] [] _ _ _ _ _ rfl listening)
  have run := run.step (@Machine.Step.call _ machine _ _ [] [] _ _ _ _ _ rfl (.work true))
  have run := run.step (@Machine.Step.call _ machine _ _ [] [] _ _ _ _ _ rfl (.work true))
  have run := run.step (@Machine.Step.call _ machine _ _ [] [] _ _ _ _ _ rfl accepted)
  have run := run.step (@Machine.Step.fork _ machine _ [] [] _ _ 8 rfl (by decide) (by simp [start]))
  have disciplined := disciplined_of_run run
  exact ⟨_, rfl, disciplined⟩

end Netdev.Daemon.Listener
