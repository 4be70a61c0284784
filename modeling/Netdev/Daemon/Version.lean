-- SUMMARY: What the version exchange promises, and for which messages and failures it keeps the promise.
import Netdev.Daemon.Handshake

/-!
# Version agreement

`proxy_client` and `proxy_server` go on to register the device unless the version
exchange returned -1. After `connect` the variable `rvalue` of `conn_server` is 0
on every exit, and `conn_client` answers a wrong version with its own and returns
that, so either side can go on without the peer's consent.
-/

namespace Netdev.Daemon
open Base Prog

/-- The value on which the proxies go on: they test only for -1. -/
def GoesOn (rvalue : Int32) : Prop := rvalue ≠ -1

instance (rvalue : Int32) : Decidable (GoesOn rvalue) := inferInstanceAs (Decidable (rvalue ≠ -1))

/-- A reply that accepts the client's version. -/
structure IsSuccess (m : Message) : Prop where
  size : m.size = sizeof Int32
  value : asInt m.payload = NETDEV_PROTOCOL_SUCCESS

/-- A version message that names `version`. -/
structure IsVersion (version : Int32) (m : Message) : Prop where
  msgtype : m.msgtype = MSGT_CONTROL_VERSION
  size : m.size = sizeof Int32
  value : asInt m.payload = version

theorem goesOn_versionReply {version : Int32} {m : Message} :
    GoesOn (versionReply version m) ↔ ¬ (version = -1 ∧ asInt m.payload ≠ version) := by
  have hzero : NETDEV_PROTOCOL_SUCCESS ≠ -1 := by decide
  unfold versionReply GoesOn
  by_cases hval : asInt m.payload = version
  · simp only [hval, ne_eq, not_true_eq_false, if_false, and_false, not_false_eq_true, iff_true]
    exact hzero
  · simp only [hval, ne_eq, not_false_eq_true, if_true, and_true]

/-! ## Both sides -/

/-- A client and a server at any point of their version exchange. Each side's
history is its own; nothing is assumed about the peer or the network. -/
structure Exchange where
  clientVersion : Int32
  serverVersion : Int32
  client : History
  server : History
  clientAt : DaemonM Int32
  serverAt : DaemonM Int32
  clientRun : Reaches anything (connServer clientVersion) [] clientAt client
  serverRun : Reaches anything (connClient serverVersion) [] serverAt server

namespace Exchange
variable (x : Exchange)

/-- The client received only what the server sent, and the other way round. -/
def Linked : Prop :=
  (∀ m ∈ received x.client, m ∈ sent x.server) ∧ ∀ m ∈ received x.server, m ∈ sent x.client

/-- Neither side goes on without the consent of the other. -/
structure Agreement : Prop where
  client : ∀ rvalue, x.clientAt = .ret rvalue → GoesOn rvalue → ∃ m ∈ received x.client, IsSuccess m
  server : ∀ rvalue, x.serverAt = .ret rvalue → GoesOn rvalue →
    ∃ m ∈ received x.server, IsVersion x.serverVersion m
  differ : x.Linked → x.clientVersion ≠ x.serverVersion →
    (∀ rvalue, x.clientAt = .ret rvalue → ¬ GoesOn rvalue) ∧
      ∀ rvalue, x.serverAt = .ret rvalue → ¬ GoesOn rvalue

/-- The exchanges on which no defect shows: the client's message could be sent and
every reply accepts it, and the server answered only its own version. (With the
version -1 the server's refusal is -1 and does stop the proxy.) -/
structure Unharmed : Prop where
  offered : unsent x.client = []
  accepted : ∀ m ∈ received x.client, IsSuccess m
  answered : sent x.server ≠ [] → ∀ m ∈ received x.server,
    IsVersion x.serverVersion m ∨ x.serverVersion = -1 ∧ asInt m.payload ≠ x.serverVersion

/-- The client has not returned, or it returned as `conn_server` does. -/
theorem client_point : (∀ rvalue, x.clientAt ≠ .ret rvalue) ∧ Connecting x.clientVersion [] x.client ∨
    ∃ rvalue, x.clientAt = .ret rvalue ∧ Connected x.clientVersion [] rvalue x.client := by
  have hwp := x.clientRun.wp (connServer_spec x.clientVersion [])
  cases hat : x.clientAt with
  | ret rvalue =>
      rw [hat] at hwp
      exact .inr ⟨rvalue, rfl, hwp⟩
  | call op k =>
      rw [hat] at hwp
      exact .inl ⟨nofun, hwp.1⟩

/-- The server has not returned, or it returned as `conn_client` does. -/
theorem server_point : (∀ rvalue, x.serverAt ≠ .ret rvalue) ∧ Accepting [] x.server ∨
    ∃ rvalue, x.serverAt = .ret rvalue ∧ Accepted x.serverVersion [] rvalue x.server := by
  have hwp := x.serverRun.wp (connClient_spec x.serverVersion [])
  cases hat : x.serverAt with
  | ret rvalue =>
      rw [hat] at hwp
      exact .inr ⟨rvalue, rfl, hwp⟩
  | call op k =>
      rw [hat] at hwp
      exact .inl ⟨nofun, hwp.1⟩

/-- The client has sent at most its version message. -/
theorem client_sent {m : Message} (hm : m ∈ sent x.client) : m = versionMessage x.clientVersion := by
  rcases x.client_point with ⟨-, hpoint⟩ | ⟨rvalue, -, hend⟩
  · generalize x.client = h at hm hpoint
    cases hpoint with
    | start => cases hm
    | sent => exact List.mem_singleton.mp hm
    | lost => exact List.mem_singleton.mp hm
  · generalize x.client = h at hm hend
    cases hend with
    | early => cases hm
    | unsent => cases hm
    | answered m' => exact List.mem_singleton.mp hm

/-- What the server sent last is what it returned. -/
theorem server_sent {m : Message} (hm : m ∈ sent x.server) :
    ∃ rvalue, x.serverAt = .ret rvalue ∧ asInt m.payload = rvalue := by
  rcases x.server_point with ⟨-, hpoint⟩ | ⟨rvalue, hat, hend⟩
  · generalize x.server = h at hm hpoint
    cases hpoint with
    | start => cases hm
    | received => cases hm
  · refine ⟨rvalue, hat, ?_⟩
    generalize x.server = h at hm hend
    cases hend with
    | refused => cases hm
    | unsent => cases hm
    | answered m' hsize =>
        cases List.mem_singleton.mp hm
        exact asInt_toBytes _

/-- The client's part of the agreement. -/
theorem client_iff :
    (∀ rvalue, x.clientAt = .ret rvalue → GoesOn rvalue → ∃ m ∈ received x.client, IsSuccess m) ↔
      unsent x.client = [] ∧ ∀ m ∈ received x.client, IsSuccess m := by
  have hgo : GoesOn 0 := by decide
  rcases x.client_point with ⟨hat, hpoint⟩ | ⟨rvalue, hat, hend⟩
  · generalize x.client = h at hpoint
    have hquiet : unsent h = [] ∧ ∀ m ∈ received h, IsSuccess m := by
      cases hpoint with
      | start => exact ⟨rfl, nofun⟩
      | sent => exact ⟨rfl, nofun⟩
      | lost => exact ⟨rfl, nofun⟩
    exact ⟨fun _ => hquiet, fun _ rvalue h => absurd h (hat rvalue)⟩
  · rw [hat]
    generalize x.client = h at hend
    cases hend with
    | early =>
        refine ⟨fun _ => ⟨rfl, nofun⟩, ?_⟩
        intro _ _ hret hgo
        cases hret
        exact absurd rfl hgo
    | unsent =>
        refine ⟨?_, fun h => nomatch h.1⟩
        intro h
        obtain ⟨m, hm, -⟩ := h 0 rfl hgo
        cases hm
    | answered m =>
        constructor
        · intro h
          obtain ⟨m', hm', hs⟩ := h 0 rfl hgo
          cases List.mem_singleton.mp hm'
          exact ⟨rfl, fun _ hm => List.mem_singleton.mp hm ▸ hs⟩
        · intro h _ _ _
          exact ⟨m, List.mem_singleton_self m, h.2 m (List.mem_singleton_self m)⟩

/-- The server's part of the agreement. -/
theorem server_iff :
    (∀ rvalue, x.serverAt = .ret rvalue → GoesOn rvalue →
        ∃ m ∈ received x.server, IsVersion x.serverVersion m) ↔
      (sent x.server ≠ [] → ∀ m ∈ received x.server, IsVersion x.serverVersion m ∨
        x.serverVersion = -1 ∧ asInt m.payload ≠ x.serverVersion) := by
  rcases x.server_point with ⟨hat, hpoint⟩ | ⟨rvalue, hat, hend⟩
  · generalize x.server = h at hpoint
    have hsilent : sent h = [] := by
      cases hpoint with
      | start => rfl
      | received => rfl
    exact ⟨fun _ h => absurd hsilent h, fun _ rvalue h => absurd h (hat rvalue)⟩
  · rw [hat]
    generalize x.server = h at hend
    cases hend with
    | refused m =>
        refine ⟨fun _ h => absurd rfl h, ?_⟩
        intro _ _ hret hgo
        cases hret
        exact absurd rfl hgo
    | unsent m reply =>
        refine ⟨fun _ h => absurd rfl h, ?_⟩
        intro _ _ hret hgo
        cases hret
        exact absurd rfl hgo
    | answered m hsize =>
        have hm := List.mem_singleton_self m
        constructor
        · intro h _ m' hm'
          cases List.mem_singleton.mp hm'
          by_cases hgo : GoesOn (versionReply x.serverVersion m)
          · obtain ⟨_, hm, hver⟩ := h _ rfl hgo
            cases List.mem_singleton.mp hm
            exact .inl hver
          · rw [goesOn_versionReply, not_not] at hgo
            exact .inr hgo
        · intro h _ hret hgo
          cases hret
          rw [goesOn_versionReply] at hgo
          rcases h (List.cons_ne_nil _ _) m hm with hver | hrefused
          · exact ⟨m, hm, hver⟩
          · exact absurd hrefused hgo

/-- With the agreement of each side, different versions stop both. -/
theorem differ_of (hlink : x.Linked) (hne : x.clientVersion ≠ x.serverVersion)
    (hclient : ∀ rvalue, x.clientAt = .ret rvalue → GoesOn rvalue →
      ∃ m ∈ received x.client, IsSuccess m)
    (hserver : ∀ rvalue, x.serverAt = .ret rvalue → GoesOn rvalue →
      ∃ m ∈ received x.server, IsVersion x.serverVersion m) :
    (∀ rvalue, x.clientAt = .ret rvalue → ¬ GoesOn rvalue) ∧
      ∀ rvalue, x.serverAt = .ret rvalue → ¬ GoesOn rvalue := by
  have hstop : ∀ rvalue, x.serverAt = .ret rvalue → ¬ GoesOn rvalue := by
    intro rvalue hat hgo
    obtain ⟨m, hm, hver⟩ := hserver rvalue hat hgo
    have hoffer := x.client_sent (hlink.2 m hm)
    have hval := hver.value
    rw [hoffer, versionMessage, asInt_toBytes] at hval
    exact hne hval
  refine ⟨?_, hstop⟩
  intro rvalue hat hgo
  obtain ⟨m, hm, hsucc⟩ := hclient rvalue hat hgo
  -- The server sent this message last, so it has returned 0.
  obtain ⟨reply, hat', hreply⟩ := x.server_sent (hlink.1 m hm)
  have hzero : NETDEV_PROTOCOL_SUCCESS ≠ -1 := by decide
  rw [hsucc.value] at hreply
  exact hstop reply hat' (hreply ▸ hzero)

end Exchange

/-- For every pair of versions, all messages and every failure of a step, at every
point of the exchange: the sides agree exactly on the unharmed exchanges. -/
theorem versionAgreement_iff (x : Exchange) : x.Agreement ↔ x.Unharmed := by
  constructor
  · intro h
    obtain ⟨hoff, hacc⟩ := x.client_iff.mp h.client
    exact ⟨hoff, hacc, x.server_iff.mp h.server⟩
  · intro h
    have hclient := x.client_iff.mpr ⟨h.offered, h.accepted⟩
    have hserver := x.server_iff.mpr h.answered
    exact ⟨hclient, hserver, fun hlink hne => x.differ_of hlink hne hclient hserver⟩

/-- A client of version 1 and a server of version 2, with every step succeeding,
both go on to register the device. -/
theorem versionAgreement_fails : ∃ x : Exchange, x.clientVersion = 1 ∧ x.serverVersion = 2 ∧
    x.Linked ∧ x.clientAt = .ret 0 ∧ x.serverAt = .ret 2 ∧ ¬ x.Agreement := by
  have hclient := Reaches.answer (Reaches.answer (Reaches.answer (Reaches.answer (Reaches.answer
    (Reaches.answer (Reaches.answer (.start (p := connServer 1) (s := [])) true) true) true) true)
    true) true) (some (versionMessage 2))
  have hserver := Reaches.answer (Reaches.answer (.start (p := connClient 2) (s := [])) (some (versionMessage 1))) true
  let x : Exchange := ⟨1, 2, _, _, _, _, hclient, hserver⟩
  have hlink : x.Linked := ⟨fun m hm => hm, fun m hm => hm⟩
  refine ⟨x, rfl, rfl, hlink, rfl, rfl, ?_⟩
  have hne : (1 : Int32) ≠ 2 := by decide
  have hgo : GoesOn 0 := by decide
  intro h
  exact (h.differ hlink hne).1 0 rfl hgo

end Netdev.Daemon
