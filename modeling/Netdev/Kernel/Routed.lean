-- SUMMARY: Where no process shares its access id between two open files, replies and operations find their file in every run.
import Netdev.Kernel.RoutedClient
import Netdev.Kernel.RoutedServer

/-!
# Routing in every run

Every step of one of the machines keeps both tables and what the logs say. One thing
is left to the condition: the access id is the pid of a process, and so a process
that opens the device again while it still has a file there shares its server's file.
-/

namespace Netdev.Kernel.Routing
open Base Registry

/-- What the logs say. -/
structure Log (s : State) : Prop where
  lookups : ∀ n acc, (n, acc) ∈ s.lookups → ∃ a, acc = some a ∧ (s.ops n).acc = some a
  searches : ∀ n acc, (n, acc) ∈ s.searches → (s.ops n).acc = some acc
  executions : ∀ x ∈ s.executions, x.op < s.next ∧ x.opened = some ((s.ops x.op).opener, x.filp)

/-- The invariant of a run. -/
structure Kept (d e : DevId) (s : State) : Prop where
  calls : Inv d e s
  client : ∃ files, ClientInv d s files
  server : ∃ files, ServerInv e s files
  log : Log s

section Fields
variable {s : State} {n : Nat} {env : HandlerEnv} {event : Option FileEvent}

/-- The logs are read by no thread. -/
theorem note_eq : (s.note n event).ops = s.ops ∧ (s.note n event).next = s.next ∧
    (s.note n event).server = s.server ∧ (s.note n event).opened = s.opened ∧
    (s.note n event).executions = s.executions := by
  unfold State.note
  split
  · exact ⟨rfl, rfl, rfl, rfl, rfl⟩
  · exact ⟨rfl, rfl, rfl, rfl, rfl⟩
  · exact ⟨rfl, rfl, rfl, rfl, rfl⟩

theorem record_eq : (s.record n env event).ops = s.ops ∧ (s.record n env event).next = s.next ∧
    (s.record n env event).client = s.client ∧ (s.record n env event).lookups = s.lookups ∧
    (s.record n env event).searches = s.searches := by
  unfold State.record
  split
  · split
    · exact ⟨rfl, rfl, rfl, rfl, rfl⟩
    · exact ⟨rfl, rfl, rfl, rfl, rfl⟩
  · exact ⟨rfl, rfl, rfl, rfl, rfl⟩

/-- What a step of the client's thread adds to the lookups. -/
theorem mem_note_lookups {k : Nat} {acc : Option AccRef} (h : (k, acc) ∈ (s.note n event).lookups) :
    (k, acc) ∈ s.lookups ∨ k = n ∧ ∃ d pid, event = some (.lookup d pid acc) := by
  unfold State.note at h
  split at h
  case h_1 d pid acc' =>
    rcases List.mem_append.mp h with hold | hnew
    · exact .inl hold
    · obtain ⟨rfl, rfl⟩ := Prod.mk.inj (List.mem_singleton.mp hnew)
      exact .inr ⟨rfl, d, pid, rfl⟩
  case h_2 => exact .inl h
  case h_3 => exact .inl h

/-- And to the searches. -/
theorem mem_note_searches {k : Nat} {acc : AccRef} (h : (k, acc) ∈ (s.note n event).searches) :
    (k, acc) ∈ s.searches ∨ k = n ∧ event = some (.search acc) := by
  unfold State.note at h
  split at h
  case h_1 => exact .inl h
  case h_2 acc' =>
    rcases List.mem_append.mp h with hold | hnew
    · exact .inl hold
    · obtain ⟨rfl, rfl⟩ := Prod.mk.inj (List.mem_singleton.mp hnew)
      exact .inr ⟨rfl, rfl⟩
  case h_3 => exact .inl h

/-- What a step of the server's thread adds to the executions. -/
theorem mem_record_executions {x : Execution} (h : x ∈ (s.record n env event).executions) :
    x ∈ s.executions ∨ ∃ acc nlh rvalue, event = some (.execute acc nlh rvalue) ∧ nlh.msgtype ≠ MSGT_FO_OPEN ∧
      x = ⟨n, s.opened acc, s.server.filp acc⟩ := by
  unfold State.record at h
  split at h
  case h_1 acc nlh rvalue =>
    split at h
    case isTrue => exact .inl h
    case isFalse htype =>
      rcases List.mem_append.mp h with hold | hnew
      · exact .inl hold
      · exact .inr ⟨acc, nlh, rvalue, rfl, htype, List.mem_singleton.mp hnew⟩
  case h_2 => exact .inl h

end Fields

section Logs
variable {d e : DevId} {s s' : State} {n m : Nat} {op : Operation}

/-- A step adds what is true of its call. -/
theorem Log.step (h : Log s) (hm : Moves s s' n)
    (hlookups : ∀ k acc, (k, acc) ∈ s'.lookups → (k, acc) ∈ s.lookups ∨ k = n ∧ acc ≠ none ∧ (s.ops n).acc = acc)
    (hsearches : ∀ k acc, (k, acc) ∈ s'.searches → (k, acc) ∈ s.searches ∨ k = n ∧ (s.ops n).acc = some acc)
    (hexecutions : ∀ x ∈ s'.executions, x ∈ s.executions ∨
      x.op = n ∧ x.opened = some ((s.ops n).opener, x.filp)) : Log s' := by
  refine ⟨fun k acc hk => ?_, fun k acc hk => ?_, fun x hx => ?_⟩
  · rcases hlookups k acc hk with hold | ⟨rfl, hne, hacc⟩
    · obtain ⟨a, rfl, ha⟩ := h.lookups k acc hold
      exact ⟨a, rfl, (hm.all k).acc a ha⟩
    · obtain ⟨a, rfl⟩ := Option.ne_none_iff_exists'.mp hne
      exact ⟨a, rfl, (hm.all k).acc a hacc⟩
  · rcases hsearches k acc hk with hold | ⟨rfl, hacc⟩
    · exact (hm.all k).acc acc (h.searches k acc hold)
    · exact (hm.all k).acc acc hacc
  · rw [hm.next, (hm.all x.op).opener]
    rcases hexecutions x hx with hold | ⟨rfl, hopened⟩
    · exact h.executions x hold
    · exact ⟨hm.lt, hopened⟩

/-- A step without an entry. -/
theorem Log.idle (h : Log s) (hm : Moves s s' n) (hlookups : s'.lookups = s.lookups)
    (hsearches : s'.searches = s.searches) (hexecutions : s'.executions = s.executions) : Log s' :=
  h.step hm (fun _ _ hk => .inl (hlookups ▸ hk)) (fun _ _ hk => .inl (hsearches ▸ hk))
    fun _ hx => .inl (hexecutions ▸ hx)

theorem Log.start (h : Log s) (hinv : Inv d e s) : Log (s.start op) := by
  have hold : ∀ k a, (s.ops k).acc = some a → ((s.start op).ops k).acc = some a := by
    intro k a ha
    have hne : k ≠ s.next := by
      rintro rfl
      rw [hinv.inert _ (Nat.le_refl _)] at ha
      cases ha
    rw [start_of_ne hne]
    exact ha
  refine ⟨fun k acc hk => ?_, fun k acc hk => hold k acc (h.searches k acc hk), fun x hx => ?_⟩
  · obtain ⟨a, hacc, ha⟩ := h.lookups k acc hk
    exact ⟨a, hacc, hold k a ha⟩
  · obtain ⟨hlt, hopened⟩ := h.executions x hx
    rw [start_of_ne hlt.ne]
    exact ⟨Nat.lt_succ_of_lt hlt, hopened⟩

end Logs

/-! ## Every step -/

section Steps
variable {d e : DevId} {s s' : State} {n m : Nat} {nlh : NlMessage} {env : FoEnv} {event : Option FileEvent}
  {prog' : FoM Int32} {reg' : Registry} {r : Receiver}

theorem Kept.openOp (h : Kept d e s) {pid : Int32} (pad : UInt32) (hclear : s.Clear pid) :
    Kept d e (s.start (openOp s d pid pad)) := by
  obtain ⟨files, hclient⟩ := h.client
  obtain ⟨files', hserver⟩ := h.server
  have hbegins := openOp_begins s d pid pad
  exact ⟨h.calls.openOp pad hclear, ⟨files, hclient.start h.calls hbegins fun _ ha => nomatch ha⟩,
    ⟨files', hserver.start h.calls hbegins rfl (.inl rfl)⟩, h.log.start h.calls⟩

theorem Kept.callOp (h : Kept d e s) {call : FoCall} {a : AccRef} (hacc : (s.ops m).acc = some a)
    (hmay : s.MayCall m call) : Kept d e (s.start (callOp s m call a)) := by
  obtain ⟨files, hclient⟩ := h.client
  obtain ⟨files', hserver⟩ := h.server
  have hbegins := callOp_begins s m call a
  refine ⟨h.calls.callOp hacc hmay, ⟨files, hclient.start h.calls hbegins fun b hb => ?_⟩,
    ⟨files', hserver.start h.calls hbegins rfl (.inr ⟨hmay.2.1, rfl⟩)⟩, h.log.start h.calls⟩
  obtain rfl := Option.some.inj hb
  exact ⟨hmay.2.1, hacc, rfl⟩

/-- A request that comes is of a call that waits. -/
theorem Kept.request (h : Kept d e s) (hserve : (s.ops n).serve = none)
    (hsent : (s.ops n).sent = some (asInt nlh.payload)) (hmsgtype : nlh.msgtype = (s.ops n).call.msgtype.toInt32) :
    Kept d e (s.setOp n { s.ops n with serve := some ⟨nlh, foRecvDev e nlh, .lookup⟩ }) := by
  have hlt : n < s.next := h.calls.lt fun hinert => by
    rw [hinert] at hsent
    cases hsent
  have hended : (s.ops n).ended = false := by
    rw [Operation.ended, hsent, hserve]
    simp
  have hm : Moves s (s.setOp n { s.ops n with serve := some ⟨nlh, foRecvDev e nlh, .lookup⟩ }) n :=
    .of_update hlt hended (.serve _ _) rfl rfl
  have hself : (s.setOp n { s.ops n with serve := some ⟨nlh, foRecvDev e nlh, .lookup⟩ }).ops n
      = { s.ops n with serve := some ⟨nlh, foRecvDev e nlh, .lookup⟩ } := Function.update_self ..
  obtain ⟨files, hclient⟩ := h.client
  obtain ⟨files', hserver⟩ := h.server
  refine ⟨hm.inv h.calls ?_, ⟨files, hclient.idle hm rfl (by rw [hself]) (by rw [hself]) (by rw [hself]) ?_⟩,
    ⟨files', hserver.idle hm rfl rfl (.inr ⟨_, hserve, by rw [hself], rfl⟩) (.inr (by rw [hself]))⟩,
    h.log.idle hm rfl rfl rfl⟩
  · rw [hself]
    exact (h.calls.sound n).request hserve hsent hmsgtype
  · rw [hself]
    exact id

/-- A reply that comes is of a call that the server has executed. -/
theorem Kept.reply (h : Kept d e s) (hserve : (s.ops n).serve = some r) (hanswer : (s.ops n).answer = none)
    (hexecuted : r.phase.executed = true) (hroute : SameRoute r.nlh nlh) :
    Kept d e (s.setOp n { s.ops n with answer := some ⟨nlh, foRecvDev d nlh, .lookup⟩ }) := by
  have hlt : n < s.next := h.calls.lt fun hinert => by
    rw [hinert] at hserve
    cases hserve
  have hdone : (s.ops n).executed = true := by
    rw [Operation.executed, hserve]
    exact hexecuted
  have hended : (s.ops n).ended = false := by
    rw [Operation.ended, hdone, hanswer]
    simp
  have hm : Moves s (s.setOp n { s.ops n with answer := some ⟨nlh, foRecvDev d nlh, .lookup⟩ }) n :=
    .of_update hlt hended (.answer _ _) rfl rfl
  have hself : (s.setOp n { s.ops n with answer := some ⟨nlh, foRecvDev d nlh, .lookup⟩ }).ops n
      = { s.ops n with answer := some ⟨nlh, foRecvDev d nlh, .lookup⟩ } := Function.update_self ..
  obtain ⟨files, hclient⟩ := h.client
  obtain ⟨files', hserver⟩ := h.server
  refine ⟨hm.inv h.calls ?_, ⟨files, hclient.idle hm rfl (by rw [hself]) (by rw [hself]) (by rw [hself]) ?_⟩,
    ⟨files', hserver.idle hm rfl rfl (.inl (by rw [hself])) (.inr (by rw [hself]))⟩, h.log.idle hm rfl rfl rfl⟩
  · rw [hself]
    exact (h.calls.sound n).reply hserve hanswer hexecuted hroute
  · intro _
    rw [Operation.destroyed, hanswer]
    rfl

/-- A step of `fo_send`. -/
theorem Kept.send (h : Kept d e s) (hp : Performs env s.client (s.ops n).prog event prog' reg')
    (hawake : ∀ a, (s.ops n).phase = .waiting a → (s.ops n).completed = true) :
    Kept d e { s.setOp n ((s.ops n).goOn d (((s.ops n).acc.bind s.client.accs).map Acc.accessId) event prog') with
      client := reg' } := by
  obtain ⟨files, hclient⟩ := h.client
  obtain ⟨files', hserver⟩ := h.server
  have hsound := h.calls.sound n
  generalize haccessId : ((s.ops n).acc.bind s.client.accs).map Acc.accessId = accessId
  have hlt : n < s.next := h.calls.lt fun hinert => by
    have hreturned := hp.not_returned
    rw [hinert] at hreturned
    cases hreturned
  have hended := Operation.Sound.ended_eq_false hp.not_returned
  have hm : Moves s { s.setOp n ((s.ops n).goOn d accessId event prog') with client := reg' } n :=
    .of_update hlt hended (hsound.grows hp) rfl rfl
  have hself : ({ s.setOp n ((s.ops n).goOn d accessId event prog') with client := reg' } : State).ops n
      = (s.ops n).goOn d accessId event prog' := Function.update_self ..
  have hinv' : Inv d e { s.setOp n ((s.ops n).goOn d accessId event prog') with client := reg' } := by
    refine hm.inv h.calls ?_
    rw [hself]
    cases event with
    | none =>
        obtain rfl : prog' = .ret (-1) := hp.oops_eq
        exact hsound.stop hp
    | some event =>
        refine (hsound.goOn hp hclient.lists (fun a hphase => ?_) hawake).1
        rw [← haccessId]
        exact hclient.accessId h.calls hp.not_returned hphase
  refine ⟨hinv', hclient.send h.calls hinv' hm hp hself, ⟨files', hserver.idle hm rfl rfl (.inl ?_)
    (.inl hp.not_returned)⟩, h.log.idle hm rfl rfl rfl⟩
  rw [hself]
  cases event with
  | none => rfl
  | some event => rfl

/-- A step of `fo_recv` of the server. -/
theorem Kept.serve (h : Kept d e s) (hserve : (s.ops n).serve = some r)
    (hp : Performs env s.server r.prog event prog' reg') :
    Kept d e { (s.record n env.handler event).setOp n
      { s.ops n with serve := some (r.goOn false e event prog') } with server := reg' } := by
  obtain ⟨files, hclient⟩ := h.client
  obtain ⟨files', hserver⟩ := h.server
  obtain ⟨hops, hnext, hsame, hlookups, hsearches⟩ := @record_eq s n env.handler event
  have hsound := h.calls.sound n
  have hlt : n < s.next := h.calls.lt fun hinert => by
    rw [hinert] at hserve
    cases hserve
  have hended := hsound.ended_eq_false_of_serve hserve hp.thread
  generalize hs' : ({ (s.record n env.handler event).setOp n
    { s.ops n with serve := some (r.goOn false e event prog') } with server := reg' } : State) = s'
  have hupdate : s'.ops = Function.update s.ops n { s.ops n with serve := some (r.goOn false e event prog') } := by
    rw [← hs', ← hops]
    rfl
  have hself : s'.ops n = { s.ops n with serve := some (r.goOn false e event prog') } := by
    rw [hupdate, Function.update_self]
  have hm : Moves s s' n := .of_update hlt hended (.serve _ _) (by rw [← hs', ← hnext]; rfl) hupdate
  have hp' : Performs env s.server r.prog event prog' s'.server := by
    rw [← hs']
    exact hp
  have hopened : s'.opened = (s.record n env.handler event).opened := by rw [← hs']; rfl
  have hinv' : Inv d e s' := by
    refine hm.inv h.calls ?_
    rw [hself]
    cases event with
    | none =>
        obtain rfl : prog' = .ret (-1) := hp.oops_eq
        exact hsound.serve_stop hserve
    | some event => exact (hsound.serve_goOn hserve hp hserver.lists).1
  refine ⟨hinv', ⟨files, hclient.idle hm ?_ (by rw [hself]) (by rw [hself]) (by rw [hself]) ?_⟩,
    hserver.serve h.calls hm hserve hp' hself hopened, h.log.step hm (fun k acc hk => .inl ?_)
    (fun k acc hk => .inl ?_) (fun x hx => ?_)⟩
  · rw [← hs', ← hsame]
    rfl
  · rw [hself]
    exact id
  · rw [← hs'] at hk
    rw [← hlookups]
    exact hk
  · rw [← hs'] at hk
    rw [← hsearches]
    exact hk
  · have hx' : x ∈ (s.record n env.handler event).executions := by
      rw [← hs'] at hx
      exact hx
    obtain hold | ⟨acc, nlh', rvalue, rfl, htype, rfl⟩ := mem_record_executions hx'
    · exact .inl hold
    · obtain ⟨-, hstep⟩ := (hsound.serve r hserve).goOn hp hserver.lists
      generalize (r.goOn false e (some (.execute acc nlh' rvalue)) prog').phase = ph' at hstep
      generalize hphase : r.phase = ph at hstep
      cases hstep with
      | execute _ =>
          have hopens : (s.ops n).opens = false := by
            by_contra hopens
            exact htype ((hsound.serve r hserve).opens_iff.mpr (by simpa using hopens))
          refine .inr ⟨rfl, hserver.execution h.calls hlt hopens ?_⟩
          rw [Operation.serverPhase, hserve, Option.map_some, hphase]

/-- A step of `fo_recv` of the client. -/
theorem Kept.answer (h : Kept d e s) (hanswer : (s.ops n).answer = some r)
    (hp : Performs env s.client r.prog event prog' reg')
    (hlock : r.phase = .lookup → env.free = true ∧ Sem.dev d ∉ s.client.stuck) :
    Kept d e { (s.note n event).setOp n
      { s.ops n with answer := some (r.goOn true d event prog') } with client := reg' } := by
  obtain ⟨files, hclient⟩ := h.client
  obtain ⟨files', hserver⟩ := h.server
  obtain ⟨hops, hnext, hsame, hopened, hexecutions⟩ := @note_eq s n event
  have hsound := h.calls.sound n
  have hlt : n < s.next := h.calls.lt fun hinert => by
    rw [hinert] at hanswer
    cases hanswer
  have hended := hsound.ended_eq_false_of_answer hanswer hp.thread
  generalize hs' : ({ (s.note n event).setOp n
    { s.ops n with answer := some (r.goOn true d event prog') } with client := reg' } : State) = s'
  have hupdate : s'.ops = Function.update s.ops n { s.ops n with answer := some (r.goOn true d event prog') } := by
    rw [← hs', ← hops]
    rfl
  have hself : s'.ops n = { s.ops n with answer := some (r.goOn true d event prog') } := by
    rw [hupdate, Function.update_self]
  have hm : Moves s s' n := .of_update hlt hended (.answer _ _) (by rw [← hs', ← hnext]; rfl) hupdate
  have hp' : Performs env s.client r.prog event prog' s'.client := by
    rw [← hs']
    exact hp
  have hfound : ∀ d' pid acc, event = some (.lookup d' pid acc) → acc ≠ none ∧ (s.ops n).acc = acc := by
    rintro d' pid acc rfl
    exact hclient.lookup h.calls hanswer hp hlock
  have hinv' : Inv d e s' := by
    refine hm.inv h.calls ?_
    rw [hself]
    cases event with
    | none =>
        obtain rfl : prog' = .ret (-1) := hp.oops_eq
        exact hsound.answer_stop hanswer
    | some event =>
        exact (hsound.answer_goOn hanswer hp hclient.lists fun d' pid acc he => hfound d' pid acc (by rw [he])).1
  refine ⟨hinv', hclient.answer h.calls hinv' hm hanswer hp' hself,
    ⟨files', hserver.idle hm ?_ ?_ (.inl (by rw [hself])) (.inr (by rw [hself]))⟩,
    h.log.step hm (fun k acc hk => ?_) (fun k acc hk => ?_) (fun x hx => .inl ?_)⟩
  · rw [← hs', ← hsame]
    rfl
  · rw [← hs', ← hopened]
    rfl
  · have hk' : (k, acc) ∈ (s.note n event).lookups := by
      rw [← hs'] at hk
      exact hk
    obtain hold | ⟨rfl, d', pid, rfl⟩ := mem_note_lookups hk'
    · exact .inl hold
    · exact .inr ⟨rfl, hfound d' pid acc rfl⟩
  · have hk' : (k, acc) ∈ (s.note n event).searches := by
      rw [← hs'] at hk
      exact hk
    obtain hold | ⟨rfl, rfl⟩ := mem_note_searches hk'
    · exact .inl hold
    · obtain ⟨-, hstep⟩ := (hsound.answer r hanswer).goOn hp hclient.lists
      have hfile := (hsound.answered r hanswer).2.2.1
      generalize (r.goOn true d (some (.search acc)) prog').phase = ph' at hstep
      generalize r.phase = ph at hstep hfile
      cases hstep with
      | search _ => exact .inr ⟨rfl, hfile acc rfl⟩
  · rw [← hs'] at hx
    rw [← hexecutions]
    exact hx

/-- Every step that meets the condition. -/
theorem Kept.step (h : Kept d e s) {l : Label} (hstep : step? d e s l = some s') (hunshared : Unshared d s l) :
    Kept d e s' := by
  cases l with
  | «open» pid pad =>
      obtain rfl := Option.some.inj hstep
      exact h.openOp pad hunshared
  | call m call =>
      simp only [step?] at hstep
      split at hstep
      case h_1 a hacc =>
        split at hstep
        case isTrue hmay =>
          obtain rfl := Option.some.inj hstep
          exact h.callOp hacc hmay
        case isFalse => cases hstep
      case h_2 => cases hstep
  | request n nlh =>
      simp only [step?] at hstep
      split at hstep
      case isTrue hnew =>
        obtain rfl := Option.some.inj hstep
        exact h.request (Option.isNone_iff_eq_none.mp hnew.1) hnew.2.1 hnew.2.2
      case isFalse => cases hstep
  | reply n nlh =>
      simp only [step?] at hstep
      split at hstep
      case h_1 r hserve =>
        split at hstep
        case isTrue hnew =>
          obtain rfl := Option.some.inj hstep
          exact h.reply hserve (Option.isNone_iff_eq_none.mp hnew.1) hnew.2.1 hnew.2.2
        case isFalse => cases hstep
      case h_2 => cases hstep
  | send n env =>
      simp only [step?] at hstep
      split at hstep
      case h_1 event prog' reg' hp =>
        obtain rfl := Option.some.inj hstep
        exact h.send (performs_of_perform hp) hunshared
      case h_2 => cases hstep
  | serve n env =>
      simp only [step?] at hstep
      split at hstep
      case h_1 r hserve =>
        split at hstep
        case h_1 event prog' reg' hp =>
          obtain rfl := Option.some.inj hstep
          exact h.serve hserve (performs_of_perform hp)
        case h_2 => cases hstep
      case h_2 => cases hstep
  | answer n env =>
      simp only [step?] at hstep
      split at hstep
      case h_1 r hanswer =>
        split at hstep
        case h_1 event prog' reg' hp =>
          obtain rfl := Option.some.inj hstep
          exact h.answer hanswer (performs_of_perform hp) (hunshared r hanswer)
        case h_2 => cases hstep
      case h_2 => cases hstep

end Steps

/-! ## Every run -/

section Runs
variable {d e : DevId} {s : State}

theorem inert_sound : Operation.inert.Sound d e where
  course := .inr (by decide)
  acc _ ha := nomatch ha
  nddata _ ha := nomatch ha
  opening hph := nomatch hph
  unsent _ := rfl
  sent _ hpid := nomatch hpid
  woken _ hph := nomatch hph
  serve _ hr := nomatch hr
  served _ hr := nomatch hr
  answer _ hr := nomatch hr
  answered _ hr := nomatch hr

/-- Before anything is opened. -/
theorem initial_kept {client server : Registry} (hclient : client.Lists d true [])
    (hserver : server.Lists e false []) : Kept d e (.initial client server) where
  calls := {
    inert := fun _ _ => rfl
    sound := fun _ => inert_sound
    opens := fun _ hn => nomatch hn
    opener := fun _ hn => nomatch hn
    released := fun _ hn => nomatch hn
    alone := fun _ hn => nomatch hn }
  client := ⟨[], {
    lists := hclient
    old := fun _ _ ha => nomatch ha
    owner := fun _ _ _ ha => nomatch ha
    first := fun _ _ _ ha => nomatch ha }⟩
  server := ⟨[], {
    lists := hserver
    owner := fun _ _ _ hph => nomatch hph
    unopened := fun _ _ => rfl
    filp := fun _ hf => nomatch hf
    found := fun _ _ hph => nomatch hph
    kept := fun _ _ _ hph => nomatch hph }⟩
  log := ⟨fun _ _ hk => (nomatch hk), fun _ _ hk => (nomatch hk), fun _ hx => (nomatch hx)⟩

theorem kept_invariant : ((system d e).restrict (Unshared d)).Invariant (Kept d e) where
  init := by
    rintro s ⟨client, server, hclient, hserver, rfl⟩
    exact initial_kept hclient hserver
  step := by
    rintro s l s' h ⟨hstep, hunshared⟩
    exact h.step hstep hunshared

end Runs

/-! ## Runs on given inputs -/

instance (ph : Outbound) (p : Prop) [Decidable p] : Decidable (∀ a, ph = .waiting a → p) :=
  match ph with
  | .waiting a => decidable_of_iff p ⟨fun h _ _ => h, fun h => h a rfl⟩
  | .opening => .isTrue nofun
  | .ready _ => .isTrue nofun
  | .woken _ => .isTrue nofun
  | .closed => .isTrue nofun
  | .astray => .isTrue nofun

instance (d : DevId) (s : State) (l : Label) : Decidable (Unshared d s l) :=
  match l with
  | .open pid _ => inferInstanceAs (Decidable (∀ n < s.next, (s.ops n).pid = pid → _ ∧ ¬ s.fileOpen n))
  | .send n _ => inferInstanceAs (Decidable (∀ a, (s.ops n).phase = .waiting a → _))
  | .answer n _ => inferInstanceAs (Decidable (∀ r ∈ (s.ops n).answer, r.phase = .lookup → _ ∧ _))
  | .call .. => .isTrue trivial
  | .request .. => .isTrue trivial
  | .reply .. => .isTrue trivial
  | .serve .. => .isTrue trivial

/-- The steps one after the other, while they meet the condition. -/
def steps? (d e : DevId) (C : State → Label → Prop) [∀ s l, Decidable (C s l)] (s : State) :
    List Label → Option State
  | [] => some s
  | l :: ls =>
      if C s l then
        match step? d e s l with
        | some s' => steps? d e C s' ls
        | none => none
      else
        none

namespace Sample
open Kernel.Sample

/-- A device that can only seek. -/
def seekable : File :=
  ⟨some { llseek := some fun offset _ => offset, read := none, write := none, unlockedIoctl := none,
           compatIoctl := none, flush := none }, 0⟩

/-- The environment of call `n`: its request gets memory of its own. -/
def env (n : Nat) : FoEnv :=
  { foEnv with
    addr := if h : isErr (UInt64.ofNat (4096 + 64 * n)) = false then some ⟨_, h⟩ else none
    handler := ⟨.ok seekable, true⟩ }

/-- The request of a process. -/
def message (pid : Int32) (call : FoCall) (seq : UInt32) : NlMessage :=
  let nlh := NlMessage.build 7 call.msgtype.toInt32 NLM_F_REQUEST ((call.request pid 0).wire call.args call.payload)
  { nlh with header := { nlh.header with nlmsgSeq := seq } }

/-- What the server replies. -/
def replyTo (pid : Int32) (call : FoCall) (seq : UInt32) : NlMessage :=
  match foExecute .all ⟨.ok seekable, true⟩ foEnv.fresh ⟨some seekable⟩ (message pid call seq) with
  | .ok result => result.reply.getD (message pid call seq)
  | .error _ => message pid call seq

def initial : State :=
  .initial ((Control.regDummy .all 7).after (.prepare hashMin Kernel.Sample.requests)) served.registry

/-- A call up to its request, its execution, and its way back. -/
def roundTrip (pid : Int32) (n : Nat) (call : FoCall) (sends serves answers : Nat) : List Label :=
  let seq := UInt32.ofNat (n + 1)
  List.replicate sends (.send n (env n)) ++ [.request n (message pid call seq)] ++
    List.replicate serves (.serve n (env n)) ++ [.reply n (replyTo pid call seq)] ++
    List.replicate answers (.answer n (env n))

/-- A process opens the device as call `n`. -/
def opening (pid : Int32) (n serves : Nat) : List Label :=
  .open pid 0 :: roundTrip pid n (.open 0) 10 serves 6 ++ List.replicate 3 (.send n (env n))

end Sample

end Netdev.Kernel.Routing
