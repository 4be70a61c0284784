-- SUMMARY: How far each call of a run is: what one operation of its threads does, and how the calls of one process are related.
import Netdev.Kernel.Routing

/-!
# Routing in every run

The invariant has four parts: how far each call is, what the table of the client
has for the calls under way, what that of the server has, and the logs. What ties
them together is that the calls of one process that are not over belong to one file.
-/

namespace Netdev.Kernel.Routing
open Base Registry

/-! ## One operation -/

/-- What a step of a program is: the thread dies, or an operation returns. -/
inductive Performs (env : FoEnv) (reg : Registry) : FoM Int32 → Option FileEvent → FoM Int32 → Registry → Prop where
  | oops {op : FoOp} {k : op.Res → FoM Int32} {e : Halt} {reg' : Registry} (he : e ≠ .blocked)
      (hcall : Ker.call (op.exec env) reg = (.error e, reg')) : Performs env reg (.call op k) none (.ret (-1)) reg'
  | done {op : FoOp} {k : op.Res → FoM Int32} {r : op.Res} {reg' : Registry}
      (hcall : Ker.call (op.exec env) reg = (.ok r, reg')) :
      Performs env reg (.call op k) (some (op.event r)) (k r) reg'

theorem performs_of_perform {env : FoEnv} {reg reg' : Registry} {prog prog' : FoM Int32} {e : Option FileEvent}
    (h : perform env reg prog = some (e, prog', reg')) : Performs env reg prog e prog' reg' := by
  cases prog with
  | ret a => cases h
  | call op k =>
      cases hcall : Ker.call (op.exec env) reg with
      | mk r reg'' =>
          simp only [perform, hcall] at h
          cases r with
          | ok r =>
              cases h
              exact .done hcall
          | error err =>
              cases err with
              | blocked => cases h
              | deadlock =>
                  cases h
                  exact .oops (by simp) hcall
              | fault =>
                  cases h
                  exact .oops (by simp) hcall

/-- The steps of `fo_send`. -/
inductive OutStep (d : DevId) (pid : Int32) (releases : Bool) : Outbound → FileEvent → Outbound → Prop where
  | start {acc : AccRef} : OutStep d pid releases .opening (.start (some d) pid (some acc)) (.ready acc)
  | noStart : OutStep d pid releases .opening (.start (some d) pid none) .closed
  | sent {acc : AccRef} : OutStep d pid releases (.ready acc) (.send true) (.waiting acc)
  | unsent {acc : AccRef} : OutStep d pid releases (.ready acc) (.send false) (.ready acc)
  | wake {acc : AccRef} : OutStep d pid releases (.waiting acc) .wait (.woken acc)
  | ready {acc : AccRef} : OutStep d pid releases (.ready acc) .other (.ready acc)
  | woken {acc : AccRef} : OutStep d pid releases (.woken acc) .other (.woken acc)
  | destroy {acc : AccRef} {ph : Outbound} (hph : ph = .ready acc ∨ ph = .woken acc) (hrel : releases = true) :
      OutStep d pid releases ph (.destroy acc) .closed

theorem Outbound.after_cases {d : DevId} {pid : Int32} {rel : Bool} {ph : Outbound} {e : FileEvent}
    (h : ph.after d pid rel e ≠ .astray) : OutStep d pid rel ph e (ph.after d pid rel e) := by
  have hdestroy : ∀ {ph : Outbound} {a b : AccRef}, ph = .ready a ∨ ph = .woken a →
      Outbound.afterDestroy rel a b ≠ .astray →
      OutStep d pid rel ph (.destroy b) (Outbound.afterDestroy rel a b) := by
    intro ph a b hph hne
    unfold Outbound.afterDestroy at hne ⊢
    by_cases hrel : rel = true ∧ b = a
    · obtain ⟨hrel', rfl⟩ := hrel
      rw [if_pos ⟨hrel', rfl⟩]
      exact .destroy hph hrel'
    · rw [if_neg hrel] at hne
      exact absurd rfl hne
  cases ph with
  | opening =>
      cases e with
      | start d' pid' acc =>
          simp only [Outbound.after] at h ⊢
          by_cases hstart : d' = some d ∧ pid' = pid
          · obtain ⟨rfl, rfl⟩ := hstart
            rw [if_pos ⟨rfl, rfl⟩]
            cases acc with
            | none => exact .noStart
            | some acc => exact .start
          · rw [if_neg hstart] at h
            exact absurd rfl h
      | _ => exact absurd rfl h
  | ready a =>
      cases e with
      | send sent =>
          cases sent with
          | true => exact .sent
          | false => exact .unsent
      | destroy b => exact hdestroy (.inl rfl) h
      | other => exact .ready
      | _ => exact absurd rfl h
  | waiting a =>
      cases e with
      | wait => exact .wake
      | _ => exact absurd rfl h
  | woken a =>
      cases e with
      | destroy b => exact hdestroy (.inr rfl) h
      | other => exact .woken
      | _ => exact absurd rfl h
  | closed =>
      cases e with
      | _ => exact absurd rfl h
  | astray =>
      cases e with
      | _ => exact absurd rfl h

/-- The steps of `fo_recv`. -/
inductive InStep (dummy : Bool) (d : DevId) (nlh : NlMessage) : Inbound → FileEvent → Inbound → Prop where
  | found {acc : AccRef} : InStep dummy d nlh .lookup (.lookup d (asInt nlh.payload) (some acc)) (.found acc)
  | missed : InStep dummy d nlh .lookup (.lookup d (asInt nlh.payload) none) .missed
  | start {acc : AccRef} (hopen : nlh.msgtype = MSGT_FO_OPEN) :
      InStep dummy d nlh .missed (.start (some d) (asInt nlh.payload) (some acc)) (.found acc)
  | noStart (hopen : nlh.msgtype = MSGT_FO_OPEN) :
      InStep dummy d nlh .missed (.start (some d) (asInt nlh.payload) none) .failed
  | search {acc : AccRef} (hdummy : dummy = true) : InStep dummy d nlh (.found acc) (.search acc) (.found acc)
  | complete {acc : AccRef} (hdummy : dummy = true) : InStep dummy d nlh (.found acc) .complete (.done acc)
  | execute {acc : AccRef} {rvalue : Int32} (hserver : dummy = false) :
      InStep dummy d nlh (.found acc) (.execute acc nlh rvalue) (.done acc)
  | fail {acc : AccRef} (hdummy : dummy = true) (hopen : nlh.msgtype = MSGT_FO_OPEN) :
      InStep dummy d nlh (.found acc) (.destroy acc) .failed
  | release {acc : AccRef} (hserver : dummy = false) (hrel : nlh.msgtype = MSGT_FO_RELEASE) :
      InStep dummy d nlh (.done acc) (.destroy acc) (.gone acc)
  | kind {ph : Inbound} {d' : DevId} {isDummy : Bool} : InStep dummy d nlh ph (.kind d' isDummy) ph
  | other {ph : Inbound} : InStep dummy d nlh ph .other ph

theorem Inbound.after_cases {dummy : Bool} {d : DevId} {nlh : NlMessage} {ph : Inbound} {e : FileEvent}
    (h : ph.after dummy d nlh e ≠ .astray) : InStep dummy d nlh ph e (ph.after dummy d nlh e) := by
  cases e with
  | kind d' isDummy => cases ph <;> exact .kind
  | other => cases ph <;> exact .other
  | lookup d' pid acc =>
      cases ph with
      | lookup =>
          simp only [Inbound.after] at h ⊢
          by_cases hroute : d' = d ∧ pid = asInt nlh.payload
          · obtain ⟨rfl, rfl⟩ := hroute
            rw [if_pos ⟨rfl, rfl⟩]
            cases acc with
            | none => exact .missed
            | some acc => exact .found
          · rw [if_neg hroute] at h
            exact absurd rfl h
      | _ => exact absurd rfl h
  | start d' pid acc =>
      cases ph with
      | missed =>
          simp only [Inbound.after] at h ⊢
          by_cases hroute : d' = some d ∧ pid = asInt nlh.payload ∧ nlh.msgtype = MSGT_FO_OPEN
          · obtain ⟨rfl, rfl, hopen⟩ := hroute
            rw [if_pos ⟨rfl, rfl, hopen⟩]
            cases acc with
            | none => exact .noStart hopen
            | some acc => exact .start hopen
          · rw [if_neg hroute] at h
            exact absurd rfl h
      | _ => exact absurd rfl h
  | search a =>
      cases ph with
      | found b =>
          simp only [Inbound.after] at h ⊢
          by_cases hroute : dummy = true ∧ a = b
          · obtain ⟨hdummy, rfl⟩ := hroute
            rw [if_pos ⟨hdummy, rfl⟩]
            exact .search hdummy
          · rw [if_neg hroute] at h
            exact absurd rfl h
      | _ => exact absurd rfl h
  | complete =>
      cases ph with
      | found b =>
          simp only [Inbound.after] at h ⊢
          by_cases hdummy : dummy = true
          · rw [if_pos hdummy]
            exact .complete hdummy
          · rw [if_neg hdummy] at h
            exact absurd rfl h
      | _ => exact absurd rfl h
  | execute a nlh' rvalue =>
      cases ph with
      | found b =>
          simp only [Inbound.after] at h ⊢
          by_cases hroute : dummy = false ∧ a = b ∧ nlh' = nlh
          · obtain ⟨hserver, rfl, rfl⟩ := hroute
            rw [if_pos ⟨hserver, rfl, rfl⟩]
            exact .execute hserver
          · rw [if_neg hroute] at h
            exact absurd rfl h
      | _ => exact absurd rfl h
  | destroy a =>
      cases ph with
      | found b =>
          simp only [Inbound.after] at h ⊢
          by_cases hroute : dummy = true ∧ nlh.msgtype = MSGT_FO_OPEN ∧ a = b
          · obtain ⟨hdummy, hopen, rfl⟩ := hroute
            rw [if_pos ⟨hdummy, hopen, rfl⟩]
            exact .fail hdummy hopen
          · rw [if_neg hroute] at h
            exact absurd rfl h
      | done b =>
          simp only [Inbound.after] at h ⊢
          by_cases hroute : dummy = false ∧ nlh.msgtype = MSGT_FO_RELEASE ∧ a = b
          · obtain ⟨hserver, hrel, rfl⟩ := hroute
            rw [if_pos ⟨hserver, hrel, rfl⟩]
            exact .release hserver hrel
          · rw [if_neg hroute] at h
            exact absurd rfl h
      | _ => exact absurd rfl h
  | send sent =>
      cases ph with
      | _ => exact absurd rfl h
  | wait =>
      cases ph with
      | _ => exact absurd rfl h

section Steps
variable {d : DevId} {pid : Int32} {rel dummy : Bool} {nlh : NlMessage} {prog prog' : FoM Int32}

theorem OnCourse.ne_astray {ph : Outbound} (h : OnCourse d pid rel prog ph) : ph ≠ .astray := by
  rintro rfl
  cases prog with
  | ret a => exact h
  | call op k => exact h.1 rfl

theorem OnTrack.ne_astray {ph : Inbound} (h : OnTrack dummy d nlh prog ph) : ph ≠ .astray := by
  cases prog with
  | ret a => exact h
  | call op k => exact h.1

variable {env : FoEnv} {reg reg' : Registry} {e : FileEvent} {files : List OpenFile}

/-- An operation of `fo_send`. -/
theorem OnCourse.performs {ph : Outbound} (h : OnCourse d pid rel prog ph)
    (hp : Performs env reg prog (some e) prog' reg') :
    OnCourse d pid rel prog' (ph.after d pid rel e) ∧ OutStep d pid rel ph e (ph.after d pid rel e) := by
  cases hp with
  | @done op k r _ hcall =>
      have hnext : OnCourse d pid rel (k r) (ph.after d pid rel (op.event r)) := h.2 r _ rfl
      exact ⟨hnext, Outbound.after_cases hnext.ne_astray⟩

/-- What an operation does to the open files of a device. -/
theorem Performs.effect (hp : Performs env reg prog (some e) prog' reg') (hl : reg.Lists d dummy files) :
    e.Effect env reg d dummy files reg' := by
  cases hp with
  | done hcall => exact FoOp.effect hl hcall

theorem Performs.sameOpen (hp : Performs env reg prog none prog' reg') : reg.SameOpen reg' := by
  cases hp with
  | oops _ hcall => exact FoOp.error_sameOpen hcall

/-- An operation of `fo_recv`. -/
theorem OnTrack.performs {ph : Inbound} (h : OnTrack dummy d nlh prog ph)
    (hp : Performs env reg prog (some e) prog' reg') (hl : reg.Lists d dummy files) :
    OnTrack dummy d nlh prog' (ph.after dummy d nlh e) ∧ InStep dummy d nlh ph e (ph.after dummy d nlh e) := by
  have heffect := hp.effect hl
  cases hp with
  | @done op k r _ hcall =>
      have hadmits : Admits dummy d (op.event r) := by
        cases hevent : op.event r with
        | kind d' isDummy =>
            rw [hevent] at heffect
            exact heffect.2
        | execute a nlh' rvalue =>
            rw [hevent] at heffect
            exact heffect.1
        | _ => trivial
      have hnext : OnTrack dummy d nlh (k r) (ph.after dummy d nlh (op.event r)) := h.2 r _ ⟨hadmits, rfl⟩
      exact ⟨hnext, Inbound.after_cases hnext.ne_astray⟩

end Steps

/-! ## One call -/

/-- A thread of `fo_recv` for the call. -/
structure Receiver.Sound (dummy : Bool) (d : DevId) (op : Operation) (r : Receiver) : Prop where
  track : OnTrack dummy d r.nlh r.prog r.phase
  msgtype : r.nlh.msgtype = op.call.msgtype.toInt32
  pid : asInt r.nlh.payload = op.pid

structure Operation.Sound (d e : DevId) (op : Operation) : Prop where
  course : OnCourse d op.pid op.releases op.prog op.phase
  acc : ∀ a, op.phase.acc? = some a → op.acc = some a
  nddata : ∀ a, op.acc = some a → a.nddata = d
  opening : op.phase = .opening → op.opens = true ∧ op.acc = none
  unsent : (op.phase = .opening ∨ ∃ a, op.phase = .ready a) → op.sent = none
  sent : ∀ pid, op.sent = some pid → pid = op.pid ∧ ((∃ a, op.phase = .waiting a) ∨ op.completed = true)
  woken : ∀ a, op.phase = .woken a → op.completed = true
  serve : ∀ r, op.serve = some r → r.Sound false e op
  served : ∀ r, op.serve = some r → op.sent ≠ none ∧ ∀ a, r.phase = .gone a → op.releases = true
  answer : ∀ r, op.answer = some r → r.Sound true d op
  answered : ∀ r, op.answer = some r → op.executed = true ∧ r.phase ≠ .missed ∧
    (∀ a, r.phase.acc? = some a → op.acc = some a) ∧ ∀ a, r.phase ≠ .gone a

namespace Operation.Sound
variable {d e : DevId} {op : Operation}

/-- Opens do not release. -/
theorem not_releases (hopens : op.opens = true) : op.releases = false := by
  have hopen : op.call.msgtype = MSGT_FO_OPEN.toInt16 := of_decide_eq_true hopens
  unfold Operation.releases Routing.releases
  rw [hopen]
  decide

/-- A call that returns is in a final phase. -/
theorem final (h : op.Sound d e) {rvalue : Int32} (hresult : result op.prog = some rvalue) :
    op.phase.Final op.releases rvalue := by
  have hcourse := h.course
  cases hprog : op.prog with
  | call o k =>
      rw [hprog] at hresult
      cases hresult
  | ret a =>
      rw [hprog] at hresult hcourse
      obtain rfl := Option.some.inj hresult
      exact hcourse

theorem returned_of_succeeded (hsucceeded : op.succeeded = true) : op.returned = true := by
  unfold Operation.succeeded at hsucceeded
  unfold Operation.returned
  cases hresult : result op.prog with
  | none =>
      rw [hresult] at hsucceeded
      cases hsucceeded
  | some rvalue => rfl

/-- An open that has succeeded was woken. -/
theorem woken_of_succeeded (h : op.Sound d e) (hopens : op.opens = true) (hsucceeded : op.succeeded = true) :
    ∃ a, op.phase = .woken a := by
  unfold Operation.succeeded at hsucceeded
  cases hresult : result op.prog with
  | none =>
      rw [hresult] at hsucceeded
      cases hsucceeded
  | some rvalue =>
      rw [hresult] at hsucceeded
      have hle : 0 ≤ rvalue := of_decide_eq_true hsucceeded
      have hnot : ¬ rvalue < 0 := Int32.not_lt.mpr hle
      have hfinal := h.final hresult
      cases hphase : op.phase with
      | woken a => exact ⟨a, rfl⟩
      | ready a =>
          rw [hphase] at hfinal
          exact absurd hfinal hnot
      | closed =>
          rw [hphase, not_releases hopens] at hfinal
          rcases hfinal with hrel | hneg
          · cases hrel
          · exact absurd hneg hnot
      | opening =>
          rw [hphase] at hfinal
          exact absurd hfinal hnot
      | waiting a =>
          rw [hphase] at hfinal
          exact hfinal.elim
      | astray =>
          rw [hphase] at hfinal
          exact hfinal.elim

theorem completed_of_succeeded (h : op.Sound d e) (hopens : op.opens = true) (hsucceeded : op.succeeded = true) :
    op.completed = true := by
  obtain ⟨a, hwoken⟩ := h.woken_of_succeeded hopens hsucceeded
  exact h.woken a hwoken

/-- A call that was sent and not completed waits. -/
theorem waiting (h : op.Sound d e) (hsent : op.sent ≠ none) (hcompleted : op.completed = false) :
    (∃ a, op.phase = .waiting a) ∧ op.returned = false := by
  obtain ⟨pid, hpid⟩ := Option.ne_none_iff_exists'.mp hsent
  rcases (h.sent pid hpid).2 with ⟨a, hwaiting⟩ | hdone
  · refine ⟨⟨a, hwaiting⟩, ?_⟩
    cases hresult : result op.prog with
    | none =>
        unfold Operation.returned
        rw [hresult]
        rfl
    | some rvalue =>
        have hfinal := h.final hresult
        rw [hwaiting] at hfinal
        exact hfinal.elim
  · exact absurd hdone (by rw [hcompleted]; simp)

theorem executed_of_completed (h : op.Sound d e) (hcompleted : op.completed = true) : op.executed = true := by
  obtain ⟨r, hr, -⟩ := (Option.any_eq_true _ _).mp hcompleted
  exact (h.answered r hr).1

/-- A call whose request the server has not executed has not returned. -/
theorem not_returned (h : op.Sound d e) {r : Receiver} (hserve : op.serve = some r)
    (hexecuted : r.phase.executed = false) : op.executed = false ∧ op.returned = false := by
  have hnot : op.executed = false := by
    unfold Operation.executed
    rw [hserve]
    exact hexecuted
  have hcompleted : op.completed = false := by
    cases hc : op.completed with
    | false => rfl
    | true => exact absurd (h.executed_of_completed hc) (by rw [hnot]; simp)
  exact ⟨hnot, (h.waiting (h.served r hserve).1 hcompleted).2⟩

/-- The server's file of an open that it has executed. -/
theorem done_of_executed (h : op.Sound d e) (hopens : op.opens = true) (hexecuted : op.executed = true) :
    ∃ r a, op.serve = some r ∧ r.phase = .done a := by
  obtain ⟨r, hr, hphase⟩ := (Option.any_eq_true _ _).mp hexecuted
  cases hp : r.phase with
  | done a => exact ⟨r, a, hr, hp⟩
  | gone a =>
      have hrel := (h.served r hr).2 a hp
      rw [not_releases hopens] at hrel
      cases hrel
  | _ =>
      rw [hp] at hphase
      cases hphase

theorem ended_eq_false (hreturned : op.returned = false) : op.ended = false := by
  unfold Operation.ended
  rw [hreturned]
  rfl

/-- A thread of the server that still runs. -/
theorem ended_eq_false_of_serve (h : op.Sound d e) {r : Receiver} (hserve : op.serve = some r)
    (hreturned : r.returned = false) : op.ended = false := by
  have hsent : op.sent.isNone = false := by
    cases hs : op.sent with
    | none => exact absurd hs (h.served r hserve).1
    | some pid => rfl
  unfold Operation.ended
  rw [hsent, hserve, Option.any_some, hreturned]
  simp

/-- A thread of the client that still runs. -/
theorem ended_eq_false_of_answer (h : op.Sound d e) {r : Receiver} (hanswer : op.answer = some r)
    (hreturned : r.returned = false) : op.ended = false := by
  unfold Operation.ended
  rw [hanswer, Option.any_some, hreturned, (h.answered r hanswer).1]
  simp

/-- A reply that is not looked up yet, or whose request is not completed. -/
theorem pending (h : op.Sound d e) {r : Receiver} (hanswer : op.answer = some r)
    (hphase : r.phase.executed = false) : op.completed = false ∧ op.returned = false ∧
      ∃ a, op.phase = .waiting a := by
  have hcompleted : op.completed = false := by
    unfold Operation.completed
    rw [hanswer]
    exact hphase
  have hsent : op.sent ≠ none := by
    obtain ⟨r', hr', -⟩ := (Option.any_eq_true _ _).mp (h.answered r hanswer).1
    exact (h.served r' hr').1
  obtain ⟨hwaiting, hreturned⟩ := h.waiting hsent hcompleted
  exact ⟨hcompleted, hreturned, hwaiting⟩

/-- The phase of a request that is not sent: nothing of the call is on its way. -/
theorem unanswered (h : op.Sound d e) (hsent : op.sent = none) : op.serve = none ∧ op.answer = none := by
  have hserve : op.serve = none := by
    cases hs : op.serve with
    | none => rfl
    | some r => exact absurd hsent (h.served r hs).1
  refine ⟨hserve, ?_⟩
  cases ha : op.answer with
  | none => rfl
  | some r =>
      have hexecuted := (h.answered r ha).1
      unfold Operation.executed at hexecuted
      rw [hserve] at hexecuted
      cases hexecuted

/-- What an operation of `fo_send` has to keep. -/
theorem change (h : op.Sound d e) {prog : FoM Int32} {ph : Outbound} {acc : Option AccRef} {sent : Option Int32}
    (hcourse : OnCourse d op.pid op.releases prog ph) (hacc : ∀ a, ph.acc? = some a → acc = some a)
    (hnddata : ∀ a, acc = some a → a.nddata = d) (hopening : ph ≠ .opening)
    (hunsent : (∃ a, ph = .ready a) → sent = none)
    (hsent : ∀ pid, sent = some pid → pid = op.pid ∧ ((∃ a, ph = .waiting a) ∨ op.completed = true))
    (hwoken : ∀ a, ph = .woken a → op.completed = true) (hkept : ∀ a, op.acc = some a → acc = some a)
    (hstays : op.sent ≠ none → sent ≠ none) :
    ({ op with prog, phase := ph, acc, sent } : Operation).Sound d e where
  course := hcourse
  acc := hacc
  nddata := hnddata
  opening hph := absurd hph hopening
  unsent hph := hunsent (hph.resolve_left hopening)
  sent := hsent
  woken := hwoken
  serve r hr := ⟨(h.serve r hr).track, (h.serve r hr).msgtype, (h.serve r hr).pid⟩
  served r hr := ⟨hstays (h.served r hr).1, (h.served r hr).2⟩
  answer r hr := ⟨(h.answer r hr).track, (h.answer r hr).msgtype, (h.answer r hr).pid⟩
  answered r hr := by
    obtain ⟨hexecuted, hmissed, hfound, hgone⟩ := h.answered r hr
    exact ⟨hexecuted, hmissed, fun a ha => hkept a (hfound a ha), hgone⟩

/-- A step of `fo_send` that leaves file and request. -/
theorem change_phase (h : op.Sound d e) {prog : FoM Int32} {ph : Outbound}
    (hcourse : OnCourse d op.pid op.releases prog ph) (hacc : ∀ a, ph.acc? = some a → op.acc = some a)
    (hopening : ph ≠ .opening) (hunsent : (∃ a, ph = .ready a) → op.sent = none)
    (hsent : op.sent ≠ none → (∃ a, ph = .waiting a) ∨ op.completed = true)
    (hwoken : ∀ a, ph = .woken a → op.completed = true) :
    ({ op with prog, phase := ph } : Operation).Sound d e := by
  refine h.change hcourse hacc h.nddata hopening hunsent (fun pid hpid => ?_) hwoken (fun _ ha => ha) id
  exact ⟨(h.sent pid hpid).1, hsent (by simp [hpid])⟩

/-- An operation of `fo_send`. Before the request, the access id is read from the file of
the call; a call that waits goes on when its request is completed. -/
theorem goOn (h : op.Sound d e) {env : FoEnv} {reg reg' : Registry} {event : FileEvent} {prog' : FoM Int32}
    {files : List OpenFile} {accessId : Option Int32} (hp : Performs env reg op.prog (some event) prog' reg')
    (hl : reg.Lists d true files) (hid : ∀ a, op.phase = .ready a → accessId = some op.pid)
    (hawake : ∀ a, op.phase = .waiting a → op.completed = true) :
    (op.goOn d accessId (some event) prog').Sound d e ∧
      OutStep d op.pid op.releases op.phase event (op.phase.after d op.pid op.releases event) := by
  obtain ⟨hcourse, hstep⟩ := h.course.performs hp
  have heffect := hp.effect hl
  refine ⟨?_, hstep⟩
  change Operation.Sound d e { op with
    prog := prog'
    phase := op.phase.after d op.pid op.releases event
    acc := accAfter op.acc event
    sent := sentAfter accessId op.sent event }
  generalize op.phase.after d op.pid op.releases event = ph' at hcourse hstep ⊢
  generalize hphase : op.phase = ph at hstep
  cases hstep with
  | @start a =>
      obtain ⟨-, hacc⟩ := h.opening hphase
      have hsent := h.unsent (.inl hphase)
      have hnew : a.nddata = d := by rw [(heffect rfl).1]
      refine h.change hcourse (fun _ hb => hb) (fun b hb => ?_) (by simp) (fun _ => hsent)
        (fun pid hpid => nomatch hsent.symm.trans hpid) (by simp) (fun b hb => nomatch hacc.symm.trans hb) id
      obtain rfl := Option.some.inj hb
      exact hnew
  | noStart =>
      have hsent := h.unsent (.inl hphase)
      exact h.change_phase hcourse (fun _ hb => nomatch hb) (by simp) (fun _ => hsent) (absurd hsent) (by simp)
  | @sent a =>
      have hacc := h.acc a (by rw [hphase]; rfl)
      refine h.change hcourse (fun _ hb => hacc.trans hb) h.nddata (by simp) (by simp) (fun pid hpid => ?_) (by simp)
        (fun _ hb => hb) (fun _ => ?_)
      · exact ⟨(Option.some.inj ((hid a hphase).symm.trans hpid)).symm, .inl ⟨a, rfl⟩⟩
      · change accessId ≠ none
        rw [hid a hphase]
        simp
  | @unsent a =>
      have hacc := h.acc a (by rw [hphase]; rfl)
      have hsent := h.unsent (.inr ⟨a, hphase⟩)
      exact h.change_phase hcourse (fun _ hb => hacc.trans hb) (by simp) (fun _ => hsent) (absurd hsent) (by simp)
  | @wake a =>
      have hacc := h.acc a (by rw [hphase]; rfl)
      have hdone := hawake a hphase
      exact h.change_phase hcourse (fun _ hb => hacc.trans hb) (by simp) (by simp) (fun _ => .inr hdone)
        fun _ _ => hdone
  | @ready a =>
      have hacc := h.acc a (by rw [hphase]; rfl)
      have hsent := h.unsent (.inr ⟨a, hphase⟩)
      exact h.change_phase hcourse (fun _ hb => hacc.trans hb) (by simp) (fun _ => hsent) (absurd hsent) (by simp)
  | @woken a =>
      have hacc := h.acc a (by rw [hphase]; rfl)
      have hdone := h.woken a hphase
      exact h.change_phase hcourse (fun _ hb => hacc.trans hb) (by simp) (by simp) (fun _ => .inr hdone)
        fun _ _ => hdone
  | @destroy a _ hph hrel =>
      refine h.change_phase hcourse (fun _ hb => nomatch hb) (by simp) (by simp) (fun hsent => ?_) (by simp)
      rcases hph with rfl | rfl
      · exact absurd (h.unsent (.inr ⟨a, hphase⟩)) hsent
      · exact .inr (h.woken a hphase)

/-- A call that is waiting does nothing else. -/
theorem wait_of_waiting (h : op.Sound d e) {a : AccRef} (hphase : op.phase = .waiting a) {o : FoOp}
    {k : o.Res → FoM Int32} (hprog : op.prog = .call o k) : ∃ req, o = .wait req := by
  have hcourse := h.course
  rw [hprog, hphase] at hcourse
  have hnext : ∀ r, (Outbound.waiting a).after d op.pid op.releases (o.event r) ≠ .astray :=
    fun r => OnCourse.ne_astray (hcourse.2 r _ rfl)
  cases o with
  | wait req => exact ⟨req, rfl⟩
  | _ => exact absurd rfl (hnext default)

/-- The thread of a call that waits does not die. -/
theorem not_waiting_of_oops (h : op.Sound d e) {env : FoEnv} {reg reg' : Registry} {prog' : FoM Int32}
    (hp : Performs env reg op.prog none prog' reg') (a : AccRef) : op.phase ≠ .waiting a := by
  intro hphase
  cases hprog : op.prog with
  | ret v =>
      rw [hprog] at hp
      cases hp
  | call o k =>
      obtain ⟨req, rfl⟩ := h.wait_of_waiting hphase hprog
      rw [hprog] at hp
      cases hp with
      | oops he hcall =>
          have hwait : ∀ err, (Ker.call ((FoOp.wait req).exec env) reg).1 = .error err → err = .blocked := by
            intro err herr
            have hwp : Exec.wp ((FoOp.wait req).exec env) (fun r _ => ∀ err, r = .error err → err = .blocked)
                ⟨reg, []⟩ := by
              refine Ker.wp_registry (Exec.wp_ite (fun _ err herr => ?_) (fun _ err herr => nomatch herr))
              exact (Except.error.inj herr).symm
            exact hwp err herr
          exact he (hwait _ (congrArg Prod.fst hcall))

/-- `fo_send` dies. -/
theorem stop (h : op.Sound d e) {env : FoEnv} {reg reg' : Registry} {prog' : FoM Int32} {accessId : Option Int32}
    (hp : Performs env reg op.prog none prog' reg') : (op.goOn d accessId none (.ret (-1))).Sound d e where
  course := by
    change op.phase.Final op.releases (-1)
    cases hphase : op.phase with
    | opening => exact (by decide : (-1 : Int32) < 0)
    | ready a => exact (by decide : (-1 : Int32) < 0)
    | waiting a => exact absurd hphase (h.not_waiting_of_oops hp a)
    | woken a => exact trivial
    | closed => exact .inr (by decide)
    | astray => exact absurd hphase h.course.ne_astray
  acc := h.acc
  nddata := h.nddata
  opening := h.opening
  unsent := h.unsent
  sent := h.sent
  woken := h.woken
  serve r hr := ⟨(h.serve r hr).track, (h.serve r hr).msgtype, (h.serve r hr).pid⟩
  served := h.served
  answer r hr := ⟨(h.answer r hr).track, (h.answer r hr).msgtype, (h.answer r hr).pid⟩
  answered := h.answered

end Operation.Sound

/-! ## One thread of a call -/

/-- An operation that was executed or completed stays so. -/
theorem InStep.executed {dummy : Bool} {d : DevId} {nlh : NlMessage} {event : FileEvent} {ph ph' : Inbound}
    (h : InStep dummy d nlh ph event ph') (hexecuted : ph.executed = true) : ph'.executed = true := by
  cases h with
  | kind => exact hexecuted
  | other => exact hexecuted
  | release => rfl
  | _ => cases hexecuted

namespace Receiver.Sound
variable {d : DevId} {dummy : Bool} {op : Operation} {r : Receiver} {env : FoEnv} {reg reg' : Registry}
  {event : FileEvent} {prog' : FoM Int32} {files : List OpenFile}

theorem goOn (h : r.Sound dummy d op) (hp : Performs env reg r.prog (some event) prog' reg')
    (hl : reg.Lists d dummy files) : (r.goOn dummy d (some event) prog').Sound dummy d op ∧
      InStep dummy d r.nlh r.phase event (r.goOn dummy d (some event) prog').phase := by
  obtain ⟨htrack, hstep⟩ := h.track.performs hp hl
  exact ⟨⟨htrack, h.msgtype, h.pid⟩, hstep⟩

theorem stop (h : r.Sound dummy d op) : (r.goOn dummy d none (.ret (-1))).Sound dummy d op :=
  ⟨h.track.ne_astray, h.msgtype, h.pid⟩

/-- The type of the message is that of the call. -/
theorem msgtype_iff (h : r.Sound dummy d op) {msgtype : Int32} (hshort : msgtype.toInt16.toInt32 = msgtype) :
    r.nlh.msgtype = msgtype ↔ op.call.msgtype = msgtype.toInt16 := by
  rw [h.msgtype]
  constructor
  · intro heq
    rw [← heq, Int16.toInt16_toInt32]
  · intro heq
    rw [heq, hshort]

theorem opens_iff (h : r.Sound dummy d op) : r.nlh.msgtype = MSGT_FO_OPEN ↔ op.opens = true := by
  rw [h.msgtype_iff (by decide), Operation.opens, decide_eq_true_iff]

theorem releases_iff (h : r.Sound dummy d op) : r.nlh.msgtype = MSGT_FO_RELEASE ↔ op.releases = true := by
  rw [h.msgtype_iff (by decide), Operation.releases, Routing.releases, decide_eq_true_iff]

end Receiver.Sound

namespace Operation.Sound
variable {d e : DevId} {op : Operation} {r r' : Receiver} {nlh : NlMessage}

/-- A step of the thread of the server. -/
theorem serve_step (h : op.Sound d e) (hserve : op.serve = some r) (hr : r'.Sound false e op)
    (hexecuted : r.phase.executed = true → r'.phase.executed = true)
    (hgone : ∀ a, r'.phase = .gone a → op.releases = true) :
    ({ op with serve := some r' } : Operation).Sound d e where
  course := h.course
  acc := h.acc
  nddata := h.nddata
  opening := h.opening
  unsent := h.unsent
  sent := h.sent
  woken := h.woken
  serve x hx := by
    obtain rfl := Option.some.inj hx
    exact ⟨hr.track, hr.msgtype, hr.pid⟩
  served x hx := by
    obtain rfl := Option.some.inj hx
    exact ⟨(h.served r hserve).1, hgone⟩
  answer x hx := ⟨(h.answer x hx).track, (h.answer x hx).msgtype, (h.answer x hx).pid⟩
  answered x hx := by
    obtain ⟨hdone, hrest⟩ := h.answered x hx
    refine ⟨?_, hrest⟩
    unfold Operation.executed at hdone ⊢
    rw [hserve, Option.any_some] at hdone
    exact hexecuted hdone

/-- The thread of the server goes on. -/
theorem serve_goOn (h : op.Sound d e) (hserve : op.serve = some r) {env : FoEnv} {reg reg' : Registry}
    {event : FileEvent} {prog' : FoM Int32} {files : List OpenFile}
    (hp : Performs env reg r.prog (some event) prog' reg') (hl : reg.Lists e false files) :
    ({ op with serve := some (r.goOn false e (some event) prog') } : Operation).Sound d e ∧
      InStep false e r.nlh r.phase event (r.goOn false e (some event) prog').phase := by
  obtain ⟨hr, hstep⟩ := (h.serve r hserve).goOn hp hl
  refine ⟨h.serve_step hserve hr hstep.executed fun a ha => ?_, hstep⟩
  rw [ha] at hstep
  generalize hphase : r.phase = ph at hstep
  cases hstep with
  | release _ hrel => exact (h.serve r hserve).releases_iff.mp hrel
  | kind => exact (h.served r hserve).2 a hphase
  | other => exact (h.served r hserve).2 a hphase

theorem serve_stop (h : op.Sound d e) (hserve : op.serve = some r) :
    ({ op with serve := some (r.goOn false e none (.ret (-1))) } : Operation).Sound d e :=
  h.serve_step hserve (h.serve r hserve).stop id (h.served r hserve).2

/-- A step of the thread of the client. -/
theorem answer_step (h : op.Sound d e) (hanswer : op.answer = some r) (hr : r'.Sound true d op)
    (hcompleted : r.phase.executed = true → r'.phase.executed = true) (hmissed : r'.phase ≠ .missed)
    (hacc : ∀ a, r'.phase.acc? = some a → op.acc = some a) (hgone : ∀ a, r'.phase ≠ .gone a) :
    ({ op with answer := some r' } : Operation).Sound d e := by
  have hdone : op.completed = true → ({ op with answer := some r' } : Operation).completed = true := by
    intro hc
    unfold Operation.completed at hc ⊢
    rw [hanswer, Option.any_some] at hc
    exact hcompleted hc
  exact {
    course := h.course
    acc := h.acc
    nddata := h.nddata
    opening := h.opening
    unsent := h.unsent
    sent := fun pid hpid => ⟨(h.sent pid hpid).1, (h.sent pid hpid).2.imp_right hdone⟩
    woken := fun a ha => hdone (h.woken a ha)
    serve := fun x hx => ⟨(h.serve x hx).track, (h.serve x hx).msgtype, (h.serve x hx).pid⟩
    served := h.served
    answer := fun x hx => by
      obtain rfl := Option.some.inj hx
      exact ⟨hr.track, hr.msgtype, hr.pid⟩
    answered := fun x hx => by
      obtain rfl := Option.some.inj hx
      exact ⟨(h.answered r hanswer).1, hmissed, hacc, hgone⟩ }

/-- The thread of the client goes on, when it finds the file of the call. -/
theorem answer_goOn (h : op.Sound d e) (hanswer : op.answer = some r) {env : FoEnv} {reg reg' : Registry}
    {event : FileEvent} {prog' : FoM Int32} {files : List OpenFile}
    (hp : Performs env reg r.prog (some event) prog' reg') (hl : reg.Lists d true files)
    (hfound : ∀ d' pid acc, event = .lookup d' pid acc → acc ≠ none ∧ op.acc = acc) :
    ({ op with answer := some (r.goOn true d (some event) prog') } : Operation).Sound d e ∧
      InStep true d r.nlh r.phase event (r.goOn true d (some event) prog').phase := by
  obtain ⟨hr, hstep⟩ := (h.answer r hanswer).goOn hp hl
  obtain ⟨-, hmissed, hacc, hgone⟩ := h.answered r hanswer
  have hnext := hstep
  refine ⟨h.answer_step hanswer hr hstep.executed (fun heq => ?_) (fun a ha => ?_) fun a heq => ?_, hstep⟩
  · rw [heq] at hnext
    generalize hphase : r.phase = ph at hnext
    cases hnext with
    | missed => exact (hfound _ _ _ rfl).1 rfl
    | kind => exact hmissed hphase
    | other => exact hmissed hphase
  · generalize (r.goOn true d (some event) prog').phase = ph' at hnext ha
    generalize hphase : r.phase = ph at hnext
    cases hnext with
    | found => exact (hfound _ _ _ rfl).2.trans ha
    | missed => cases ha
    | start _ => exact absurd hphase hmissed
    | noStart _ => cases ha
    | search _ => exact hacc a (by rw [hphase]; exact ha)
    | complete _ => exact hacc a (by rw [hphase]; exact ha)
    | execute hserver => cases hserver
    | fail _ _ => cases ha
    | release hserver _ => cases hserver
    | kind => exact hacc a (by rw [hphase]; exact ha)
    | other => exact hacc a (by rw [hphase]; exact ha)
  · rw [heq] at hnext
    generalize hphase : r.phase = ph at hnext
    cases hnext with
    | release hserver _ => cases hserver
    | kind => exact hgone a hphase
    | other => exact hgone a hphase

theorem answer_stop (h : op.Sound d e) (hanswer : op.answer = some r) :
    ({ op with answer := some (r.goOn true d none (.ret (-1))) } : Operation).Sound d e := by
  obtain ⟨-, hmissed, hacc, hgone⟩ := h.answered r hanswer
  exact h.answer_step hanswer (h.answer r hanswer).stop id hmissed hacc hgone

/-- The request comes to the server. -/
theorem request (h : op.Sound d e) (hserve : op.serve = none) (hsent : op.sent = some (asInt nlh.payload))
    (hmsgtype : nlh.msgtype = op.call.msgtype.toInt32) :
    ({ op with serve := some ⟨nlh, foRecvDev e nlh, .lookup⟩ } : Operation).Sound d e where
  course := h.course
  acc := h.acc
  nddata := h.nddata
  opening := h.opening
  unsent := h.unsent
  sent := h.sent
  woken := h.woken
  serve x hx := by
    obtain rfl := Option.some.inj hx
    exact ⟨foRecvDev_onTrack, hmsgtype, (h.sent _ hsent).1⟩
  served x hx := by
    obtain rfl := Option.some.inj hx
    exact ⟨by simp [hsent], fun _ ha => nomatch ha⟩
  answer x hx := ⟨(h.answer x hx).track, (h.answer x hx).msgtype, (h.answer x hx).pid⟩
  answered x hx := by
    have hexecuted := (h.answered x hx).1
    unfold Operation.executed at hexecuted
    rw [hserve] at hexecuted
    cases hexecuted

/-- The reply comes to the client. -/
theorem reply (h : op.Sound d e) (hserve : op.serve = some r) (hanswer : op.answer = none)
    (hexecuted : r.phase.executed = true) (hroute : SameRoute r.nlh nlh) :
    ({ op with answer := some ⟨nlh, foRecvDev d nlh, .lookup⟩ } : Operation).Sound d e := by
  have hnot : op.completed ≠ true := by
    unfold Operation.completed
    rw [hanswer]
    simp
  exact {
    course := h.course
    acc := h.acc
    nddata := h.nddata
    opening := h.opening
    unsent := h.unsent
    sent := fun pid hpid => ⟨(h.sent pid hpid).1, .inl ((h.sent pid hpid).2.resolve_right hnot)⟩
    woken := fun a ha => absurd (h.woken a ha) hnot
    serve := fun x hx => ⟨(h.serve x hx).track, (h.serve x hx).msgtype, (h.serve x hx).pid⟩
    served := h.served
    answer := fun x hx => by
      obtain rfl := Option.some.inj hx
      have hr := h.serve r hserve
      exact ⟨foRecvDev_onTrack, hroute.1.trans hr.msgtype, hroute.2.trans hr.pid⟩
    answered := fun x hx => by
      obtain rfl := Option.some.inj hx
      refine ⟨?_, by simp, fun a ha => (nomatch ha), by simp⟩
      unfold Operation.executed
      rw [hserve]
      exact hexecuted }

end Operation.Sound

/-- The thread of the client has destroyed the file of a failed open. -/
def Operation.destroyed (op : Operation) : Bool := op.answer.any fun r => decide (r.phase = .failed)

theorem Operation.not_destroyed {op : Operation} (h : op.completed = true) : op.destroyed = false := by
  obtain ⟨r, hr, hphase⟩ := (Option.any_eq_true _ _).mp h
  unfold Operation.destroyed
  rw [hr, Option.any_some]
  cases hp : r.phase with
  | failed =>
      rw [hp] at hphase
      cases hphase
  | _ => rfl

/-! ## All calls -/

/-- The call is not over, or its file is open. -/
def State.Busy (s : State) (n : Nat) : Prop := (s.ops n).ended = false ∨ s.fileOpen n

/-- The calls of a file come after its open, and the release comes last. The busy calls of a
process belong to one file. -/
structure Inv (d e : DevId) (s : State) : Prop where
  inert : ∀ n, s.next ≤ n → s.ops n = .inert
  sound : ∀ n, (s.ops n).Sound d e
  opens : ∀ n < s.next, (s.ops n).opens = true → (s.ops n).opener = n
  opener : ∀ n < s.next, (s.ops n).opens = false → (s.ops n).opener < s.next ∧
    (s.ops (s.ops n).opener).opens = true ∧ (s.ops (s.ops n).opener).succeeded = true ∧
    (s.ops (s.ops n).opener).pid = (s.ops n).pid ∧
    ∃ a, (s.ops n).acc = some a ∧ (s.ops (s.ops n).opener).acc = some a
  released : ∀ r < s.next, (s.ops r).releases = true → ∀ n < s.next, n ≠ r →
    (s.ops n).opener = (s.ops r).opener → (s.ops n).returned = true
  alone : ∀ n < s.next, ∀ n' < s.next, (s.ops n).pid = (s.ops n').pid → s.Busy n → s.Busy n' →
    (s.ops n).opener = (s.ops n').opener

section Shape
variable {d e : DevId} {s s' : State} {n m : Nat} {op : Operation}

theorem Inv.lt (h : Inv d e s) (hne : s.ops n ≠ .inert) : n < s.next := by
  by_contra hlt
  exact hne (h.inert n (Nat.le_of_not_lt hlt))

/-- An open file is one of a call that has succeeded. -/
theorem Inv.fileOpen_lt (h : Inv d e s) (hopen : s.fileOpen m) : m < s.next := by
  refine h.lt fun hinert => ?_
  have hopens := hopen.1
  rw [hinert] at hopens
  exact absurd hopens (by decide)

/-- The only busy call of the process of an open that is not over is this open. -/
theorem Inv.eq_of_busy (h : Inv d e s) (hn : n < s.next) (hopens : (s.ops n).opens = true)
    (hended : (s.ops n).ended = false) (hsucceeded : (s.ops n).succeeded = false) (hm : m < s.next)
    (hpid : (s.ops m).pid = (s.ops n).pid) (hbusy : s.Busy m) : m = n := by
  have hsame := h.alone m hm n hn hpid hbusy (.inl hended)
  rw [h.opens n hn hopens] at hsame
  cases hm' : (s.ops m).opens with
  | true =>
      rw [h.opens m hm hm'] at hsame
      exact hsame
  | false =>
      have hold := (h.opener m hm hm').2.2.1
      rw [hsame, hsucceeded] at hold
      cases hold

/-- A step of a call: what was known of it is still so. -/
structure Operation.Grows (op op' : Operation) : Prop where
  call : op'.call = op.call
  pid : op'.pid = op.pid
  opener : op'.opener = op.opener
  acc : ∀ a, op.acc = some a → op'.acc = some a
  succeeded : op.succeeded = true → op'.succeeded = true
  returned : op.returned = true → op'.returned = true

theorem Operation.Grows.refl (op : Operation) : op.Grows op := ⟨rfl, rfl, rfl, fun _ h => h, id, id⟩

/-- A step of one of the other threads. -/
theorem Operation.Grows.serve (op : Operation) (r : Option Receiver) : op.Grows { op with serve := r } :=
  ⟨rfl, rfl, rfl, fun _ h => h, id, id⟩

theorem Operation.Grows.answer (op : Operation) (r : Option Receiver) : op.Grows { op with answer := r } :=
  ⟨rfl, rfl, rfl, fun _ h => h, id, id⟩

theorem Operation.Grows.opens {op op' : Operation} (h : op.Grows op') : op'.opens = op.opens := by
  unfold Operation.opens
  rw [h.call]

theorem Operation.Grows.releases {op op' : Operation} (h : op.Grows op') : op'.releases = op.releases := by
  unfold Operation.releases
  rw [h.call]

/-- A program that takes a step has not returned. -/
theorem Performs.result_eq_none {env : FoEnv} {reg reg' : Registry} {prog prog' : FoM Int32}
    {event : Option FileEvent} (hp : Performs env reg prog event prog' reg') : result prog = none := by
  cases hp with
  | oops _ _ => rfl
  | done _ => rfl

/-- A thread that takes a step. -/
theorem Performs.thread {env : FoEnv} {reg reg' : Registry} {r : Receiver} {prog' : FoM Int32}
    {event : Option FileEvent} (hp : Performs env reg r.prog event prog' reg') : r.returned = false := by
  rw [Receiver.returned, hp.result_eq_none]
  rfl

theorem Performs.oops_eq {env : FoEnv} {reg reg' : Registry} {prog prog' : FoM Int32}
    (hp : Performs env reg prog none prog' reg') : prog' = .ret (-1) := by
  cases hp with
  | oops _ _ => rfl

theorem Performs.not_returned {env : FoEnv} {reg reg' : Registry} {prog' : FoM Int32} {event : Option FileEvent}
    (hp : Performs env reg op.prog event prog' reg') : op.returned = false := by
  unfold Operation.returned
  rw [hp.result_eq_none]
  rfl

theorem Operation.not_succeeded (h : op.returned = false) : op.succeeded = false := by
  cases hs : op.succeeded with
  | false => rfl
  | true =>
      have hr := Operation.Sound.returned_of_succeeded hs
      rw [h] at hr
      cases hr

/-- A step of `fo_send`. -/
theorem Operation.Sound.grows (h : op.Sound d e) {env : FoEnv} {reg reg' : Registry} {prog' : FoM Int32}
    {event : Option FileEvent} {accessId : Option Int32} (hp : Performs env reg op.prog event prog' reg') :
    op.Grows (op.goOn d accessId event prog') := by
  have hreturned : op.returned ≠ true := by simp [hp.not_returned]
  have hsucceeded : op.succeeded ≠ true := by simp [Operation.not_succeeded hp.not_returned]
  cases event with
  | none => exact ⟨rfl, rfl, rfl, fun _ ha => ha, fun hs => absurd hs hsucceeded, fun hr => absurd hr hreturned⟩
  | some event =>
      refine ⟨rfl, rfl, rfl, fun a ha => ?_, fun hs => absurd hs hsucceeded, fun hr => absurd hr hreturned⟩
      obtain ⟨-, hstep⟩ := h.course.performs hp
      generalize op.phase.after d op.pid op.releases event = ph' at hstep
      generalize hphase : op.phase = ph at hstep
      cases hstep with
      | start => exact absurd ((h.opening hphase).2.symm.trans ha) (by simp)
      | _ => exact ha

/-- A step of the call `n`, which is not over. -/
structure Moves (s s' : State) (n : Nat) : Prop where
  lt : n < s.next
  ended : (s.ops n).ended = false
  next : s'.next = s.next
  others : ∀ k, k ≠ n → s'.ops k = s.ops k
  grows : (s.ops n).Grows (s'.ops n)

namespace Moves
variable {k : Nat}

theorem of_update (hlt : n < s.next) (hended : (s.ops n).ended = false) (hgrows : (s.ops n).Grows op)
    (hnext : s'.next = s.next) (hops : s'.ops = Function.update s.ops n op) : Moves s s' n := by
  refine ⟨hlt, hended, hnext, fun k hk => ?_, ?_⟩
  · rw [hops, Function.update_of_ne hk]
  · rw [hops, Function.update_self]
    exact hgrows

theorem all (h : Moves s s' n) (k : Nat) : (s.ops k).Grows (s'.ops k) := by
  by_cases hk : k = n
  · rw [hk]
    exact h.grows
  · rw [h.others k hk]
    exact .refl _

/-- A file that is open after the step was open before, if its open had succeeded. -/
theorem fileOpen (h : Moves s s' n) (hopen : s'.fileOpen m)
    (hsucceeded : (s'.ops m).succeeded = true → (s.ops m).succeeded = true) : s.fileOpen m := by
  refine ⟨(h.all m).opens ▸ hopen.1, hsucceeded hopen.2.1, fun k hk hopener => ?_⟩
  rw [← (h.all k).releases]
  exact hopen.2.2 k (h.next ▸ hk) ((h.all k).opener.trans hopener)

theorem fileOpen_of_ne (h : Moves s s' n) (hopen : s'.fileOpen m) (hne : m ≠ n) : s.fileOpen m :=
  h.fileOpen hopen (by rw [h.others m hne]; exact id)

theorem busy (h : Moves s s' n) (hbusy : s'.Busy k) : s.Busy k := by
  by_cases hk : k = n
  · rw [hk]
    exact .inl h.ended
  · rcases hbusy with hended | hopen
    · rw [h.others k hk] at hended
      exact .inl hended
    · exact .inr (h.fileOpen_of_ne hopen hk)

/-- What is known of all calls is still so. -/
theorem inv (h : Moves s s' n) (hinv : Inv d e s) (hsound : (s'.ops n).Sound d e) : Inv d e s' where
  inert k hk := by
    have hk' : s.next ≤ k := h.next ▸ hk
    have hne : k ≠ n := fun heq => absurd h.lt (Nat.not_lt.mpr (heq ▸ hk'))
    rw [h.others k hne]
    exact hinv.inert k hk'
  sound k := by
    by_cases hk : k = n
    · rw [hk]
      exact hsound
    · rw [h.others k hk]
      exact hinv.sound k
  opens k hk hopens := by
    rw [(h.all k).opener]
    exact hinv.opens k (h.next ▸ hk) ((h.all k).opens ▸ hopens)
  opener k hk hopens := by
    obtain ⟨hlt, hopens', hsucceeded, hpid, a, ha, ha'⟩ :=
      hinv.opener k (h.next ▸ hk) ((h.all k).opens ▸ hopens)
    rw [(h.all k).opener, (h.all k).pid, (h.all _).opens, (h.all _).pid, h.next]
    exact ⟨hlt, hopens', (h.all _).succeeded hsucceeded, hpid, a, (h.all k).acc a ha, (h.all _).acc a ha'⟩
  released r hr hrel k hk hne hopener := by
    rw [(h.all r).opener, (h.all k).opener] at hopener
    rw [(h.all r).releases] at hrel
    exact (h.all k).returned (hinv.released r (h.next ▸ hr) hrel k (h.next ▸ hk) hne hopener)
  alone k hk k' hk' hpid hbusy hbusy' := by
    rw [(h.all k).pid, (h.all k').pid] at hpid
    rw [(h.all k).opener, (h.all k').opener]
    exact hinv.alone k (h.next ▸ hk) k' (h.next ▸ hk') hpid (h.busy hbusy) (h.busy hbusy')

end Moves

/-! ## New calls -/

/-- A call that begins. -/
structure Begins (s : State) (op : Operation) : Prop where
  ended : op.ended = false
  succeeded : op.succeeded = false

/-- Files that are open after a call has begun. -/
theorem Begins.fileOpen (h : Begins s op) (hopen : (s.start op).fileOpen m) :
    m ≠ s.next ∧ s.fileOpen m ∧ (op.opener = m → op.releases = false) := by
  obtain ⟨hopens, hsucceeded, hreleases⟩ := hopen
  have hne : m ≠ s.next := by
    rintro rfl
    have hself : ((s.start op).ops s.next) = op := Function.update_self ..
    rw [hself, h.succeeded] at hsucceeded
    cases hsucceeded
  have hold : ∀ k, k ≠ s.next → (s.start op).ops k = s.ops k := fun k hk => Function.update_of_ne hk ..
  rw [hold m hne] at hopens hsucceeded
  refine ⟨hne, ⟨hopens, hsucceeded, fun k hk hopener => ?_⟩, fun hopener => ?_⟩
  · have hk' := hreleases k (Nat.lt_succ_of_lt hk)
    rw [hold k hk.ne] at hk'
    exact hk' hopener
  · have hself : ((s.start op).ops s.next) = op := Function.update_self ..
    have hnew := hreleases s.next (Nat.lt_succ_self _)
    rw [hself] at hnew
    exact hnew hopener

theorem start_of_ne (hne : m ≠ s.next) : (s.start op).ops m = s.ops m := Function.update_of_ne hne ..

@[simp] theorem start_self : (s.start op).ops s.next = op := Function.update_self ..

theorem Begins.busy (h : Begins s op) (hne : m ≠ s.next) (hbusy : (s.start op).Busy m) : s.Busy m := by
  rcases hbusy with hended | hopen
  · rw [start_of_ne hne] at hended
    exact .inl hended
  · exact .inr (h.fileOpen hopen).2.1

/-- A new call, on a file of its own or on one that is open and not released. -/
theorem Inv.start (h : Inv d e s) (hbegins : Begins s op) (hsound : op.Sound d e)
    (hopens : op.opens = true → op.opener = s.next)
    (hopener : op.opens = false → op.opener < s.next ∧ (s.ops op.opener).opens = true ∧
      (s.ops op.opener).succeeded = true ∧ (s.ops op.opener).pid = op.pid ∧
      ∃ a, op.acc = some a ∧ (s.ops op.opener).acc = some a)
    (hrelease : op.releases = true → ∀ n < s.next, (s.ops n).opener = op.opener → (s.ops n).returned = true)
    (hreleased : ∀ r < s.next, (s.ops r).releases = true → (s.ops r).opener ≠ op.opener)
    (halone : ∀ n < s.next, (s.ops n).pid = op.pid → s.Busy n → (s.ops n).opener = op.opener) :
    Inv d e (s.start op) := by
  have hlt : ∀ {k}, k < s.next + 1 → k ≠ s.next → k < s.next := fun hk hne =>
    Nat.lt_of_le_of_ne (Nat.le_of_lt_succ hk) hne
  refine ⟨fun k hk => ?_, fun k => ?_, fun k hk hk' => ?_, fun k hk hk' => ?_, fun r hr hrel k hk hne hsame => ?_,
    fun k hk k' hk' hpid hbusy hbusy' => ?_⟩
  · have hne : k ≠ s.next := fun heq => absurd hk (Nat.not_le.mpr (heq ▸ Nat.lt_succ_self _))
    rw [start_of_ne hne]
    exact h.inert k (Nat.le_of_succ_le hk)
  · by_cases hne : k = s.next
    · rw [hne, start_self]
      exact hsound
    · rw [start_of_ne hne]
      exact h.sound k
  · by_cases hne : k = s.next
    · subst hne
      rw [start_self] at hk' ⊢
      exact hopens hk'
    · rw [start_of_ne hne] at hk' ⊢
      exact h.opens k (hlt hk hne) hk'
  · have hfile : ∀ {p : Operation}, p.opener < s.next ∧ (s.ops p.opener).opens = true ∧
        (s.ops p.opener).succeeded = true ∧ (s.ops p.opener).pid = p.pid ∧
        (∃ a, p.acc = some a ∧ (s.ops p.opener).acc = some a) →
        p.opener < s.next + 1 ∧ ((s.start op).ops p.opener).opens = true ∧
        ((s.start op).ops p.opener).succeeded = true ∧ ((s.start op).ops p.opener).pid = p.pid ∧
        ∃ a, p.acc = some a ∧ ((s.start op).ops p.opener).acc = some a := by
      intro p hp
      rw [start_of_ne hp.1.ne]
      exact ⟨Nat.lt_succ_of_lt hp.1, hp.2⟩
    by_cases hne : k = s.next
    · subst hne
      rw [start_self] at hk' ⊢
      exact hfile (hopener hk')
    · rw [start_of_ne hne] at hk' ⊢
      exact hfile (h.opener k (hlt hk hne) hk')
  · by_cases hrn : r = s.next
    · subst hrn
      rw [start_of_ne hne] at hsame ⊢
      rw [start_self] at hrel hsame
      exact hrelease hrel k (hlt hk hne) hsame
    · rw [start_of_ne hrn] at hrel hsame
      by_cases hkn : k = s.next
      · subst hkn
        rw [start_self] at hsame
        exact absurd hsame.symm (hreleased r (hlt hr hrn) hrel)
      · rw [start_of_ne hkn] at hsame ⊢
        exact h.released r (hlt hr hrn) hrel k (hlt hk hkn) hne hsame
  · by_cases hkn : k = s.next
    · subst hkn
      by_cases hkn' : k' = s.next
      · rw [hkn']
      · rw [start_self, start_of_ne hkn'] at hpid
        rw [start_self, start_of_ne hkn']
        exact (halone k' (hlt hk' hkn') hpid.symm (hbegins.busy hkn' hbusy')).symm
    · by_cases hkn' : k' = s.next
      · subst hkn'
        rw [start_self, start_of_ne hkn] at hpid
        rw [start_self, start_of_ne hkn]
        exact halone k (hlt hk hkn) hpid (hbegins.busy hkn hbusy)
      · rw [start_of_ne hkn, start_of_ne hkn'] at hpid
        rw [start_of_ne hkn, start_of_ne hkn']
        exact h.alone k (hlt hk hkn) k' (hlt hk' hkn') hpid (hbegins.busy hkn hbusy) (hbegins.busy hkn' hbusy')

/-- The calls are there from their first operation. -/
theorem openOp_begins (s : State) (d : DevId) (pid : Int32) (pad : UInt32) : Begins s (openOp s d pid pad) :=
  ⟨rfl, rfl⟩

theorem callOp_begins (s : State) (m : Nat) (call : FoCall) (a : AccRef) : Begins s (callOp s m call a) :=
  ⟨rfl, rfl⟩

theorem openOp_opens (s : State) (d : DevId) (pid : Int32) (pad : UInt32) : (openOp s d pid pad).opens = true :=
  decide_eq_true rfl

theorem openOp_sound (e : DevId) (pid : Int32) (pad : UInt32) : (openOp s d pid pad).Sound d e where
  course := ndfoSendOpenStart_onCourse pad
  acc _ ha := nomatch ha
  nddata _ ha := nomatch ha
  opening _ := ⟨openOp_opens s d pid pad, rfl⟩
  unsent _ := rfl
  sent _ hpid := nomatch hpid
  woken _ ha := nomatch ha
  serve _ hr := nomatch hr
  served _ hr := nomatch hr
  answer _ hr := nomatch hr
  answered _ hr := nomatch hr

theorem callOp_sound {call : FoCall} {a : AccRef} (ha : a.nddata = d) : (callOp s m call a).Sound d e where
  course := foSend_onCourse
  acc _ hacc := hacc
  nddata b hb := by
    obtain rfl := Option.some.inj hb
    exact ha
  opening hphase := nomatch hphase
  unsent _ := rfl
  sent _ hpid := nomatch hpid
  woken _ hphase := nomatch hphase
  serve _ hr := nomatch hr
  served _ hr := nomatch hr
  answer _ hr := nomatch hr
  answered _ hr := nomatch hr

theorem Inv.opener_lt (h : Inv d e s) (hn : n < s.next) : (s.ops n).opener < s.next := by
  cases hopens : (s.ops n).opens with
  | true =>
      rw [h.opens n hn hopens]
      exact hn
  | false => exact (h.opener n hn hopens).1

theorem Inv.openOp (h : Inv d e s) {pid : Int32} (pad : UInt32) (hclear : s.Clear pid) :
    Inv d e (s.start (openOp s d pid pad)) := by
  refine h.start (openOp_begins s d pid pad) (openOp_sound e pid pad) (fun _ => rfl) (fun hopens => ?_)
    (fun hrel => ?_) (fun r hr _ => (h.opener_lt hr).ne) (fun n hn hpid hbusy => ?_)
  · rw [openOp_opens] at hopens
    cases hopens
  · rw [Operation.Sound.not_releases (openOp_opens s d pid pad)] at hrel
    cases hrel
  · obtain ⟨hended, hclosed⟩ := hclear n hn hpid
    rcases hbusy with hnot | hopen
    · rw [hended] at hnot
      cases hnot
    · exact absurd hopen hclosed

theorem Inv.callOp (h : Inv d e s) {call : FoCall} {a : AccRef} (hacc : (s.ops m).acc = some a)
    (hmay : s.MayCall m call) : Inv d e (s.start (callOp s m call a)) := by
  obtain ⟨hcall, hopen, hrelease⟩ := hmay
  have hm := h.fileOpen_lt hopen
  have hself := h.opens m hm hopen.1
  refine h.start (callOp_begins s m call a) (callOp_sound ((h.sound m).nddata a hacc)) (fun hopens => ?_)
    (fun _ => ⟨hm, hopen.1, hopen.2.1, rfl, a, rfl, hacc⟩) (fun hrel n hn hopener => hrelease hrel n hn hopener)
    (fun r hr hrel hopener => ?_) (fun n hn hpid hbusy => ?_)
  · exact absurd (of_decide_eq_true hopens) hcall
  · have hnot := hopen.2.2 r hr hopener
    rw [hrel] at hnot
    cases hnot
  · exact (h.alone n hn m hm hpid hbusy (.inr hopen)).trans hself

end Shape

end Netdev.Kernel.Routing
