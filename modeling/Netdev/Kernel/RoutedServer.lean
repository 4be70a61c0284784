-- SUMMARY: The server's table in every run: an operation finds the file on which its open was executed.
import Netdev.Kernel.RoutedCalls

/-!
# The server's table

An open looks for a file of its process and executes on the one that it finds; only
where there is none it starts one. So a file of the server can serve several files of
the client, and the `filp` in it is that of the last open. While the calls of a process
belong to one file of the client, it is the `filp` of that file.
-/

namespace Netdev.Kernel.Routing
open Base Registry

/-- How far the server is with the call. -/
def Operation.serverPhase (op : Operation) : Option Inbound := op.serve.map Receiver.phase

/-- The call may still come to the server, or it has opened a file. -/
def State.Needs (s : State) (n : Nat) : Prop :=
  ((s.ops n).returned = false ∧ ((s.ops n).releases = true → (s.ops n).executed = false)) ∨ s.fileOpen n

/-- What the server's table has for the calls. -/
structure ServerInv (e : DevId) (s : State) (files : List OpenFile) : Prop where
  lists : s.server.Lists e false files
  owner : ∀ n ph a, (s.ops n).serverPhase = some ph → ph.acc? = some a →
    a.id < s.server.nextAcc ∧ a.nddata = e ∧ ∀ pid, (a, pid) ∈ files → pid = (s.ops n).pid
  unopened : ∀ a, s.server.nextAcc ≤ a.id → s.opened a = none
  filp : ∀ f ∈ files, s.server.filp f.1 = (s.opened f.1).bind Prod.snd
  found : ∀ n a, (s.ops n).serverPhase = some (.found a) → firstFile files (s.ops n).pid = some a
  kept : ∀ n, s.Needs n → ∀ a, (s.ops (s.ops n).opener).serverPhase = some (.done a) →
    firstFile files (s.ops n).pid = some a ∧ ∃ filp, s.opened a = some ((s.ops n).opener, filp)

section Needs
variable {d e : DevId} {s s' : State} {n k : Nat} {op : Operation} {ph : Inbound}

theorem State.Needs.busy (h : s.Needs n) : s.Busy n := by
  rcases h with ⟨hreturned, -⟩ | hopen
  · exact .inl (Operation.Sound.ended_eq_false hreturned)
  · exact .inr hopen

theorem State.Busy.lt (h : s.Busy n) (hinv : Inv d e s) : n < s.next := by
  rcases h with hended | hopen
  · refine hinv.lt fun hinert => ?_
    rw [hinert] at hended
    cases hended
  · exact hinv.fileOpen_lt hopen

theorem Operation.serve_of_phase (h : op.serverPhase = some ph) : ∃ r, op.serve = some r ∧ r.phase = ph :=
  Option.map_eq_some_iff.mp h

/-- A call that the server has not executed is busy. -/
theorem Inv.busy_of_serve (hinv : Inv d e s) (h : (s.ops n).serverPhase = some ph) (hph : ph.executed = false) :
    (s.ops n).returned = false ∧ s.Busy n := by
  obtain ⟨r, hr, rfl⟩ := Operation.serve_of_phase h
  have hreturned := ((hinv.sound n).not_returned hr hph).2
  exact ⟨hreturned, .inl (Operation.Sound.ended_eq_false hreturned)⟩

theorem Inv.opener_opens (hinv : Inv d e s) (hn : n < s.next) : (s.ops (s.ops n).opener).opens = true := by
  cases hopens : (s.ops n).opens with
  | true =>
      rw [hinv.opens n hn hopens]
      exact hopens
  | false => exact (hinv.opener n hn hopens).2.1

/-- An open that has not returned has no other call yet. -/
theorem Inv.eq_of_opener (hinv : Inv d e s) (hk : k < s.next) (hopener : (s.ops k).opener = n)
    (hreturned : (s.ops n).returned = false) : k = n := by
  cases hopens : (s.ops k).opens with
  | true => exact (hinv.opens k hk hopens).symm.trans hopener
  | false =>
      have hsucceeded := (hinv.opener k hk hopens).2.2.1
      rw [hopener, Operation.not_succeeded hreturned] at hsucceeded
      cases hsucceeded

/-- After a release began, no other call needs the file. -/
theorem Inv.not_needs_of_released (hinv : Inv d e s) (hn : n < s.next) (hrel : (s.ops n).releases = true)
    (hk : k ≠ n) (hopener : (s.ops k).opener = (s.ops n).opener) : ¬ s.Needs k := by
  intro hneeds
  have hlt := hneeds.busy.lt hinv
  rcases hneeds with ⟨hreturned, -⟩ | hopen
  · rw [hinv.released n hn hrel k hlt hk hopener] at hreturned
    cases hreturned
  · have hnot := hopen.2.2 n hn (hopener.symm.trans (hinv.opens k hlt hopen.1))
    rw [hrel] at hnot
    cases hnot

theorem Moves.needs (h : Moves s s' n) (hexecuted : (s.ops n).executed = true → (s'.ops n).executed = true)
    (hprog : (s.ops n).returned = false ∨ (s'.ops n).prog = (s.ops n).prog) (hneeds : s'.Needs k) : s.Needs k := by
  by_cases hk : k = n
  · subst hk
    have hnot : (s'.ops k).executed = false → (s.ops k).executed = false := by
      intro hnew
      by_contra hold
      rw [hexecuted (by simpa using hold)] at hnew
      cases hnew
    rcases hprog with hreturned | hprog
    · refine .inl ⟨hreturned, fun hrel => ?_⟩
      rw [← h.grows.releases] at hrel
      rcases hneeds with ⟨-, hnew⟩ | hopen
      · exact hnot (hnew hrel)
      · rw [Operation.Sound.not_releases hopen.1] at hrel
        cases hrel
    · rcases hneeds with ⟨hreturned, hnew⟩ | hopen
      · rw [Operation.returned, hprog] at hreturned
        rw [h.grows.releases] at hnew
        exact .inl ⟨hreturned, fun hrel => hnot (hnew hrel)⟩
      · refine .inr (h.fileOpen hopen fun hsucceeded => ?_)
        rw [Operation.succeeded, hprog] at hsucceeded
        exact hsucceeded
  · rcases hneeds with hcall | hopen
    · rw [h.others k hk] at hcall
      exact .inl hcall
    · exact .inr (h.fileOpen_of_ne hopen hk)

end Needs

/-! ## What a step does to the table -/

section Table
variable {d e : DevId} {s s' : State} {n : Nat} {files : List OpenFile} {a : AccRef} {op : Operation}

/-- The step leaves the table. A thread that finds a file has found the first one. -/
theorem ServerInv.same (h : ServerInv e s files) (hm : Moves s s' n) (hsame : s.server.SameOpen s'.server)
    (hopened : s'.opened = s.opened)
    (hphase : ∀ ph a, (s'.ops n).serverPhase = some ph → ph.acc? = some a → (s.ops n).serverPhase = some ph ∨
      ph = .found a ∧ firstFile files (s.ops n).pid = some a)
    (hneeds : ∀ k, s'.Needs k → s.Needs k) : ServerInv e s' files := by
  have hphases : ∀ k ph a, (s'.ops k).serverPhase = some ph → ph.acc? = some a →
      (s.ops k).serverPhase = some ph ∨ ph = .found a ∧ firstFile files (s.ops k).pid = some a := by
    intro k ph b hk hb
    by_cases hkn : k = n
    · subst hkn
      exact hphase ph b hk hb
    · rw [hm.others k hkn] at hk
      exact .inl hk
  refine ⟨h.lists.same hsame, fun k ph b hk hb => ?_, fun b hb => ?_, fun f hf => ?_, fun k b hk => ?_,
    fun k hk b hb => ?_⟩
  · rw [hsame.nextAcc, (hm.all k).pid]
    rcases hphases k ph b hk hb with hold | ⟨-, hfirst⟩
    · exact h.owner k ph b hold hb
    · have hmem := mem_of_firstFile hfirst
      obtain ⟨hlt, hnddata⟩ := h.lists.fresh _ hmem
      exact ⟨hlt, hnddata, fun pid hpid => h.lists.accessId_inj hpid hmem⟩
  · rw [hopened]
    exact h.unopened b (hsame.nextAcc ▸ hb)
  · rw [hsame.filp, hopened]
    exact h.filp f hf
  · rw [(hm.all k).pid]
    rcases hphases k _ b hk rfl with hold | ⟨-, hfirst⟩
    · exact h.found k b hold
    · exact hfirst
  · rw [(hm.all k).opener] at hb ⊢
    rw [(hm.all k).pid, hopened]
    rcases hphases _ _ b hb rfl with hold | ⟨hfound, -⟩
    · exact h.kept k (hneeds k hk) b hold
    · cases hfound

/-- An open for which there is no file starts one, in front. -/
theorem ServerInv.starts (h : ServerInv e s files) (hinv : Inv d e s) (hm : Moves s s' n)
    (hopens : (s.ops n).opens = true) (hreturned : (s.ops n).returned = false)
    (hphase : (s'.ops n).serverPhase = some (.found a)) (hopened : s'.opened = s.opened)
    (hstarts : StartsFile s.server e false files (s.ops n).pid (.ok (some a)) s'.server)
    (hneeds : ∀ k, s'.Needs k → s.Needs k) : ServerInv e s' ((a, (s.ops n).pid) :: files) := by
  obtain ⟨hnew, hlists, hnext, hempty, hfilp⟩ := hstarts
  have hid : a.id = s.server.nextAcc := by rw [hnew]
  have hfresh : ∀ pid, (a, pid) ∉ files := fun pid hmem => by
    have hlt : a.id < s.server.nextAcc := (h.lists.fresh _ hmem).1
    omega
  have hpid : ∀ k, k ≠ n → s.Busy k → (s.ops n).pid ≠ (s.ops k).pid := fun k hk hbusy heq =>
    hk (hinv.eq_of_busy hm.lt hopens hm.ended (Operation.not_succeeded hreturned) (hbusy.lt hinv) heq.symm hbusy)
  refine ⟨hlists, fun k ph b hk hb => ?_, fun b hb => ?_, fun f hf => ?_, fun k b hk => ?_, fun k hk b hb => ?_⟩
  · rw [hnext, (hm.all k).pid]
    by_cases hkn : k = n
    · subst hkn
      obtain rfl := Option.some.inj (hphase.symm.trans hk)
      obtain rfl := Option.some.inj hb
      refine ⟨by omega, by rw [hnew], fun pid hmem => ?_⟩
      rcases List.mem_cons.mp hmem with heq | hold
      · exact congrArg Prod.snd heq
      · exact absurd hold (hfresh pid)
    · rw [hm.others k hkn] at hk
      obtain ⟨hlt, hnddata, hold⟩ := h.owner k ph b hk hb
      refine ⟨Nat.lt_succ_of_lt hlt, hnddata, fun pid hmem => ?_⟩
      rcases List.mem_cons.mp hmem with heq | hmem
      · have hbid : b.id = a.id := congrArg (fun f => f.1.id) heq
        omega
      · exact hold pid hmem
  · rw [hopened]
    exact h.unopened b (by omega)
  · rw [hopened]
    rcases List.mem_cons.mp hf with rfl | hf
    · change s'.server.filp a = (s.opened a).bind Prod.snd
      rw [hempty, h.unopened a hid.ge]
      rfl
    · rw [hfilp f.1 fun heq => hfresh f.2 (by rw [← heq]; exact hf)]
      exact h.filp f hf
  · rw [(hm.all k).pid]
    by_cases hkn : k = n
    · subst hkn
      obtain rfl := Inbound.found.inj (Option.some.inj (hphase.symm.trans hk))
      exact firstFile_cons_self
    · rw [hm.others k hkn] at hk
      rw [firstFile_cons_of_ne (hpid k hkn (hinv.busy_of_serve hk rfl).2)]
      exact h.found k b hk
  · rw [(hm.all k).opener] at hb ⊢
    rw [(hm.all k).pid, hopened]
    have hopener : (s.ops k).opener ≠ n := by
      intro heq
      rw [heq, hphase] at hb
      cases hb
    have hkn : k ≠ n := by
      rintro rfl
      exact hopener (hinv.opens k hm.lt hopens)
    rw [hm.others _ hopener] at hb
    rw [firstFile_cons_of_ne (hpid k hkn (hneeds k hk).busy)]
    exact h.kept k (hneeds k hk) b hb

/-- A request is executed on the file that was found. When it is an open, the file belongs
to it from now on. -/
theorem ServerInv.executes (h : ServerInv e s files) (hinv : Inv d e s) (hm : Moves s s' n) {env : HandlerEnv}
    {nlh : NlMessage} {rvalue : Int32} (htype : nlh.msgtype = MSGT_FO_OPEN ↔ (s.ops n).opens = true)
    (hphase : (s.ops n).serverPhase = some (.found a)) (hphase' : (s'.ops n).serverPhase = some (.done a))
    (hexec : ExecutesOn s.server env a nlh (.ok rvalue) s'.server)
    (hopened : s'.opened = if nlh.msgtype = MSGT_FO_OPEN
      then Function.update s.opened a (some ((s.ops n).opener, env.opened)) else s.opened)
    (hneeds : ∀ k, s'.Needs k → s.Needs k) : ServerInv e s' files := by
  obtain ⟨-, hfilp, hlists, hnext, hothers⟩ := hexec
  obtain ⟨hlt, -, howner⟩ := h.owner n _ a hphase rfl
  have hfirst := h.found n a hphase
  have hreturned := (hinv.busy_of_serve hphase rfl).1
  have hold : ∀ b, b ≠ a → s'.opened b = s.opened b := by
    intro b hb
    rw [hopened]
    split
    · exact Function.update_of_ne hb ..
    · rfl
  refine ⟨hlists _ _ _ h.lists, fun k ph b hk hb => ?_, fun b hb => ?_, fun f hf => ?_, fun k b hk => ?_,
    fun k hk b hb => ?_⟩
  · rw [hnext, (hm.all k).pid]
    by_cases hkn : k = n
    · subst hkn
      obtain rfl := Option.some.inj (hphase'.symm.trans hk)
      exact h.owner k _ b hphase hb
    · rw [hm.others k hkn] at hk
      exact h.owner k ph b hk hb
  · rw [hnext] at hb
    rw [hold b (by rintro rfl; omega)]
    exact h.unopened b hb
  · by_cases hfa : f.1 = a
    · have hf' := h.filp f hf
      rw [hfa] at hf' ⊢
      rw [hfilp, hopened]
      split
      · rw [Function.update_self]
        rfl
      · exact hf'
    · rw [hothers f.1 hfa, hold f.1 hfa]
      exact h.filp f hf
  · rw [(hm.all k).pid]
    have hkn : k ≠ n := by
      rintro rfl
      rw [hphase'] at hk
      cases hk
    rw [hm.others k hkn] at hk
    exact h.found k b hk
  · rw [(hm.all k).opener] at hb ⊢
    rw [(hm.all k).pid]
    have hklt := (hneeds k hk).busy.lt hinv
    by_cases hopener : (s.ops k).opener = n
    · -- the open itself, which has no other call yet
      have hopens : (s.ops n).opens = true := hopener ▸ hinv.opener_opens hklt
      obtain rfl := hinv.eq_of_opener hklt hopener hreturned
      rw [hopener, hphase'] at hb
      obtain rfl := Inbound.done.inj (Option.some.inj hb)
      refine ⟨hfirst, env.opened, ?_⟩
      rw [hopened, if_pos (htype.mpr hopens), Function.update_self]
    · rw [hm.others _ hopener] at hb
      obtain ⟨hfirst', hfile⟩ := h.kept k (hneeds k hk) b hb
      refine ⟨hfirst', ?_⟩
      by_cases hopens : nlh.msgtype = MSGT_FO_OPEN
      · -- another file, as no other call of the process of this open is under way
        have hba : b ≠ a := by
          rintro rfl
          have hpid := howner _ (mem_of_firstFile hfirst')
          have hkn := hinv.eq_of_busy hm.lt (htype.mp hopens) hm.ended (Operation.not_succeeded hreturned) hklt hpid
            (hneeds k hk).busy
          rw [hkn] at hopener
          exact hopener (hinv.opens n hm.lt (htype.mp hopens))
        rw [hold b hba]
        exact hfile
      · rw [hopened, if_neg hopens]
        exact hfile

/-- A release destroys the file that it was executed on. -/
theorem ServerInv.destroys (h : ServerInv e s files) (hinv : Inv d e s) (hm : Moves s s' n)
    (hrel : (s.ops n).releases = true) (hphase : (s.ops n).serverPhase = some (.done a))
    (hphase' : (s'.ops n).serverPhase = some (.gone a)) (hopened : s'.opened = s.opened)
    (hdestroys : DestroysFile s.server e false files a (.ok ()) s'.server)
    (hneeds : ∀ k, s'.Needs k → s.Needs k) : ServerInv e s' (files.filter fun f => f.1 ≠ a) := by
  obtain ⟨hlists, hnext, hfilp⟩ := hdestroys
  obtain ⟨-, -, howner⟩ := h.owner n _ a hphase rfl
  have hexecuted : (s.ops n).executed = true := by
    obtain ⟨r, hr, hdone⟩ := Operation.serve_of_phase hphase
    rw [Operation.executed, hr, Option.any_some, hdone]
    rfl
  -- a call that needs the file would be of the same file of the client
  have hunused : ∀ k, k ≠ n → s.Needs k → firstFile files (s.ops k).pid ≠ some a := by
    intro k hk hneed hfirst
    have hpid := howner _ (mem_of_firstFile hfirst)
    have hsame := hinv.alone k (hneed.busy.lt hinv) n hm.lt hpid hneed.busy (.inl hm.ended)
    exact hinv.not_needs_of_released hm.lt hrel hk hsame hneed
  refine ⟨hlists, fun k ph b hk hb => ?_, fun b hb => ?_, fun f hf => ?_, fun k b hk => ?_, fun k hk b hb => ?_⟩
  · rw [hnext, (hm.all k).pid]
    have hkept : (s.ops k).serverPhase = some ph ∨ (s.ops k).serverPhase = some (.done b) := by
      by_cases hkn : k = n
      · subst hkn
        obtain rfl := Option.some.inj (hphase'.symm.trans hk)
        obtain rfl := Option.some.inj hb
        exact .inr hphase
      · rw [hm.others k hkn] at hk
        exact .inl hk
    rcases hkept with hold | hold
    · obtain ⟨hlt, hnddata, hpid⟩ := h.owner k ph b hold hb
      exact ⟨hlt, hnddata, fun pid hmem => hpid pid (List.mem_of_mem_filter hmem)⟩
    · obtain ⟨hlt, hnddata, hpid⟩ := h.owner k _ b hold rfl
      exact ⟨hlt, hnddata, fun pid hmem => hpid pid (List.mem_of_mem_filter hmem)⟩
  · rw [hopened]
    exact h.unopened b (hnext ▸ hb)
  · obtain ⟨hmem, hne⟩ := List.mem_filter.mp hf
    rw [hopened, hfilp f.1 (of_decide_eq_true hne)]
    exact h.filp f hmem
  · rw [(hm.all k).pid]
    have hkn : k ≠ n := by
      rintro rfl
      rw [hphase'] at hk
      cases hk
    rw [hm.others k hkn] at hk
    have hfirst := h.found k b hk
    refine firstFile_filter hfirst fun heq => ?_
    obtain ⟨r, hr, hfound⟩ := Operation.serve_of_phase hk
    obtain ⟨hnot, hreturned⟩ := (hinv.sound k).not_returned hr (by rw [hfound]; rfl)
    exact hunused k hkn (.inl ⟨hreturned, fun _ => hnot⟩) (heq ▸ hfirst)
  · rw [(hm.all k).opener] at hb ⊢
    rw [(hm.all k).pid, hopened]
    have hopener : (s.ops k).opener ≠ n := by
      intro heq
      rw [heq, hphase'] at hb
      cases hb
    have hkn : k ≠ n := by
      rintro rfl
      rcases hneeds k hk with ⟨-, hnot⟩ | hopen
      · rw [hnot hrel] at hexecuted
        cases hexecuted
      · rw [Operation.Sound.not_releases hopen.1] at hrel
        cases hrel
    rw [hm.others _ hopener] at hb
    obtain ⟨hfirst, hfile⟩ := h.kept k (hneeds k hk) b hb
    refine ⟨firstFile_filter hfirst fun heq => ?_, hfile⟩
    exact hunused k hkn (hneeds k hk) (heq ▸ hfirst)

/-- A new call needs the file that its opener has. -/
theorem ServerInv.start (h : ServerInv e s files) (hinv : Inv d e s) (hbegins : Begins s op)
    (hserve : op.serve = none)
    (hop : op.opener = s.next ∨ s.fileOpen op.opener ∧ (s.ops op.opener).pid = op.pid) :
    ServerInv e (s.start op) files := by
  have hnone : op.serverPhase = none := by
    rw [Operation.serverPhase, hserve]
    rfl
  have hold : ∀ k ph, ((s.start op).ops k).serverPhase = some ph → k ≠ s.next := by
    rintro k ph hk rfl
    rw [start_self, hnone] at hk
    cases hk
  refine ⟨h.lists, fun k ph b hk hb => ?_, h.unopened, h.filp, fun k b hk => ?_, fun k hk b hb => ?_⟩
  · have hne := hold k ph hk
    rw [start_of_ne hne] at hk ⊢
    exact h.owner k ph b hk hb
  · have hne := hold k _ hk
    rw [start_of_ne hne] at hk ⊢
    exact h.found k b hk
  · have hopener := hold _ _ hb
    rw [start_of_ne hopener] at hb
    by_cases hne : k = s.next
    · rw [hne, start_self] at hb hopener ⊢
      obtain ⟨hopen, hpid⟩ := hop.resolve_left hopener
      have hself := hinv.opens op.opener (hinv.fileOpen_lt hopen) hopen.1
      have hkept := h.kept op.opener (.inr hopen) b (by rw [hself]; exact hb)
      rw [hself, hpid] at hkept
      exact hkept
    · rw [start_of_ne hne] at hb ⊢
      have hneeds : s.Needs k := by
        rcases hk with hcall | hopen
        · rw [start_of_ne hne] at hcall
          exact .inl hcall
        · exact .inr (hbegins.fileOpen hopen).2.1
      exact h.kept k hneeds b hb

end Table

/-! ## The steps of the server -/

section Steps
variable {d e : DevId} {s s' : State} {n m : Nat} {files : List OpenFile} {env : FoEnv} {prog' : FoM Int32}
  {event : Option FileEvent} {r : Receiver}

/-- What `fo_recv` of the server does. -/
theorem ServerInv.serve (h : ServerInv e s files) (hinv : Inv d e s) (hm : Moves s s' n)
    (hserve : (s.ops n).serve = some r) (hp : Performs env s.server r.prog event prog' s'.server)
    (hop : s'.ops n = { s.ops n with serve := some (r.goOn false e event prog') })
    (hopened : s'.opened = (s.record n env.handler event).opened) : ∃ files', ServerInv e s' files' := by
  have hsound := (hinv.sound n).serve r hserve
  have hold : (s.ops n).serverPhase = some r.phase := by
    rw [Operation.serverPhase, hserve]
    rfl
  have hnew : (s'.ops n).serverPhase = some (r.goOn false e event prog').phase := by
    rw [hop]
    rfl
  have hneeds : (r.phase.executed = true → (r.goOn false e event prog').phase.executed = true) →
      ∀ k, s'.Needs k → s.Needs k := by
    refine fun hkeeps k => hm.needs (fun hdone => ?_) (.inr (by rw [hop]))
    rw [Operation.executed, hserve, Option.any_some] at hdone
    rw [Operation.executed, hop, Option.any_some]
    exact hkeeps hdone
  cases event with
  | none => exact ⟨files, h.same hm hp.sameOpen hopened (fun ph a hph _ => .inl (hold.trans (hnew.symm.trans hph)))
      (hneeds id)⟩
  | some event =>
      obtain ⟨-, hstep⟩ := hsound.goOn hp h.lists
      have heffect := hp.effect h.lists
      replace hneeds := hneeds hstep.executed
      generalize (r.goOn false e (some event) prog').phase = ph' at hstep hnew
      generalize hph : r.phase = ph at hstep hold
      have hstays : ph'.acc? = none ∨ ph' = ph → ∀ ph₁ a, (s'.ops n).serverPhase = some ph₁ → ph₁.acc? = some a →
          (s.ops n).serverPhase = some ph₁ ∨ ph₁ = .found a ∧ firstFile files (s.ops n).pid = some a := by
        intro hstay ph₁ a hph₁ ha
        obtain rfl := Option.some.inj (hnew.symm.trans hph₁)
        rcases hstay with hnone | rfl
        · rw [hnone] at ha
          cases ha
        · exact .inl hold
      cases hstep with
      | @found a =>
          refine ⟨files, h.same hm heffect.1 hopened (fun ph₁ b hph₁ hb => .inr ?_) hneeds⟩
          obtain rfl := Option.some.inj (hnew.symm.trans hph₁)
          obtain rfl := Option.some.inj hb
          refine ⟨rfl, ?_⟩
          have hfind := heffect.2 rfl
          rw [hsound.pid] at hfind
          split at hfind
          · exact hfind.symm
          · cases hfind
      | missed => exact ⟨files, h.same hm heffect.1 hopened (hstays (.inl rfl)) hneeds⟩
      | @start a hopen =>
          obtain ⟨hreturned, -⟩ := hinv.busy_of_serve hold rfl
          have hstarts := heffect rfl
          rw [hsound.pid] at hstarts
          exact ⟨_, h.starts hinv hm (hsound.opens_iff.mp hopen) hreturned hnew hopened hstarts hneeds⟩
      | noStart _ => exact ⟨files, h.same hm (heffect rfl) hopened (hstays (.inl rfl)) hneeds⟩
      | search hdummy => cases hdummy
      | complete hdummy => cases hdummy
      | fail hdummy _ => cases hdummy
      | execute _ =>
          refine ⟨files, h.executes hinv hm hsound.opens_iff hold hnew heffect ?_ hneeds⟩
          rw [hopened, State.record]
          split
          · rfl
          · rfl
      | @release a _ hrel =>
          have hnddata := (h.owner n _ a hold rfl).2.1
          exact ⟨_, h.destroys hinv hm (hsound.releases_iff.mp hrel) hold hnew hopened (heffect hnddata) hneeds⟩
      | kind => exact ⟨files, h.same hm heffect.1 hopened (hstays (.inr rfl)) hneeds⟩
      | other => exact ⟨files, h.same hm heffect hopened (hstays (.inr rfl)) hneeds⟩

/-- A step that does not touch the server. -/
theorem ServerInv.idle (h : ServerInv e s files) (hm : Moves s s' n) (hserver : s'.server = s.server)
    (hopened : s'.opened = s.opened)
    (hserve : (s'.ops n).serve = (s.ops n).serve ∨ ∃ r, (s.ops n).serve = none ∧ (s'.ops n).serve = some r ∧
      r.phase = .lookup)
    (hprog : (s.ops n).returned = false ∨ (s'.ops n).prog = (s.ops n).prog) : ServerInv e s' files := by
  refine h.same hm ?_ hopened (fun ph a hph ha => .inl ?_) fun k => hm.needs (fun hdone => ?_) hprog
  · rw [hserver]
    exact .refl _
  · rcases hserve with hsame | ⟨r, -, hnew, hlookup⟩
    · rw [Operation.serverPhase, hsame] at hph
      exact hph
    · rw [Operation.serverPhase, hnew, Option.map_some, hlookup] at hph
      obtain rfl := Option.some.inj hph
      cases ha
  · rcases hserve with hsame | ⟨r, hnone, -⟩
    · rw [Operation.executed, hsame]
      exact hdone
    · rw [Operation.executed, hnone] at hdone
      cases hdone

/-! ## What an operation finds -/

/-- An operation other than an open finds the file on which its open was executed, with the
`filp` of that open. -/
theorem ServerInv.execution (h : ServerInv e s files) (hinv : Inv d e s) (hn : n < s.next)
    (hopens : (s.ops n).opens = false) {a : AccRef} (hphase : (s.ops n).serverPhase = some (.found a)) :
    s.opened a = some ((s.ops n).opener, s.server.filp a) := by
  have hfirst := h.found n a hphase
  obtain ⟨r, hr, hfound⟩ := Operation.serve_of_phase hphase
  obtain ⟨hexecuted, hreturned⟩ := (hinv.sound n).not_returned hr (by rw [hfound]; rfl)
  obtain ⟨-, hopener, hsucceeded, -⟩ := hinv.opener n hn hopens
  have hsound := hinv.sound (s.ops n).opener
  have hdone := hsound.executed_of_completed (hsound.completed_of_succeeded hopener hsucceeded)
  obtain ⟨r', b, hr', hb⟩ := hsound.done_of_executed hopener hdone
  have hserver : (s.ops (s.ops n).opener).serverPhase = some (.done b) := by
    rw [Operation.serverPhase, hr', Option.map_some, hb]
  obtain ⟨hfirst', filp, hfile⟩ := h.kept n (.inl ⟨hreturned, fun _ => hexecuted⟩) b hserver
  obtain rfl := Option.some.inj (hfirst.symm.trans hfirst')
  have hfilp := h.filp _ (mem_of_firstFile hfirst)
  rw [hfile] at hfilp
  rw [hfile, hfilp]
  rfl

end Steps

end Netdev.Kernel.Routing
