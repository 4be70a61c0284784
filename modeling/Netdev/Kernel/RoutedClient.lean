-- SUMMARY: The client's table in every run: a call that uses its file finds it first under the access id.
import Netdev.Kernel.RoutedCalls

/-!
# The client's table

Every open allocates a file of its own on the client. While the calls of a process
belong to one file, it is the first one in the table with the pid; a file that is
destroyed is used by no other call.
-/

namespace Netdev.Kernel.Routing
open Base Registry

/-- The call is under way with its file, or it has opened one. -/
def State.Uses (s : State) (n : Nat) : Prop :=
  ((s.ops n).returned = false ∧ (s.ops n).phase.acc? ≠ none ∧ (s.ops n).destroyed = false) ∨ s.fileOpen n

/-- What the client's table has for the calls. -/
structure ClientInv (d : DevId) (s : State) (files : List OpenFile) : Prop where
  lists : s.client.Lists d true files
  old : ∀ n a, (s.ops n).acc = some a → a.id < s.client.nextAcc
  owner : ∀ n n' a, (s.ops n).acc = some a → (s.ops n').acc = some a → (s.ops n).opener = (s.ops n').opener
  first : ∀ n, s.Uses n → ∀ a, (s.ops n).acc = some a → firstFile files (s.ops n).pid = some a

section Uses
variable {d e : DevId} {s s' : State} {n k : Nat} {op : Operation}

theorem State.Uses.busy (h : s.Uses n) : s.Busy n := by
  rcases h with ⟨hreturned, -⟩ | hopen
  · exact .inl (Operation.Sound.ended_eq_false hreturned)
  · exact .inr hopen

/-- An open file was woken for. -/
theorem State.Uses.phase (h : s.Uses n) (hinv : Inv d e s) :
    (s.ops n).phase.acc? ≠ none ∧ (s.ops n).destroyed = false := by
  rcases h with ⟨-, hrest⟩ | ⟨hopens, hsucceeded, -⟩
  · exact hrest
  · have hsound := hinv.sound n
    obtain ⟨a, hwoken⟩ := hsound.woken_of_succeeded hopens hsucceeded
    refine ⟨?_, Operation.not_destroyed (hsound.woken a hwoken)⟩
    rw [hwoken]
    simp [Outbound.acc?]

theorem Moves.uses_of_ne (h : Moves s s' n) (hne : k ≠ n) (huses : s'.Uses k) : s.Uses k := by
  rcases huses with hcall | hopen
  · rw [h.others k hne] at hcall
    exact .inl hcall
  · exact .inr (h.fileOpen_of_ne hopen hne)

theorem Moves.uses (h : Moves s s' n) (hn : s'.Uses n → s.Uses n) (huses : s'.Uses k) : s.Uses k := by
  by_cases hk : k = n
  · rw [hk] at huses ⊢
    exact hn huses
  · exact h.uses_of_ne hk huses

/-- A thread of `fo_recv` takes a step. -/
theorem Moves.uses_of_prog (h : Moves s s' n) (hprog : (s'.ops n).prog = (s.ops n).prog)
    (hphase : (s'.ops n).phase = (s.ops n).phase)
    (hdestroyed : (s'.ops n).destroyed = false → (s.ops n).destroyed = false) (huses : s'.Uses n) : s.Uses n := by
  rcases huses with ⟨hreturned, hacc, hnot⟩ | hopen
  · rw [Operation.returned, hprog] at hreturned
    rw [hphase] at hacc
    exact .inl ⟨hreturned, hacc, hdestroyed hnot⟩
  · refine .inr (h.fileOpen hopen fun hsucceeded => ?_)
    rw [Operation.succeeded, hprog] at hsucceeded
    exact hsucceeded

end Uses

/-! ## What a step does to the table -/

section Table
variable {d e : DevId} {s s' : State} {n : Nat} {files : List OpenFile} {a : AccRef} {op : Operation}

/-- The step leaves the table. -/
theorem ClientInv.same (h : ClientInv d s files) (hm : Moves s s' n) (hsame : s.client.SameOpen s'.client)
    (hacc : (s'.ops n).acc = (s.ops n).acc) (huses : s'.Uses n → s.Uses n) : ClientInv d s' files := by
  have haccs : ∀ k, (s'.ops k).acc = (s.ops k).acc := by
    intro k
    by_cases hk : k = n
    · rw [hk, hacc]
    · rw [hm.others k hk]
  refine ⟨h.lists.same hsame, fun k b hb => ?_, fun k k' b hb hb' => ?_, fun k hk b hb => ?_⟩
  · rw [hsame.nextAcc]
    exact h.old k b ((haccs k).symm.trans hb)
  · rw [(hm.all k).opener, (hm.all k').opener]
    exact h.owner k k' b ((haccs k).symm.trans hb) ((haccs k').symm.trans hb')
  · rw [(hm.all k).pid]
    exact h.first k (hm.uses huses hk) b ((haccs k).symm.trans hb)

/-- An open puts its file in front. No other call of the process is under way. -/
theorem ClientInv.starts (h : ClientInv d s files) (hinv : Inv d e s) (hm : Moves s s' n)
    (hopens : (s.ops n).opens = true) (hreturned : (s.ops n).returned = false)
    (hacc : (s'.ops n).acc = some a)
    (hstarts : StartsFile s.client d true files (s.ops n).pid (.ok (some a)) s'.client) :
    ClientInv d s' ((a, (s.ops n).pid) :: files) := by
  obtain ⟨hnew, hlists, hnext, -, -⟩ := hstarts
  have hid : a.id = s.client.nextAcc := by rw [hnew]
  have hfresh : ∀ k, (s.ops k).acc ≠ some a := by
    intro k hk
    have hlt := h.old k a hk
    omega
  have hothers : ∀ k b, k ≠ n → (s'.ops k).acc = some b → (s.ops k).acc = some b := by
    intro k b hk hb
    rw [hm.others k hk] at hb
    exact hb
  refine ⟨hlists, fun k b hb => ?_, fun k k' b hb hb' => ?_, fun k hk b hb => ?_⟩
  · rw [hnext]
    by_cases hkn : k = n
    · subst hkn
      obtain rfl := Option.some.inj (hacc.symm.trans hb)
      omega
    · exact Nat.lt_succ_of_lt (h.old k b (hothers k b hkn hb))
  · rw [(hm.all k).opener, (hm.all k').opener]
    by_cases hkn : k = n
    · by_cases hkn' : k' = n
      · rw [hkn, hkn']
      · subst hkn
        obtain rfl := Option.some.inj (hacc.symm.trans hb)
        exact absurd (hothers k' a hkn' hb') (hfresh k')
    · by_cases hkn' : k' = n
      · subst hkn'
        obtain rfl := Option.some.inj (hacc.symm.trans hb')
        exact absurd (hothers k a hkn hb) (hfresh k)
      · exact h.owner k k' b (hothers k b hkn hb) (hothers k' b hkn' hb')
  · rw [(hm.all k).pid]
    by_cases hkn : k = n
    · subst hkn
      obtain rfl := Option.some.inj (hacc.symm.trans hb)
      exact firstFile_cons_self
    · have huses := hm.uses_of_ne hkn hk
      have hold := hothers k b hkn hb
      have hlt : k < s.next := hinv.lt fun hinert => by
        rw [hinert] at hold
        cases hold
      have hpid : (s.ops n).pid ≠ (s.ops k).pid := fun heq =>
        hkn (hinv.eq_of_busy hm.lt hopens hm.ended (Operation.not_succeeded hreturned) hlt heq.symm huses.busy)
      rw [firstFile_cons_of_ne hpid]
      exact h.first k huses b hold

/-- A file that no call uses is destroyed. -/
theorem ClientInv.destroys (h : ClientInv d s files) (hm : Moves s s' n)
    (hdestroys : DestroysFile s.client d true files a (.ok ()) s'.client)
    (hacc : (s'.ops n).acc = (s.ops n).acc) (huses : s'.Uses n → s.Uses n)
    (hunused : ∀ k, s'.Uses k → (s.ops k).acc ≠ some a) :
    ClientInv d s' (files.filter fun f => f.1 ≠ a) := by
  obtain ⟨hlists, hnext, -⟩ := hdestroys
  have haccs : ∀ k, (s'.ops k).acc = (s.ops k).acc := by
    intro k
    by_cases hk : k = n
    · rw [hk, hacc]
    · rw [hm.others k hk]
  refine ⟨hlists, fun k b hb => ?_, fun k k' b hb hb' => ?_, fun k hk b hb => ?_⟩
  · rw [hnext]
    exact h.old k b ((haccs k).symm.trans hb)
  · rw [(hm.all k).opener, (hm.all k').opener]
    exact h.owner k k' b ((haccs k).symm.trans hb) ((haccs k').symm.trans hb')
  · rw [(hm.all k).pid]
    rw [haccs k] at hb
    refine firstFile_filter (h.first k (hm.uses huses hk) b hb) fun heq => ?_
    exact hunused k hk (by rw [hb, heq])

/-- A new call uses the file that its opener has. -/
theorem ClientInv.start (h : ClientInv d s files) (hinv : Inv d e s) (hbegins : Begins s op)
    (hop : ∀ a, op.acc = some a → s.fileOpen op.opener ∧ (s.ops op.opener).acc = some a ∧
      (s.ops op.opener).pid = op.pid) : ClientInv d (s.start op) files := by
  have howner : ∀ k b, k ≠ s.next → op.acc = some b → (s.ops k).acc = some b → op.opener = (s.ops k).opener := by
    intro k b hk hb hb'
    obtain ⟨hopen, hacc, -⟩ := hop b hb
    rw [← hinv.opens op.opener (hinv.fileOpen_lt hopen) hopen.1]
    exact h.owner op.opener k b hacc hb'
  refine ⟨h.lists, fun k b hb => ?_, fun k k' b hb hb' => ?_, fun k hk b hb => ?_⟩
  · by_cases hne : k = s.next
    · rw [hne, start_self] at hb
      exact h.old op.opener b (hop b hb).2.1
    · rw [start_of_ne hne] at hb
      exact h.old k b hb
  · by_cases hne : k = s.next
    · by_cases hne' : k' = s.next
      · rw [hne, hne']
      · rw [hne, start_self] at hb ⊢
        rw [start_of_ne hne'] at hb' ⊢
        exact howner k' b hne' hb hb'
    · by_cases hne' : k' = s.next
      · rw [hne', start_self] at hb' ⊢
        rw [start_of_ne hne] at hb ⊢
        exact (howner k b hne hb' hb).symm
      · rw [start_of_ne hne] at hb ⊢
        rw [start_of_ne hne'] at hb' ⊢
        exact h.owner k k' b hb hb'
  · by_cases hne : k = s.next
    · rw [hne, start_self] at hb ⊢
      obtain ⟨hopen, hacc, hpid⟩ := hop b hb
      rw [← hpid]
      exact h.first op.opener (.inr hopen) b hacc
    · rw [start_of_ne hne] at hb ⊢
      have hold : s.Uses k := by
        rcases hk with hcall | hopen
        · rw [start_of_ne hne] at hcall
          exact .inl hcall
        · exact .inr (hbegins.fileOpen hopen).2.1
      exact h.first k hold b hb

end Table

/-! ## The steps of the client -/

section Steps
variable {d e : DevId} {s s' : State} {n : Nat} {files : List OpenFile} {env : FoEnv} {prog' : FoM Int32}
  {event : Option FileEvent} {r : Receiver} {accessId : Option Int32}

/-- What `fo_send` does. -/
theorem ClientInv.send (h : ClientInv d s files) (hinv : Inv d e s) (hinv' : Inv d e s') (hm : Moves s s' n)
    (hp : Performs env s.client (s.ops n).prog event prog' s'.client)
    (hop : s'.ops n = (s.ops n).goOn d accessId event prog') : ∃ files', ClientInv d s' files' := by
  have hsound := hinv.sound n
  have hdestroyed : (s'.ops n).destroyed = (s.ops n).destroyed := by
    rw [hop]
    cases event with
    | none => rfl
    | some event => rfl
  have huses : (s.ops n).phase.acc? ≠ none → s'.Uses n → s.Uses n := fun hacc hu =>
    .inl ⟨hp.not_returned, hacc, hdestroyed.symm.trans (hu.phase hinv').2⟩
  cases event with
  | none =>
      have hphase : (s'.ops n).phase = (s.ops n).phase := by
        rw [hop]
        rfl
      refine ⟨files, h.same hm hp.sameOpen (by rw [hop]; rfl) fun hu => huses ?_ hu⟩
      rw [← hphase]
      exact (hu.phase hinv').1
  | some event =>
      have hacc' : (s'.ops n).acc = accAfter (s.ops n).acc event := by
        rw [hop]
        rfl
      have hphase' : (s'.ops n).phase = (s.ops n).phase.after d (s.ops n).pid (s.ops n).releases event := by
        rw [hop]
        rfl
      obtain ⟨-, hstep⟩ := hsound.course.performs hp
      have heffect := hp.effect h.lists
      rw [← hphase'] at hstep
      have hclosed : (s'.ops n).phase = .closed → ¬ s'.Uses n := by
        intro hclosed hu
        refine (hu.phase hinv').1 ?_
        rw [hclosed]
        rfl
      generalize hph' : (s'.ops n).phase = ph' at hstep
      generalize hph : (s.ops n).phase = ph at hstep huses
      cases hstep with
      | @start a => exact ⟨_, h.starts hinv hm (hsound.opening hph).1 hp.not_returned hacc' (heffect rfl)⟩
      | noStart => exact ⟨files, h.same hm (heffect rfl) hacc' fun hu => absurd hu (hclosed hph')⟩
      | @destroy a _ hph hrel =>
          have hacc : (s.ops n).acc = some a := by
            apply hsound.acc
            rcases hph with rfl | rfl
            · simp [*, Outbound.acc?]
            · simp [*, Outbound.acc?]
          have hd := heffect (hsound.nddata a hacc)
          refine ⟨_, h.destroys hm hd hacc' (fun hu => absurd hu (hclosed hph')) fun k hk hacck => ?_⟩
          have hkn : k ≠ n := by
            rintro rfl
            exact hclosed hph' hk
          have howner := h.owner k n a hacck hacc
          have hlt : k < s.next := hinv.lt fun hinert => by
            rw [hinert] at hacck
            cases hacck
          have hreturned := hinv.released n hm.lt hrel k hlt hkn howner
          rcases hm.uses_of_ne hkn hk with ⟨hnot, -⟩ | hopen
          · rw [hreturned] at hnot
            cases hnot
          · have hnot := hopen.2.2 n hm.lt (howner.symm.trans (hinv.opens k hlt hopen.1))
            rw [hrel] at hnot
            cases hnot
      | @sent a => exact ⟨files, h.same hm heffect hacc' (huses (by simp [Outbound.acc?]))⟩
      | @unsent a => exact ⟨files, h.same hm heffect hacc' (huses (by simp [Outbound.acc?]))⟩
      | @wake a => exact ⟨files, h.same hm heffect hacc' (huses (by simp [Outbound.acc?]))⟩
      | @ready a => exact ⟨files, h.same hm heffect hacc' (huses (by simp [Outbound.acc?]))⟩
      | @woken a => exact ⟨files, h.same hm heffect hacc' (huses (by simp [Outbound.acc?]))⟩

/-- What `fo_recv` of the client does. The reply to an open that cannot be completed
destroys a file that has no other call yet. -/
theorem ClientInv.answer (h : ClientInv d s files) (hinv : Inv d e s) (hinv' : Inv d e s') (hm : Moves s s' n)
    (hanswer : (s.ops n).answer = some r) (hp : Performs env s.client r.prog event prog' s'.client)
    (hop : s'.ops n = { s.ops n with answer := some (r.goOn true d event prog') }) :
    ∃ files', ClientInv d s' files' := by
  have hsound := hinv.sound n
  have hacc' : (s'.ops n).acc = (s.ops n).acc := by rw [hop]
  have hold : (s.ops n).destroyed = decide (r.phase = .failed) := by
    rw [Operation.destroyed, hanswer]
    rfl
  have hnew : (s'.ops n).destroyed = decide ((r.goOn true d event prog').phase = .failed) := by
    rw [hop]
    rfl
  have huses : (r.phase = .failed → (r.goOn true d event prog').phase = .failed) → s'.Uses n → s.Uses n := by
    intro hfailed
    refine hm.uses_of_prog (by rw [hop]) (by rw [hop]) fun hnot => ?_
    rw [hnew, decide_eq_false_iff_not] at hnot
    rw [hold, decide_eq_false_iff_not]
    exact fun hf => hnot (hfailed hf)
  cases event with
  | none => exact ⟨files, h.same hm hp.sameOpen hacc' (huses id)⟩
  | some event =>
      obtain ⟨-, hstep⟩ := (hsound.answer r hanswer).goOn hp h.lists
      obtain ⟨-, hmissed, hfile, -⟩ := hsound.answered r hanswer
      have heffect := hp.effect h.lists
      generalize hph' : (r.goOn true d (some event) prog').phase = ph' at hstep huses hnew
      generalize hph : r.phase = ph at hstep huses hmissed hfile
      cases hstep with
      | found => exact ⟨files, h.same hm heffect.1 hacc' (huses nofun)⟩
      | missed => exact ⟨files, h.same hm heffect.1 hacc' (huses nofun)⟩
      | start _ => exact absurd rfl hmissed
      | noStart _ => exact absurd rfl hmissed
      | search _ => exact ⟨files, h.same hm heffect hacc' (huses nofun)⟩
      | complete _ => exact ⟨files, h.same hm heffect hacc' (huses nofun)⟩
      | execute hserver => cases hserver
      | release hserver _ => cases hserver
      | kind => exact ⟨files, h.same hm heffect.1 hacc' (huses id)⟩
      | other => exact ⟨files, h.same hm heffect hacc' (huses id)⟩
      | @fail a _ hopen =>
          have hacc : (s.ops n).acc = some a := hfile a rfl
          have hopens := (hsound.answer r hanswer).opens_iff.mp hopen
          have hself := hinv.opens n hm.lt hopens
          have hpending := hsound.pending hanswer (by rw [hph]; rfl)
          have hd := heffect (hsound.nddata a hacc)
          refine ⟨_, h.destroys hm hd hacc' (huses nofun) fun k hk hacck => ?_⟩
          have howner := (h.owner k n a hacck hacc).trans hself
          have hlt : k < s.next := hinv.lt fun hinert => by
            rw [hinert] at hacck
            cases hacck
          cases hopens' : (s.ops k).opens with
          | true =>
              obtain rfl : k = n := (hinv.opens k hlt hopens').symm.trans howner
              have hnot := (hk.phase hinv').2
              rw [hnew] at hnot
              cases hnot
          | false =>
              have hsucceeded := (hinv.opener k hlt hopens').2.2.1
              rw [howner, Operation.not_succeeded hpending.2.1] at hsucceeded
              cases hsucceeded

/-- A step that does not touch the client. -/
theorem ClientInv.idle (h : ClientInv d s files) (hm : Moves s s' n) (hclient : s'.client = s.client)
    (hacc : (s'.ops n).acc = (s.ops n).acc) (hprog : (s'.ops n).prog = (s.ops n).prog)
    (hphase : (s'.ops n).phase = (s.ops n).phase)
    (hdestroyed : (s'.ops n).destroyed = false → (s.ops n).destroyed = false) : ClientInv d s' files := by
  refine h.same hm ?_ hacc (hm.uses_of_prog hprog hphase hdestroyed)
  rw [hclient]
  exact .refl _

end Steps

/-! ## What a thread finds -/

section Finds
variable {d e : DevId} {s : State} {n : Nat} {files : List OpenFile} {a : AccRef}

/-- The access id of a request is the pid of its process. -/
theorem ClientInv.accessId (h : ClientInv d s files) (hinv : Inv d e s) (hreturned : (s.ops n).returned = false)
    (hphase : (s.ops n).phase = .ready a) :
    ((s.ops n).acc.bind s.client.accs).map Acc.accessId = some (s.ops n).pid := by
  have hsound := hinv.sound n
  have hacc := hsound.acc a (by rw [hphase]; rfl)
  have hdestroyed : (s.ops n).destroyed = false := by
    rw [Operation.destroyed, (hsound.unanswered (hsound.unsent (.inr ⟨a, hphase⟩))).2]
    rfl
  have hfirst := h.first n (.inl ⟨hreturned, by simp [hphase, Outbound.acc?], hdestroyed⟩) a hacc
  rw [hacc, Option.bind_some]
  exact h.lists.accessId (mem_of_firstFile hfirst)

/-- A reply that gets the lock is looked up in the file of its request. -/
theorem ClientInv.lookup (h : ClientInv d s files) (hinv : Inv d e s) {r : Receiver} {env : FoEnv}
    {prog' : FoM Int32} {reg' : Registry} {d' : DevId} {pid : Int32} {acc : Option AccRef}
    (hanswer : (s.ops n).answer = some r)
    (hp : Performs env s.client r.prog (some (.lookup d' pid acc)) prog' reg')
    (hlock : r.phase = .lookup → env.free = true ∧ Sem.dev d ∉ s.client.stuck) :
    acc ≠ none ∧ (s.ops n).acc = acc := by
  have hsound := hinv.sound n
  have hr := hsound.answer r hanswer
  obtain ⟨-, hstep⟩ := hr.goOn hp h.lists
  have hroute : r.phase = .lookup ∧ d' = d ∧ pid = asInt r.nlh.payload := by
    generalize (r.goOn true d (some (.lookup d' pid acc)) prog').phase = ph' at hstep
    generalize r.phase = ph at hstep
    cases hstep with
    | found => exact ⟨rfl, rfl, rfl⟩
    | missed => exact ⟨rfl, rfl, rfl⟩
  obtain ⟨hphase, rfl, rfl⟩ := hroute
  have hfind := (hp.effect h.lists).2 rfl
  rw [if_pos (hlock hphase), hr.pid] at hfind
  obtain ⟨-, hreturned, a, hwaiting⟩ := hsound.pending hanswer (by rw [hphase]; rfl)
  have hacc := hsound.acc a (by rw [hwaiting]; rfl)
  have hdestroyed : (s.ops n).destroyed = false := by
    rw [Operation.destroyed, hanswer, Option.any_some, hphase]
    rfl
  have hfirst := h.first n (.inl ⟨hreturned, by simp [hwaiting, Outbound.acc?], hdestroyed⟩) a hacc
  rw [hfind, hfirst]
  exact ⟨by simp, hacc⟩

end Finds

end Netdev.Kernel.Routing
