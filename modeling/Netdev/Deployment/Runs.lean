-- SUMMARY: In every run of two kernels and two daemons each call is executed once, on its own file, and answered.
import Netdev.Daemon.Draining
import Netdev.Deployment.System

/-!
# Runs of the two machines

The calls whose messages a kernel has queued are written down in order. What ties the
kernels to the daemons is that the threads of a machine are those of the calls at the places
of the messages that have come.
-/

namespace Netdev.Deployment
open Base Kernel Daemon Tunnel

/-! ## What came of the calls -/

section
variable {α β : Type} {xs : List α} {ys : List β}

theorem zip_concat {x : α} {y : β} (h : xs[ys.length]? = some x) :
    xs.zip (ys ++ [y]) = xs.zip ys ++ [(x, y)] := by
  induction ys generalizing xs with
  | nil =>
      cases xs with
      | nil => cases h
      | cons a xs =>
          obtain rfl : a = x := by simpa using h
          simp
  | cons b ys ih =>
      cases xs with
      | nil => cases h
      | cons a xs =>
          have hrest := @ih xs (by simpa using h)
          simp [hrest]

theorem zip_left_concat (h : ys.length ≤ xs.length) (x : α) : (xs ++ [x]).zip ys = xs.zip ys := by
  induction xs generalizing ys with
  | nil =>
      obtain rfl : ys = [] := List.length_eq_zero_iff.mp (Nat.le_zero.mp h)
      rfl
  | cons a xs ih =>
      cases ys with
      | nil => simp
      | cons b ys => simp [ih (Nat.le_of_succ_le_succ h)]

end

/-- What each entry is paired with. -/
theorem exists_of_mem {α β : Type} {R : α → β → Prop} {xs : List α} {ys : List β} (h : List.Forall₂ R xs ys)
    {x : α} (hx : x ∈ xs) : ∃ y ∈ ys, R x y := by
  induction h with
  | nil => cases hx
  | @cons a b xs ys hab _ ih =>
      rcases List.mem_cons.mp hx with rfl | hx
      · exact ⟨b, List.mem_cons_self, hab⟩
      · obtain ⟨y, hy, hxy⟩ := ih hx
        exact ⟨y, List.mem_cons_of_mem b hy, hxy⟩

theorem exists_of_getElem? {α β : Type} {R : α → β → Prop} {xs : List α} {ys : List β} (h : List.Forall₂ R xs ys)
    {i : Nat} {y : β} (hy : ys[i]? = some y) : ∃ x, xs[i]? = some x ∧ R x y := by
  induction h generalizing i with
  | nil => cases hy
  | @cons a b xs ys hab _ ih =>
      cases i with
      | zero =>
          obtain rfl : b = y := by simpa using hy
          exact ⟨a, rfl, hab⟩
      | succ i => exact ih hy

/-- The threads are those of the messages that came, each with the call of its place. -/
def Came (calls : List Nat) (delivered : List NlMessage) (threads : Nat → Option Routing.Receiver) : Prop :=
  ∀ n nlh, (threads n).map Routing.Receiver.nlh = some nlh ↔ (n, nlh) ∈ calls.zip delivered

section
variable {calls : List Nat} {delivered : List NlMessage} {threads threads' : Nat → Option Routing.Receiver}
  {n : Nat}

theorem Came.steady (h : Came calls delivered threads)
    (hsame : ∀ n, (threads' n).map Routing.Receiver.nlh = (threads n).map Routing.Receiver.nlh) :
    Came calls delivered threads' := by
  intro n nlh
  rw [hsame]
  exact h n nlh

theorem Came.post (h : Came calls delivered threads) (hle : delivered.length ≤ calls.length) (n : Nat) :
    Came (calls ++ [n]) delivered threads := by
  rw [Came, zip_left_concat hle]
  exact h

/-- The next one to come has not come. -/
theorem Came.eq_none (h : Came calls delivered threads) (hnodup : calls.Nodup)
    (hn : calls[delivered.length]? = some n) : threads n = none := by
  cases hthread : threads n with
  | none => rfl
  | some r =>
      have hmem := (h n r.nlh).mp (by rw [hthread]; rfl)
      obtain ⟨i, hi⟩ := List.mem_iff_getElem?.mp hmem
      obtain ⟨hcall, hcame⟩ := List.getElem?_zip_eq_some.mp hi
      have hlt : i < delivered.length := (List.getElem?_eq_some_iff.mp hcame).1
      have hle : delivered.length < calls.length := (List.getElem?_eq_some_iff.mp hn).1
      have heq := (List.getElem?_inj (Nat.lt_trans hlt hle) hnodup).mp (hcall.trans hn.symm)
      exact absurd heq (Nat.ne_of_lt hlt)

theorem Came.arrive (h : Came calls delivered threads) (hnodup : calls.Nodup)
    (hn : calls[delivered.length]? = some n) (r : Routing.Receiver) :
    Came calls (delivered ++ [r.nlh]) (Function.update threads n (some r)) := by
  intro k nlh
  rw [zip_concat hn, List.mem_append, List.mem_singleton, ← h k nlh]
  by_cases hk : k = n
  · subst hk
    rw [Function.update_self, h.eq_none hnodup hn]
    simp [eq_comm]
  · rw [Function.update_of_ne hk]
    simp [hk]

end

/-! ## A step of a daemon -/

section
variable {link : Link} {t t' : Tunnel.State} {p : Party}

theorem delivered_of_queued (h : Tunnel.Inv link t) (p : Party) :
    (t p).delivered <+: (t p.peer).proxy.wire.queued.map (relayed (link.pid p)) := by
  have hconveys := h.conveys p.peer
  rw [Party.peer_peer] at hconveys
  obtain ⟨handling, passing, -, -, horder, -⟩ := hconveys.order
  exact ⟨_, by simpa only [List.append_assoc] using horder⟩

/-- What a daemon gives to its kernel is a message of the other kernel, and it starts a thread. -/
theorem started_nlSend {e : Event DaemonI} {env : RecvEnv} (h : Tunnel.Inv link t) (p : Party)
    (hlast : ∀ m ∈ deliveredBy e, m ∈ (t p).delivered) {inbound : List Message} {w : Wire}
    (hsmooth : SmoothEvent inbound w env e) :
    (started link.version (.op e env)).toList = deliveredBy e := by
  obtain ⟨op, r⟩ := e
  cases op with
  | nlSend m =>
      obtain ⟨-, hfound, hthread⟩ := hsmooth
      have hmem := (delivered_of_queued h p).subset (hlast m (List.mem_singleton.mpr rfl))
      obtain ⟨m₀, hqueued, rfl⟩ := List.mem_map.mp hmem
      have hrecv := (h.carried p.peer m₀ hqueued).netlinkRecv (link.pid_ne p) hfound hthread link.version
      simp only [started, hrecv]
      rfl
  | _ => rfl

theorem daemon_step (h : Tunnel.Inv link t) {l : Proxy.Label} (hstep : Tunnel.Step link t (p, l) t')
    (hsmooth : Smooth t (p, l)) (hl : ∀ m, l ≠ .queue m) :
    Tunnel.Inv link t' ∧ (∀ q, (t' q).proxy.wire.queued = (t q).proxy.wire.queued) ∧
      (t' p).delivered = (t p).delivered ++ (started link.version l).toList ∧
      ∀ q, q ≠ p → (t' q).delivered = (t q).delivered := by
  have hinv : Tunnel.Inv link t' := (system_inv link).step t (p, l) t' h ⟨hstep, hsmooth⟩
  refine ⟨hinv, ?_⟩
  cases hstep with
  | @op _ e env inbound proxy hproxy hinbound =>
      have hself : t.after p e inbound proxy p = ((t p).after e inbound).step proxy := if_pos rfl
      have hdelivered : (t.after p e inbound proxy p).delivered = (t p).delivered ++ deliveredBy e := by
        rw [hself]
        rfl
      refine ⟨fun q => ?_, ?_, fun q hq => ?_⟩
      · by_cases hq : q = p
        · subst hq
          rw [hself]
          exact (@step_op _ _ ((t q).received, (t q).delivered) _ _ _ _ hproxy).2.1
        · rw [Tunnel.State.after, if_neg hq]
      · rw [started_nlSend hinv p (fun m hm => hdelivered ▸ List.mem_append_right _ hm) hsmooth]
        exact hdelivered
      · rw [Tunnel.State.after, if_neg hq]
  | @quiet _ _ proxy hproxy hne =>
      have hstarted : started link.version l = none := by
        cases l with
        | op e env => exact absurd rfl (hne e env)
        | _ => rfl
      have hqueued : queuedBy l = [] := by
        cases l with
        | queue m => exact absurd rfl (hl m)
        | _ => rfl
      refine ⟨fun q => ?_, ?_, fun q hq => ?_⟩
      · by_cases hq : q = p
        · subst hq
          have hsame := (@step_quiet _ _ ((t q).received, (t q).delivered) _ _ _ hproxy hne).2.1
          rw [hqueued, List.append_nil] at hsame
          rw [Function.update_self]
          exact hsame
        · rw [Function.update_of_ne hq]
      · rw [Function.update_self, hstarted, Option.toList_none, List.append_nil]
        rfl
      · rw [Function.update_of_ne hq]

end

/-! ## Runs -/

/-- What holds of the two kernels and the two daemons together. -/
structure Coupled (d e : DevId) (link : Link) (s : State) : Prop where
  refines : ∃ ls, ((Routing.system d e).restrict (Routing.Unshared d)).Run ls s.kernels
  daemons : Tunnel.Inv link s.daemons
  addressed : ∀ p, ∀ m ∈ (s.daemons p).proxy.wire.queued, Addressed m
  fits : ∀ p, List.Forall₂ (fun n m => Fits (s.kernels.ops n) p m) (s.posted p) (s.daemons p).proxy.wire.queued
  nodup : ∀ p, (s.posted p).Nodup
  came : ∀ p, Came (s.posted p.peer) (s.daemons p).delivered fun n => thread (s.kernels.ops n) p
  sent : ∀ n, (s.kernels.ops n).sent ≠ none → n ∈ s.posted .client

section
variable {d e : DevId} {link : Link} {s s' : State} {kernels : Routing.State} {n : Nat} {p : Party}

theorem Coupled.kept (h : Coupled d e link s) : Routing.Kept d e s.kernels := by
  obtain ⟨ls, hrun⟩ := h.refines
  exact hrun.invariant Routing.kept_invariant

/-- The two kernels take a step. -/
theorem Coupled.goOn (h : Coupled d e link s) {l : Routing.Label}
    (hstep : Routing.step? d e s.kernels l = some kernels) (hunshared : Routing.Unshared d s.kernels l) :
    ∃ ls, ((Routing.system d e).restrict (Routing.Unshared d)).Run ls kernels := by
  obtain ⟨ls, hrun⟩ := h.refines
  exact ⟨_, hrun.step ⟨hstep, hunshared⟩⟩

/-- No message comes that was not queued. -/
theorem Coupled.length_le (h : Coupled d e link s) (p : Party) :
    (s.daemons p).delivered.length ≤ (s.posted p.peer).length := by
  rw [(h.fits p.peer).length_eq]
  simpa using (delivered_of_queued h.daemons p).length_le

theorem Coupled.kernel (h : Coupled d e link s) {l : Routing.Label} (hquiet : Quiet s.kernels l)
    (hstep : Routing.step? d e s.kernels l = some kernels) (hunshared : Routing.Unshared d s.kernels l) :
    Coupled d e link { s with kernels } := by
  have hsteady : ∀ n, Steady (s.kernels.ops n) (kernels.ops n) := by
    refine steady_step h.kept hstep ?_ ?_
    · rintro n nlh rfl
      exact hquiet
    · rintro n nlh rfl
      exact hquiet
  refine ⟨h.goOn hstep hunshared, h.daemons, h.addressed, fun p => ?_, h.nodup, fun p => ?_, fun n hn => ?_⟩
  · exact (h.fits p).imp fun n m hm => (hsteady n).fits p m hm
  · exact (h.came p).steady fun n => (hsteady n).thread p
  · rw [sent_of_quiet h.kept hstep hquiet] at hn
    exact h.sent n hn

/-- A thread of `p` queues a message of the call. -/
theorem Coupled.post (h : Coupled d e link s) {m : FoMessage}
    (hrefines : ∃ ls, ((Routing.system d e).restrict (Routing.Unshared d)).Run ls kernels)
    (hsteady : ∀ n, Steady (s.kernels.ops n) (kernels.ops n)) (hm : Addressed m.val)
    (hfits : Fits (kernels.ops n) p m.val) (hnew : ∀ m, ¬ Fits (s.kernels.ops n) p m)
    (hsent : ∀ i, (kernels.ops i).sent ≠ none → i ∈ s.posted .client ∨ p = .client ∧ i = n) :
    Coupled d e link (s.post kernels p n m) := by
  have hinv : Tunnel.Inv link (s.post kernels p n m).daemons :=
    h.daemons.quiet (.queue m) (by simp) hm.carried
  have hproxy : ((s.post kernels p n m).daemons p).proxy.wire.queued
      = (s.daemons p).proxy.wire.queued ++ [m.val] := by
    simp [State.post, Side.step, Wire.queueFo]
  have hother : ∀ q, q ≠ p → (s.post kernels p n m).daemons q = s.daemons q :=
    fun q hq => Function.update_of_ne hq ..
  have hdelivered : ∀ q, ((s.post kernels p n m).daemons q).delivered = (s.daemons q).delivered := by
    intro q
    by_cases hq : q = p
    · subst hq
      simp [State.post, Side.step]
    · rw [hother q hq]
  have hposted : (s.post kernels p n m).posted p = s.posted p ++ [n] := Function.update_self ..
  have hposted' : ∀ q, q ≠ p → (s.post kernels p n m).posted q = s.posted q :=
    fun q hq => Function.update_of_ne hq ..
  have hfresh : n ∉ s.posted p := by
    intro hmem
    obtain ⟨m', -, hm'⟩ := exists_of_mem (h.fits p) hmem
    exact hnew m' hm'
  refine ⟨hrefines, hinv, fun q => ?_, fun q => ?_, fun q => ?_, fun q => ?_, fun i hi => ?_⟩
  · by_cases hq : q = p
    · subst hq
      rw [hproxy]
      intro m' hm'
      rcases List.mem_append.mp hm' with hold | hnew
      · exact h.addressed q m' hold
      · rw [List.mem_singleton.mp hnew]
        exact hm
    · rw [hother q hq]
      exact h.addressed q
  · have hold := (h.fits q).imp fun n m hm => (hsteady n).fits q m hm
    by_cases hq : q = p
    · subst hq
      rw [hproxy, hposted]
      exact List.rel_append hold (.cons hfits .nil)
    · rw [hother q hq, hposted' q hq]
      exact hold
  · by_cases hq : q = p
    · subst hq
      rw [hposted]
      refine List.nodup_append.mpr ⟨h.nodup q, List.nodup_singleton n, ?_⟩
      rintro i hi j hj rfl
      exact hfresh (List.mem_singleton.mp hj ▸ hi)
    · rw [hposted' q hq]
      exact h.nodup q
  · have hold : Came (s.posted q.peer) (s.daemons q).delivered fun n => thread (kernels.ops n) q :=
      (h.came q).steady fun n => (hsteady n).thread q
    rw [hdelivered]
    by_cases hq : q.peer = p
    · rw [hq] at hold ⊢
      rw [hposted]
      exact hold.post (hq ▸ h.length_le q) n
    · rw [hposted' _ hq]
      exact hold
  · rcases hsent i hi with hold | ⟨rfl, rfl⟩
    · by_cases hq : Party.client = p
      · rw [← hq] at hposted ⊢
        rw [hposted]
        exact List.mem_append_left _ hold
      · rw [hposted' _ hq]
        exact hold
    · rw [hposted]
      exact List.mem_append_right _ (List.mem_singleton.mpr rfl)

theorem Coupled.request (h : Coupled d e link s) {env : FoEnv} {m : FoMessage} {accessId : Int32} {flags : UInt16}
    {seq : UInt32} {stale : Int64} (hsending : sending s.kernels n env = true)
    (hstep : Routing.step? d e s.kernels (.send n env) = some kernels)
    (hid : accessId? s.kernels n = some accessId)
    (hm : m.val = request (link.pid .client) (s.kernels.ops n).call accessId flags seq stale) :
    Coupled d e link (s.post kernels .client n m) := by
  obtain ⟨hnone, hunshared, hcall, hsent⟩ := request_step h.kept hsending hstep
  obtain ⟨event, prog, -, hops⟩ := step_send hstep
  refine h.post (h.goOn hstep hunshared) (steady_step h.kept hstep (by simp) (by simp)) ?_ ⟨?_, ?_⟩ ?_ ?_
  · rw [hm]
    exact addressed_request _ _ _ _ _
  · rw [hsent, hid, hm, asInt_request]
  · rw [hm, hcall, msgtype_request]
  · intro m' hm'
    exact absurd (hm'.sent.symm.trans hnone) (by simp)
  · intro i hi
    by_cases hn : i = n
    · exact .inr ⟨rfl, hn⟩
    · rw [hops, Function.update_of_ne hn] at hi
      exact .inl (h.sent i hi)

/-- What comes can be answered. -/
theorem Coupled.addressed_delivered (h : Coupled d e link s) {nlh : NlMessage}
    (hnlh : nlh ∈ (s.daemons p).delivered) : Addressed nlh := by
  obtain ⟨m, hm, rfl⟩ := List.mem_map.mp ((delivered_of_queued h.daemons p).subset hnlh)
  exact (h.addressed p.peer m hm).relayed

theorem Coupled.reply (h : Coupled d e link s) {env : FoEnv} {m : FoMessage}
    (hreplying : replying s.kernels n env = some m.val)
    (hstep : Routing.step? d e s.kernels (.serve n env) = some kernels) (hlen : m.val.bytes.length < 2 ^ 32) :
    Coupled d e link (s.post kernels .server n m) := by
  obtain ⟨r, hserve, hnot, hreshaped, hanswers⟩ := reply_step h.kept hreplying hstep
  refine h.post (h.goOn hstep trivial) (steady_step h.kept hstep (by simp) (by simp)) ?_ hanswers ?_ ?_
  · have hcame := (h.came .server n r.nlh).mp (congrArg (Option.map _) hserve)
    exact hreshaped.addressed (h.addressed_delivered (List.of_mem_zip hcame).2) hlen
  · rintro m' ⟨r', hserve', hexecuted, -⟩
    obtain rfl := Option.some.inj (hserve.symm.trans hserve')
    exact absurd (hnot.symm.trans hexecuted) (by simp)
  · intro i hi
    rw [sent_of_quiet h.kept hstep trivial] at hi
    exact .inl (h.sent i hi)

/-- A message that comes is the next one that was queued, and a thread of its call starts. -/
theorem Coupled.arrive (h : Coupled d e link s) {daemons : Tunnel.State} {nlh : NlMessage}
    (hinv : Tunnel.Inv link daemons)
    (hqueued : ∀ q, (daemons q).proxy.wire.queued = (s.daemons q).proxy.wire.queued)
    (hself : (daemons p).delivered = (s.daemons p).delivered ++ [nlh])
    (hother : ∀ q, q ≠ p → (daemons q).delivered = (s.daemons q).delivered) :
    Coupled d e link { s with kernels := s.arrive d e p (some nlh), daemons } := by
  have hpart := delivered_of_queued hinv p
  rw [hself, hqueued] at hpart
  -- the place of the message on the socket of the other machine
  obtain ⟨m, hm, hnlh⟩ : ∃ m, (s.daemons p.peer).proxy.wire.queued[(s.daemons p).delivered.length]? = some m ∧
      relayed (link.pid p) m = nlh := by
    obtain ⟨rest, hrest⟩ := hpart
    have hplace : ((s.daemons p.peer).proxy.wire.queued.map
        (relayed (link.pid p)))[(s.daemons p).delivered.length]? = some nlh := by
      rw [← hrest]
      simp
    rw [List.getElem?_map] at hplace
    exact Option.map_eq_some_iff.mp hplace
  obtain ⟨n, hn, hfits⟩ : ∃ n, (s.posted p.peer)[(s.daemons p).delivered.length]? = some n ∧
      Fits (s.kernels.ops n) p.peer m := exists_of_getElem? (h.fits p.peer) hm
  have hnone : thread (s.kernels.ops n) p = none := (h.came p).eq_none (h.nodup p.peer) hn
  have hroute : SameRoute m nlh := hnlh ▸ sameRoute_relayed (h.addressed p.peer m (List.mem_of_getElem? hm))
  obtain ⟨l, hstep, hunshared⟩ := @arrive_step d e s.kernels n m nlh p hfits hroute hnone
  have harrive : s.arrive d e p (some nlh) = s.kernels.setOp n
      (withThread (s.kernels.ops n) ⟨nlh, foRecvDev (device d e p) nlh, .lookup⟩ p) := by
    simp only [State.arrive, hn]
  rw [harrive]
  generalize hr : (⟨nlh, foRecvDev (device d e p) nlh, .lookup⟩ : Routing.Receiver) = r at hstep ⊢
  have hops : ∀ i, i ≠ n → (s.kernels.setOp n (withThread (s.kernels.ops n) r p)).ops i = s.kernels.ops i :=
    fun i hi => Function.update_of_ne hi ..
  have hop : (s.kernels.setOp n (withThread (s.kernels.ops n) r p)).ops n = withThread (s.kernels.ops n) r p :=
    Function.update_self ..
  refine ⟨h.goOn hstep hunshared, hinv, fun q => ?_, fun q => ?_, h.nodup, fun q => ?_, fun i hi => ?_⟩
  · rw [hqueued]
    exact h.addressed q
  · rw [hqueued]
    refine (h.fits q).imp fun i m' hm' => ?_
    by_cases hi : i = n
    · subst hi
      rw [hop]
      exact steady_withThread hnone q m' hm'
    · rw [hops i hi]
      exact hm'
  · by_cases hq : q = p
    · subst hq
      have hnew := (h.came q).arrive (h.nodup q.peer) hn r
      rw [hself, show nlh = r.nlh by rw [← hr]]
      refine hnew.steady fun i => ?_
      by_cases hi : i = n
      · subst hi
        rw [hop, thread_withThread, if_pos rfl, Function.update_self]
      · rw [hops i hi, Function.update_of_ne hi]
    · rw [hother q hq]
      refine (h.came q).steady fun i => ?_
      by_cases hi : i = n
      · subst hi
        rw [hop, thread_withThread, if_neg hq]
      · rw [hops i hi]
  · refine h.sent i ?_
    by_cases heq : i = n
    · subst heq
      rw [hop, sent_withThread] at hi
      exact hi
    · rw [hops i heq] at hi
      exact hi

theorem Coupled.daemon (h : Coupled d e link s) {l : Proxy.Label} {daemons : Tunnel.State}
    (hl : ∀ m, l ≠ .queue m) (hstep : Tunnel.Step link s.daemons (p, l) daemons)
    (hsmooth : Smooth s.daemons (p, l)) :
    Coupled d e link { s with kernels := s.arrive d e p (started link.version l), daemons } := by
  obtain ⟨hinv, hqueued, hself, hother⟩ := daemon_step h.daemons hstep hsmooth hl
  cases hstarted : started link.version l with
  | some nlh =>
      rw [hstarted] at hself
      exact h.arrive hinv hqueued hself hother
  | none =>
      rw [hstarted, Option.toList_none, List.append_nil] at hself
      have hdelivered : ∀ q, (daemons q).delivered = (s.daemons q).delivered := by
        intro q
        by_cases hq : q = p
        · rw [hq, hself]
        · exact hother q hq
      refine ⟨h.refines, hinv, fun q => ?_, fun q => ?_, h.nodup, fun q => ?_, h.sent⟩
      · rw [hqueued]
        exact h.addressed q
      · rw [hqueued]
        exact h.fits q
      · rw [hdelivered]
        exact h.came q

/-- All that was queued has come. -/
theorem Coupled.idle (h : Coupled d e link s) (hidle : ∀ p, (s.daemons p).Idle) (p : Party) {n : Nat}
    (hn : n ∈ s.posted p.peer) : thread (s.kernels.ops n) p ≠ none := by
  have hall := h.daemons.delivered hidle p.peer
  rw [Party.peer_peer] at hall
  have hlen : (s.posted p.peer).length = (s.daemons p).delivered.length := by
    rw [hall, List.length_map, (h.fits p.peer).length_eq]
  obtain ⟨i, hi⟩ := List.mem_iff_getElem?.mp hn
  have hlt : i < (s.daemons p).delivered.length := hlen ▸ (List.getElem?_eq_some_iff.mp hi).1
  have hmem : (n, (s.daemons p).delivered[i]) ∈ (s.posted p.peer).zip (s.daemons p).delivered :=
    List.mem_iff_getElem?.mpr ⟨i, List.getElem?_zip_eq_some.mpr ⟨hi, List.getElem?_eq_getElem hlt⟩⟩
  have hthread := (h.came p n _).mpr hmem
  intro hnone
  simp [hnone] at hthread

end

/-! ## An open -/

instance (k : Routing.State) (l : Routing.Label) : Decidable (Quiet k l) :=
  match l with
  | .open .. => .isTrue trivial
  | .call .. => .isTrue trivial
  | .request .. => .isFalse id
  | .reply .. => .isFalse id
  | .send n env => inferInstanceAs (Decidable (sending k n env = false))
  | .serve .. => .isTrue trivial
  | .answer .. => .isTrue trivial

namespace Sample
open Routing.Sample

/-- Process 3 opens the device, up to `netlink_send`. -/
def opening : List Routing.Label := .open 3 0 :: List.replicate 9 (.send 0 (env 0))

def initial : State := ⟨Routing.Sample.initial, fun _ => ⟨⟨.empty, .loop⟩, [], [], []⟩, fun _ => []⟩

/-- The kernels after quiet steps. -/
def after (k : Routing.State) (ls : List Routing.Label) : Routing.State :=
  (Routing.steps? 0 0 (fun k l => Quiet k l ∧ Routing.Unshared 0 k l) k ls).getD k

/-- The request on the socket of the client's daemon. -/
def message : NlMessage := request 7 (.open 0) 3 0 1 0

/-- The reply on the socket of the server's daemon: the file is open. -/
def reply : NlMessage := ⟨⟨56, 111, 4, 1, 9⟩, 3 :: List.replicate 7 0 ++ 16 :: List.replicate 31 0⟩

end Sample

end Netdev.Deployment
