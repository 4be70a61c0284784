-- SUMMARY: Requests of a device one after another, past the wrap of its counter, and what numbers are sent.
import Netdev.Kernel.Frame
import Netdev.Kernel.Sending

/-!
# Sequence numbers past the wrap

The counter of a device is an `int`. The number of a request is stored in a `long`, sent in an
unsigned field of the header, and comes back to be compared as an `int`. `fo_send` takes the
number 0 for an error.
-/

namespace Netdev.Kernel
open Base Registry

/-! ## What is sent -/

/-- `nlmsg_seq` of the message that `netlink_send` gets `req->seq` for: its parameter is an
`int`, and the field of the header an `u32`. -/
def nlmsgSeq (seq : Int64) : UInt32 := seq.toInt32.toUInt32

/-- A message of `fo_send`: its request, what is stored there, and the number in the header. -/
structure Posted where
  req : Addr
  seq : Int64
  nlmsgSeq : UInt32

/-- `fo_send`, and the messages that it has sent so far. -/
structure Posting where
  sending : Sending
  posted : List Posted

namespace Posting

def start (reg : Registry) : Posting := ⟨.start reg, []⟩

end Posting

/-- The message of an operation; the request is the last one that was allocated. -/
def Sending.post (s : Sending) : (op : FoOp) → Except Halt op.Res → List Posted
  | .netlinkSend _, .ok rvalue =>
      if rvalue < 0 then
        []
      else
        s.allocated.getLast?.toList.map fun p =>
          ⟨p, (s.registry.reqs p).req.seq, nlmsgSeq (s.registry.reqs p).req.seq⟩
  | _, _ => []

/-- An operation of `fo_send`, as it runs on its own. -/
def FoOp.post (env : FoEnv) (reply : Registry → Registry) (acc : AccRef) (op : FoOp) :
    Exec Posting Halt op.Res := fun s =>
  let returned := op.alone env reply acc s.sending
  (returned.1, ⟨returned.2, s.posted ++ s.sending.post op returned.1⟩)

/-- `fo_send` from its call to its return. -/
def foSendPost (env : FoEnv) (reply : Registry → Registry) (call : FoCall) (acc : AccRef) :
    Exec Posting Halt Int32 := (foSend call acc).exec (FoOp.post env reply acc)

/-! ## The requests of a device -/

/-- Nothing happens to the counter of the device. -/
def Registry.KeepsCounter (d : DevId) (reg reg' : Registry) : Prop :=
  ∀ y, reg'.devs d = some y → ∃ x, reg.devs d = some x ∧ y.curseq = x.curseq

/-- All allocations and `netlink_send` succeed. -/
structure FoEnv.Succeeds (env : FoEnv) : Prop where
  pool : env.addr ≠ none
  buffer : env.ok = true
  netlink : ¬ env.netlink < 0

/-- The module, and what each request so far has sent. -/
structure Requesting where
  registry : Registry
  log : List (List Posted)

inductive RequestLabel where
  /-- A call of `fo_send`; `reply` is all that happens while it waits. -/
  | request (env : FoEnv) (reply : Registry → Registry) (call : FoCall) (acc : AccRef)
  /-- Anything between two requests. -/
  | other

/-- Only `fo_send` counts. A process that still waits does not keep others from sending. -/
inductive RequestStep (d : DevId) : Requesting → RequestLabel → Requesting → Prop where
  | request {s : Requesting} {env : FoEnv} {reply : Registry → Registry} {call : FoCall} {acc : AccRef}
      {data : Acc} {x : NetdevData} (hacc : acc.nddata = d) (hopen : s.registry.Opened acc data x)
      (hactive : x.active = true) (henv : env.Succeeds)
      (hreply : ∀ reg : Registry, reg.KeepsCounter d (reply reg)) :
      RequestStep d s (.request env reply call acc)
        ⟨(foSendPost env reply call acc (.start s.registry)).2.sending.registry,
          s.log ++ [(foSendPost env reply call acc (.start s.registry)).2.posted]⟩
  | other {s : Requesting} {reg : Registry} (hkeeps : s.registry.KeepsCounter d reg) :
      RequestStep d s .other ⟨reg, s.log⟩

/-- From a device that has just been registered. -/
def requestSystem (d : DevId) : System Requesting RequestLabel where
  init s := s.log = [] ∧ ∃ x, s.registry.devs d = some x ∧ x.curseq = 0
  step := RequestStep d

/-- The numbers of a message agree, and the search for a reply with the number of the header
finds the request. -/
structure Posted.Matches (m : Posted) : Prop where
  compared : m.seq = m.nlmsgSeq.toInt32.toInt64
  found : ∀ {queue : FoAccess} {ps : List Addr} {reqs : Requests}, queue.Queued (m.req :: ps) →
    (reqs m.req).req.seq = m.seq →
      ∃ queue', foAccForeqFind true reqs queue m.nlmsgSeq.toInt32 = some (some m.req, queue')

/-- The request is not refused, and its message can be matched. -/
def Accepted (sent : List Posted) : Prop := ∃ m, sent = [m] ∧ m.Matches

/-! ## One request -/

/-- What `fo_send` sends for this number. -/
def posts (p : Addr) (seq : Int32) : List Posted :=
  if seq = 0 then [] else [⟨p, seq.toInt64, nlmsgSeq seq.toInt64⟩]

/-- A number that was stored and sent is the same when it comes back. -/
theorem matches_of_seq (p : Addr) (seq : Int32) : Posted.Matches ⟨p, seq.toInt64, nlmsgSeq seq.toInt64⟩ := by
  have hback : (nlmsgSeq seq.toInt64).toInt32 = seq := by simp [nlmsgSeq]
  refine ⟨?_, ?_⟩
  · rw [hback]
  · intro queue ps reqs hqueue hseq
    obtain ⟨queue', hfind, -⟩ := hqueue.foAccForeqFind_cons reqs seq
    rw [if_pos hseq] at hfind
    rw [hback]
    exact ⟨queue', hfind⟩

theorem accepted_posts (p : Addr) (seq : Int32) : Accepted (posts p seq) ↔ seq ≠ 0 := by
  unfold posts
  split
  · rename_i hseq
    exact iff_of_false (fun ⟨m, hm, _⟩ => nomatch hm) fun h => h hseq
  · rename_i hseq
    exact iff_of_true ⟨_, rfl, matches_of_seq p seq⟩ hseq

namespace Registry.KeepsCounter
variable {d : DevId} {reg reg' reg'' : Registry}

theorem refl (reg : Registry) : reg.KeepsCounter d reg := fun y hy => ⟨y, hy, rfl⟩

theorem trans (h : reg.KeepsCounter d reg') (h' : reg'.KeepsCounter d reg'') : reg.KeepsCounter d reg'' := by
  intro z hz
  obtain ⟨y, hy, hzy⟩ := h' z hz
  obtain ⟨x, hx, hyx⟩ := h y hy
  exact ⟨x, hx, hzy.trans hyx⟩

theorem of_devs (h : reg'.devs = reg.devs) : reg.KeepsCounter d reg' := fun y hy => ⟨y, h ▸ hy, rfl⟩

theorem setDev {e : DevId} {x x' : NetdevData} (hd : reg.devs e = some x) (hseq : x'.curseq = x.curseq) :
    reg.KeepsCounter d (reg.setDev e x') := by
  intro y hy
  by_cases heq : d = e
  · subst heq
    rw [setDev_self] at hy
    cases hy
    exact ⟨x, hd, hseq⟩
  · rw [setDev_of_ne _ _ heq] at hy
    exact ⟨y, hy, rfl⟩

end Registry.KeepsCounter

section Operations
variable {d : DevId} {c : Call}

theorem ndmgmPut_counter (e : DevId) :
    Exec.wp (ndmgmPut e) (fun _ c' => c.registry.KeepsCounter d c'.registry) c :=
  Ker.wp_dev (fun _ hd => .setDev hd rfl) (fun _ => .refl _)

theorem foAccDestroy_counter (a : AccRef) :
    Exec.wp (foAccDestroy a) (fun _ c' => c.registry.KeepsCounter d c'.registry) c := by
  refine Ker.wp_acc (fun data _ => ?_) (fun _ => .refl _)
  refine Ker.wp_dev (fun nddata _ => ?_) (fun _ => .refl _)
  refine Ker.wp_downWrite (fun _ => ?_) (fun _ => .refl _) (fun _ _ => .refl _)
  refine Ker.wp_dev (fun nddata hd => ?_) (fun _ => .refl _)
  refine Ker.wp_modify (wp_ndmgmPut (setDev_self _ _) (Ker.wp_up ?_))
  have hfree : ∀ reg : Registry, reg.KeepsCounter d (reg.freeAcc a) := fun _ => .of_devs rfl
  refine KeepsCounter.trans ?_ (hfree _)
  refine KeepsCounter.trans ?_ (.setDev (setDev_self _ _) rfl)
  exact .setDev hd rfl

/-- The operations that follow the message. -/
def FoOp.Late : FoOp → Prop
  | .put _ => True
  | .wait _ => True
  | .freeReq .. => True
  | .accDestroy _ => True
  | _ => False

theorem FoOp.Late.exec {op : FoOp} (hop : op.Late) (env : FoEnv) :
    Exec.wp (op.exec env) (fun _ c' => c.registry.KeepsCounter d c'.registry) c := by
  cases op with
  | put e => exact ndmgmPut_counter e
  | accDestroy acc => exact foAccDestroy_counter acc
  | wait req => exact Ker.wp_registry (Exec.wp_ite (fun _ => .refl _) (fun _ => .refl _))
  | freeReq acc req =>
      refine Ker.wp_acc (fun _ _ => ?_) (fun _ => .refl _)
      refine Ker.wp_dev (fun _ _ => ?_) (fun _ => .refl _)
      exact Ker.wp_deref (fun _ _ => .refl _) (fun _ => .refl _)
  | _ => cases hop

theorem FoOp.Late.call {op : FoOp} (hop : op.Late) (env : FoEnv) (reg : Registry) :
    reg.KeepsCounter d (Ker.call (op.exec env) reg).2 :=
  Ker.call_of_wp (P := fun _ reg' => reg.KeepsCounter d reg')
    ((hop.exec (c := ⟨reg, []⟩) env).mono fun _ _ h => h.trans (.of_devs rfl))

theorem foSendOut_late (call : FoCall) (acc : AccRef) (req : Option ReqPtr) (rvalue : Int32) :
    (foSendOut call acc req rvalue).Only FoOp.Late := by
  refine ⟨trivial, fun _ => ⟨trivial, fun _ => ?_⟩⟩
  by_cases hrelease : call.msgtype = MSGT_FO_RELEASE.toInt16
  · rw [if_pos hrelease]
    exact ⟨trivial, fun _ => trivial⟩
  · rw [if_neg hrelease]
    trivial

end Operations

/-! ## `fo_send` -/

section Rules
variable {env : FoEnv} {reply : Registry → Registry} {acc : AccRef} {s : Posting} {s' : Sending} {α : Type}
  {Q : Except Halt α → Posting → Prop}

theorem wp_post {op : FoOp} {k : op.Res → FoM α} {r : op.Res}
    (hop : op.alone env reply acc s.sending = (.ok r, s'))
    (hk : Exec.wp ((k r).exec (FoOp.post env reply acc)) Q ⟨s', s.posted ++ s.sending.post op (.ok r)⟩) :
    Exec.wp ((fo op >>= k).exec (FoOp.post env reply acc)) Q s := by
  have hpost : op.post env reply acc s = (.ok r, ⟨s', s.posted ++ s.sending.post op (.ok r)⟩) := by
    unfold FoOp.post
    simp only [hop]
  exact @Prog.wp_exec_call FoI α Posting Halt (FoOp.post env reply acc) Q s _ op _ r hpost hk

/-- A post that looks at the state only. -/
theorem wp_post_last {op : FoOp} {K : Posting → Prop} (hK : K (op.post env reply acc s).2) :
    Exec.wp ((fo op).exec (FoOp.post env reply acc)) (fun _ s' => K s') s := by
  cases hop : op.post env reply acc s with
  | mk r s' =>
      rw [hop] at hK
      cases r with
      | ok r => exact @Prog.wp_exec_call FoI _ Posting Halt _ _ s s' op .ret r hop hK
      | error e => exact @Prog.wp_exec_stop FoI _ Posting Halt _ _ s s' op .ret e hop hK

end Rules

section Calls
variable {env : FoEnv} {reply : Registry → Registry} {call : FoCall} {acc : AccRef} {s : Posting}
  {reg : Registry} {data : Acc} {x : NetdevData} {seq : Int32} {sent : List Posted}

/-- Where the counter stands, and what was sent. -/
def Posting.Counts (d : DevId) (seq : Int32) (sent : List Posted) (s : Posting) : Prop :=
  (∀ y, s.sending.registry.devs d = some y → y.curseq = seq) ∧ s.posted = sent

theorem alone_registry (op : FoOp) (s : Sending) : (op.alone env reply acc s).2.registry =
    (Ker.call (op.exec env) (s.before reply acc op).registry).2 := by
  unfold FoOp.alone Sending.after
  dsimp only
  split
  · rfl
  · rfl
  · rfl

/-- After the message the counter stays. -/
theorem Posting.Counts.late (h : s.Counts acc.nddata seq sent)
    (hreply : ∀ reg : Registry, reg.KeepsCounter acc.nddata (reply reg)) {op : FoOp} (hop : op.Late) :
    (op.post env reply acc s).2.Counts acc.nddata seq sent := by
  have hbefore : s.sending.registry.KeepsCounter acc.nddata (s.sending.before reply acc op).registry := by
    cases op with
    | wait req => exact hreply _
    | _ => exact .refl _
  refine ⟨fun y hy => ?_, ?_⟩
  · change (op.alone env reply acc s.sending).2.registry.devs acc.nddata = some y at hy
    rw [alone_registry] at hy
    obtain ⟨x, hx, hyx⟩ := (hbefore.trans (hop.call env _)) y hy
    exact hyx.trans (h.1 x hx)
  · have hpost : s.sending.post op (op.alone env reply acc s.sending).1 = [] := by
      cases op with
      | netlinkSend d => cases hop
      | _ => rfl
    exact (congrArg (s.posted ++ ·) hpost).trans ((List.append_nil _).trans h.2)

theorem Posting.Counts.exec {α : Type} {p : FoM α} (h : s.Counts acc.nddata seq sent)
    (hreply : ∀ reg : Registry, reg.KeepsCounter acc.nddata (reply reg)) (hp : p.Only FoOp.Late) :
    Exec.wp (p.exec (FoOp.post env reply acc)) (fun _ s' => s'.Counts acc.nddata seq sent) s :=
  hp.exec_keeps (K := fun s' : Posting => s'.Counts acc.nddata seq sent) (fun _ _ hop hs => hs.late hreply hop) h

/-- The number of the message is the one that was stored. -/
theorem post_netlinkSend {s : Sending} {p : ReqPtr} {n : Int32} (d : DevId)
    (hlast : s.allocated.getLast? = some p) (hreq : (s.registry.reqs p).req.seq = seq.toInt64) (hn : ¬ n < 0) :
    s.post (.netlinkSend d) (.ok n) = [⟨p, seq.toInt64, nlmsgSeq seq.toInt64⟩] := by
  simp [Sending.post, hn, hlast, hreq]

/-- From the allocation of the request on: it is refused at the number 0, and otherwise sent. -/
theorem wp_foSendReq (h : s.sending.registry.Opened acc data x) (henv : env.Succeeds) {p : ReqPtr}
    (hlast : s.sending.allocated.getLast? = some p) {Q : Except Halt Int32 → Posting → Prop}
    (hrefused : ∀ s' : Posting, s'.sending.registry = s.sending.registry.numbered acc (data.add env.free p) x p →
      s'.posted = s.posted ++ posts p (x.curseq + 1) → Q (.ok (-EBUSY)) s')
    (hsent : ∀ s' : Posting, s'.sending.registry = s.sending.registry.numbered acc (data.add env.free p) x p →
      s'.posted = s.posted ++ posts p (x.curseq + 1) →
        Exec.wp ((fo (.wait p)).exec (FoOp.post env reply acc)) Q s') :
    Exec.wp ((foSendReq acc p).exec (FoOp.post env reply acc)) Q s := by
  have hadded := h.setAcc (data.add env.free p)
  unfold foSendReq
  refine wp_post (alone_foreqAdd h p) (wp_post alone_kzalloc ?_)
  rw [henv.buffer]
  refine wp_post (alone_incseq hadded) ?_
  refine wp_post (alone_setSeq p (x.curseq + 1)) (Prog.wp_exec_ite (fun hseq => ?_) (fun hseq => ?_))
  · have hsilent : s.posted ++ [] ++ [] ++ [] ++ [] = s.posted ++ posts p (x.curseq + 1) := by simp [posts, hseq]
    exact hrefused _ rfl hsilent
  · refine wp_post (alone_netlinkSend (h.numbered (data.add env.free p) p)) ?_
    refine Prog.wp_exec_ite (fun hneg => absurd hneg henv.netlink) (fun _ => ?_)
    have hstored : ((s.sending.registry.numbered acc (data.add env.free p) x p).reqs p).req.seq =
        (x.curseq + 1).toInt64 := by
      rw [Registry.numbered, setReq_self]
      rfl
    have hposted : s.posted ++ [] ++ [] ++ [] ++ [] ++
        [⟨p, (x.curseq + 1).toInt64, nlmsgSeq (x.curseq + 1).toInt64⟩] = s.posted ++ posts p (x.curseq + 1) := by
      simp [posts, hseq]
    refine hsent _ rfl (Eq.trans ?_ hposted)
    exact congrArg (s.posted ++ [] ++ [] ++ [] ++ [] ++ ·) (post_netlinkSend _ hlast hstored henv.netlink)

/-- A call of `fo_send` on an active device, up to its request. -/
theorem wp_foSendPost (h : reg.Opened acc data x) (hactive : x.active = true) (henv : env.Succeeds)
    {Q : Except Halt Int32 → Posting → Prop}
    (hreq : ∀ (p : ReqPtr) (s : Posting), s.sending.registry.Opened acc data { x with users := x.users + 1 } →
      s.posted = [] → s.sending.allocated.getLast? = some p →
        Exec.wp ((foSendReq acc p >>= foSendOut call acc (some p)).exec (FoOp.post env reply acc)) Q s) :
    Exec.wp (foSendPost env reply call acc) Q (.start reg) := by
  obtain ⟨p, haddr⟩ := Option.ne_none_iff_exists'.mp henv.pool
  unfold foSendPost foSend
  refine wp_post alone_enter (wp_post (alone_active h) ?_)
  rw [hactive]
  refine wp_post (alone_get h) ?_
  have hgot := h.setDev { x with users := x.users + 1 }
  refine wp_post (alone_newReq_some hgot haddr call) ?_
  exact hreq p _ (hgot.setReq p _) rfl rfl

/-- A request is sent unless its number is 0. -/
theorem foSendReq_posts (h : s.sending.registry.Opened acc data x) (henv : env.Succeeds) (hnone : s.posted = [])
    (hreply : ∀ reg : Registry, reg.KeepsCounter acc.nddata (reply reg)) {p : ReqPtr}
    (hlast : s.sending.allocated.getLast? = some p) :
    Exec.wp ((foSendReq acc p).exec (FoOp.post env reply acc))
      (fun _ s' => s'.Counts acc.nddata (x.curseq + 1) (posts p (x.curseq + 1))) s := by
  have hcounts {s' : Posting} (hs' : s'.sending.registry = s.sending.registry.numbered acc (data.add env.free p) x p)
      (hposted : s'.posted = s.posted ++ posts p (x.curseq + 1)) :
      s'.Counts acc.nddata (x.curseq + 1) (posts p (x.curseq + 1)) := by
    refine ⟨fun y hy => ?_, ?_⟩
    · rw [hs'] at hy
      cases (h.numbered (data.add env.free p) p).dev.symm.trans hy
      rfl
    · rw [hposted, hnone, List.nil_append]
  refine wp_foSendReq h henv hlast (fun s' hs' hposted => hcounts hs' hposted) (fun s' hs' hposted => ?_)
  exact (hcounts hs' hposted).exec hreply ⟨trivial, fun _ => trivial⟩

theorem foSendPost_posts (h : reg.Opened acc data x) (hactive : x.active = true) (henv : env.Succeeds)
    (hreply : ∀ reg : Registry, reg.KeepsCounter acc.nddata (reply reg)) :
    Exec.wp (foSendPost env reply call acc)
      (fun _ s' => ∃ p, s'.Counts acc.nddata (x.curseq + 1) (posts p (x.curseq + 1))) (.start reg) := by
  refine wp_foSendPost h hactive henv fun p s hopen hnone hlast => ?_
  refine Prog.wp_exec_bind (foSendReq_posts hopen henv hnone hreply hlast) ?_ ?_
  · intro rvalue s' hs'
    exact (hs'.exec hreply (foSendOut_late ..)).mono fun _ _ hs => ⟨p, hs⟩
  · intro e s' hs'
    exact ⟨p, hs'⟩

end Calls

/-! ## All requests -/

theorem Int32.ofNat_eq_zero (n : Nat) : Int32.ofNat n = 0 ↔ 2 ^ 32 ∣ n := by
  have hzero : Int32.ofNat n = 0 ↔ BitVec.ofNat 32 n = 0 := Int32.toBitVec_inj.symm
  rw [hzero, BitVec.toNat_eq, Nat.dvd_iff_mod_eq_zero]
  simp

/-- The counter is the number of the requests, modulo 2^32. -/
structure Numbered (d : DevId) (s : Requesting) : Prop where
  counter : ∀ x, s.registry.devs d = some x → x.curseq = Int32.ofNat s.log.length
  accepted : ∀ k sent, s.log[k]? = some sent → (Accepted sent ↔ ¬ 2 ^ 32 ∣ k + 1)

theorem Numbered.request {d : DevId} {s s' : Requesting} {l : RequestLabel} (h : Numbered d s)
    (hstep : RequestStep d s l s') : Numbered d s' := by
  cases hstep with
  | other hkeeps =>
      refine ⟨fun y hy => ?_, h.accepted⟩
      obtain ⟨x, hx, hyx⟩ := hkeeps y hy
      exact hyx.trans (h.counter x hx)
  | @request env reply call acc data x hacc hopen hactive henv hreply =>
      subst hacc
      obtain ⟨p, hcounter, hposted⟩ := @foSendPost_posts env reply call acc _ _ _ hopen hactive henv hreply
      have hseq : x.curseq + 1 = Int32.ofNat (s.log.length + 1) := by
        rw [h.counter x hopen.dev, Int32.ofNat_add]
        rfl
      rw [hseq] at hcounter hposted
      refine ⟨fun y hy => ?_, fun k sent hk => ?_⟩
      · rw [hcounter y hy, List.length_append, List.length_singleton]
      · by_cases hlast : k < s.log.length
        · rw [List.getElem?_append_left hlast] at hk
          exact h.accepted k sent hk
        · obtain ⟨hle, hk⟩ := List.getElem?_eq_some_iff.mp hk
          rw [List.length_append, List.length_singleton] at hle
          obtain rfl : k = s.log.length := by omega
          simp only [List.getElem_append_right (Nat.le_refl _), Nat.sub_self, List.getElem_cons_zero] at hk
          rw [← hk, hposted, accepted_posts]
          exact not_congr (Int32.ofNat_eq_zero _)

theorem requests_invariant (d : DevId) : (requestSystem d).Invariant (Numbered d) where
  init := by
    rintro s ⟨hlog, x, hx, hzero⟩
    refine ⟨fun y hy => ?_, fun k sent hk => ?_⟩
    · obtain rfl := Option.some.inj (hx.symm.trans hy)
      rw [hlog, hzero]
      rfl
    · rw [hlog] at hk
      cases hk
  step := by
    intro s l s' hs hstep
    exact hs.request hstep

/-- In every run of requests on a device, each request is sent, and its number is the same
wherever it is compared, exactly when it is not a request at which the counter wraps to 0. -/
theorem accepted_iff {d : DevId} {ls : List RequestLabel} {s : Requesting} (hrun : (requestSystem d).Run ls s)
    {k : Nat} {sent : List Posted} (hk : s.log[k]? = some sent) : Accepted sent ↔ ¬ 2 ^ 32 ∣ k + 1 :=
  (hrun.invariant (requests_invariant d)).accepted k sent hk

/-! ## The request at the wrap -/

section Runs
variable {env : FoEnv} {reply : Registry → Registry} {call : FoCall} {acc : AccRef} {s : Posting}
  {reg : Registry} {data : Acc} {x : NetdevData}

/-- The file is open under an active device. -/
def Posting.Open (acc : AccRef) (s : Posting) : Prop :=
  ∃ data x, s.sending.registry.Opened acc data x ∧ x.active = true

theorem wait_open (h : ∃ data, (reply s.sending.registry).Opened acc data x) (hactive : x.active = true)
    (p : ReqPtr) : ((FoOp.wait p).post env reply acc s).2.Open acc := by
  obtain ⟨data, hopen⟩ := h
  refine ⟨data, x, ?_, hactive⟩
  change ((FoOp.wait p).alone env reply acc s.sending).2.registry.Opened acc data x
  obtain ⟨-, hs⟩ | ⟨-, hs⟩ := @alone_wait env reply acc s.sending p
  · rw [hs]
    exact hopen
  · rw [hs]
    exact hopen

theorem foSendOut_open (h : s.Open acc) (hcall : call.msgtype ≠ MSGT_FO_RELEASE.toInt16) (p : ReqPtr)
    (rvalue : Int32) :
    Exec.wp ((foSendOut call acc (some p) rvalue).exec (FoOp.post env reply acc))
      (fun _ s' => s'.Open acc) s := by
  obtain ⟨data, x, hopen, hactive⟩ := h
  have hput := hopen.setDev { x with users := x.users - 1 }
  refine wp_post (alone_put hopen) (wp_post (alone_freeReq_some hput p) ?_)
  exact Prog.wp_exec_ite (fun hrelease => absurd hrelease hcall) fun _ => ⟨data, _, hput, hactive⟩

theorem foSendReq_open (h : s.sending.registry.Opened acc data x) (hactive : x.active = true)
    (henv : env.Succeeds) (hreply : ∀ {reg : Registry} {data : Acc} {x : NetdevData}, reg.Opened acc data x →
      ∃ data', (reply reg).Opened acc data' x) {p : ReqPtr} (hlast : s.sending.allocated.getLast? = some p) :
    Exec.wp ((foSendReq acc p).exec (FoOp.post env reply acc)) (fun _ s' => s'.Open acc) s := by
  have hnumbered := h.numbered (data.add env.free p) p
  refine wp_foSendReq h henv hlast (fun s' hs' _ => ?_) (fun s' hs' _ => ?_)
  · rw [← hs'] at hnumbered
    exact ⟨_, _, hnumbered, hactive⟩
  · rw [← hs'] at hnumbered
    refine @wp_post_last _ _ _ _ (.wait p) (Posting.Open acc) ?_
    exact @wait_open _ _ _ _ { x with curseq := x.curseq + 1 } (hreply hnumbered) hactive p

/-- A call that is no release leaves the file open, when what happens while it waits does. -/
theorem foSendPost_open (h : reg.Opened acc data x) (hactive : x.active = true) (henv : env.Succeeds)
    (hcall : call.msgtype ≠ MSGT_FO_RELEASE.toInt16)
    (hreply : ∀ {reg : Registry} {data : Acc} {x : NetdevData}, reg.Opened acc data x →
      ∃ data', (reply reg).Opened acc data' x) :
    Exec.wp (foSendPost env reply call acc) (fun _ s' => s'.Open acc) (.start reg) := by
  refine wp_foSendPost h hactive henv fun p s hopen _ hlast => ?_
  refine Prog.wp_exec_bind (R := fun _ s' => s'.Open acc) ?_ ?_ ?_
  · exact @foSendReq_open env reply acc s data { x with users := x.users + 1 } hopen hactive henv hreply p hlast
  · intro rvalue s' hs'
    exact foSendOut_open hs' hcall p rvalue
  · intro e s' hs'
    exact hs'

end Runs

namespace Sample

/-- The reply: the request leaves the queue and is completed. -/
def answered (reg : Registry) : Registry :=
  (reg.setAcc file ⟨3, .fresh, ⟨none⟩⟩).setReq 4096 { reg.reqs 4096 with comp := 1 }

/-- The environment in which all requests are sent. -/
theorem foEnv_succeeds : foEnv.Succeeds := ⟨Option.some_ne_none _, rfl, by decide⟩

/-- So many requests, one after another. -/
theorem requests_run (n : Nat) : ∃ ls s data x, (requestSystem file.nddata).Run ls s ∧ s.log.length = n ∧
    s.registry.Opened file data x ∧ x.active = true := by
  induction n with
  | zero =>
      have hopen := opened_file .fresh
      exact ⟨[], ⟨opened .fresh, []⟩, _, _, .init ⟨rfl, device, hopen.dev, rfl⟩, rfl, hopen, rfl⟩
  | succ n ih =>
      obtain ⟨ls, s, data, x, hrun, hlog, hopen, hactive⟩ := ih
      have hkeeps (reg : Registry) : reg.KeepsCounter file.nddata (answered reg) := .of_devs rfl
      have hstay {reg : Registry} {data : Acc} {x : NetdevData} (h : reg.Opened file data x) :
          ∃ data', (answered reg).Opened file data' x := ⟨_, (h.setAcc _).setReq 4096 _⟩
      obtain ⟨data', x', hopen', hactive'⟩ :=
        @foSendPost_open _ _ seek _ _ _ _ hopen hactive foEnv_succeeds (by decide) hstay
      have hrequest := @RequestStep.request _ s _ _ seek _ _ _ rfl hopen hactive foEnv_succeeds hkeeps
      refine ⟨_, _, data', x', .step hrun hrequest, ?_, hopen', hactive'⟩
      rw [List.length_append, hlog, List.length_singleton]

end Sample

/-- Half way round the sequence number is negative, and the request is accepted. -/
theorem accepted_past_half : ∃ ls s sent, (requestSystem Sample.file.nddata).Run ls s ∧
    s.log[2 ^ 31]? = some sent ∧ Accepted sent := by
  obtain ⟨ls, s, -, -, hrun, hlog, -⟩ := Sample.requests_run (2 ^ 31 + 1)
  have hlen : 2 ^ 31 < s.log.length := by rw [hlog]; exact Nat.lt_succ_self _
  have hsent := List.getElem?_eq_getElem hlen
  exact ⟨ls, s, _, hrun, hsent, (accepted_iff hrun hsent).mpr (by decide)⟩

/-- After 2^32 - 1 requests the next one is refused. -/
theorem wrapped_refused : ∃ ls s sent, (requestSystem Sample.file.nddata).Run ls s ∧
    s.log[2 ^ 32 - 1]? = some sent ∧ ¬ Accepted sent := by
  obtain ⟨ls, s, -, -, hrun, hlog, -⟩ := Sample.requests_run (2 ^ 32)
  have hlen : 2 ^ 32 - 1 < s.log.length := by rw [hlog]; decide
  have hlast := List.getElem?_eq_getElem hlen
  refine ⟨ls, s, _, hrun, hlast, fun h => ?_⟩
  exact ((hrun.invariant (requests_invariant _)).accepted _ _ hlast).mp h (by decide)

end Netdev.Kernel
