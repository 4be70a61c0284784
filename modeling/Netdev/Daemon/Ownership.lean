-- SUMMARY: Who owns the daemon's blocks: a client frees each of them once, a server frees a pointer that it never set.
import Netdev.Daemon.Memory

/-!
# Ownership

Each function is judged by the blocks that the process owns before and after it. A function
that forgets a block leaks it; how often is bounded over the whole life of a proxy, however many
messages it forwards. While a proxy is set up a failed allocation can stop it. The functions
from `proxy_loop` on follow no null pointer.
-/

namespace Netdev.Daemon.Memory
open Base Prog

/-- A run of `p` from `h` does only what `P` admits, and ends with `Q`. -/
abbrev Meets {α : Type} (P : Heap → HeapOp calls → Prop) (Q : α → Heap → Prop) (p : MemoryM α) (h : Heap) :=
  Prog.meets (Heap.Serves calls) P Q p h

/-! ## Messages -/

/-- What a function returns belongs to its caller. -/
def Fetched (rest ps : List Nat) (nlh : Nlh) (h : Heap) : Prop :=
  nlh.self ≠ .unset ∧ h.Owns rest (nlh.self.blocks ++ ps)

/-- What a function leaks at most when it returns -1, and otherwise. -/
def Leaked (rest ps : List Nat) (failed ok : Nat) (rvalue : Int32) (h : Heap) : Prop :=
  h.Leaks rest (if rvalue = -1 then failed else ok) ps

/-- A message that `conn_recv` returns is that of two blocks; otherwise one may be lost. -/
def Received (rest ps : List Nat) (ndhead : Ndhead) (h : Heap) : Prop :=
  ndhead.self = .null ∧ h.Leaks rest 1 ps ∨
    ∃ b b', ndhead.self = .block b ∧ ndhead.payload = .block b' ∧ h.Owns rest (b' :: b :: ps)

section
variable {rest ps : List Nat} {h : Heap} {P : Heap → HeapOp calls → Prop} {pdev : Pdev} {p : Pointer}

theorem Leaked.failed {failed ok : Nat} {rvalue : Int32} (hl : Leaked rest ps failed ok rvalue h)
    (hrvalue : rvalue = -1) : h.Leaks rest failed ps := by
  rw [Leaked, if_pos hrvalue] at hl
  exact hl

theorem Leaked.ok {failed ok : Nat} {rvalue : Int32} (hl : Leaked rest ps failed ok rvalue h)
    (hrvalue : rvalue ≠ -1) : h.Leaks rest ok ps := by
  rw [Leaked, if_neg hrvalue] at hl
  exact hl

variable (hP : Heap.Allows P)
include hP

theorem readBuf_meets {buf : Bytes} {n : Nat} (ho : h.Owns rest ps) (hp : p.Points ps) :
    Meets P (fun _ h' => h'.Owns rest ps) (readBuf p buf n) h := by
  refine Heap.meets_use hP ho hp ?_
  refine meets_ite (fun _ => ho) fun _ => ?_
  exact Heap.meets_call hP trivial fun _ _ => ho

theorem netlinkSend_meets (ho : h.Owns rest ps) (hself : pdev.self.Points ps) (hp : p.Within ps) :
    Meets P (fun _ h' => h'.Owns rest ps) (netlinkSend pdev p) h := by
  refine meets_ite (fun _ => ho) fun hne => ?_
  refine Heap.meets_use hP ho (hp.points hne) ?_
  refine Heap.meets_use hP ho hself ?_
  exact Heap.meets_call hP (ho.valid hp) fun _ _ => ho

theorem netlinkRecv_meets (ho : h.Owns rest ps) (hself : pdev.self.Points ps) :
    Meets P (Fetched rest ps) (netlinkRecv pdev) h := by
  refine Heap.meets_malloc hP ho fun buffer h₁ hset ho₁ => ?_
  refine Heap.meets_use hP ho₁ (hself.mono fun b hb => List.mem_append_right _ hb) ?_
  refine Heap.meets_call hP (ho₁.valid (Pointer.within_blocks hset ps)) fun r hr => ?_
  cases r with
  | none => exact Heap.meets_free hP ho₁ hset fun h₂ ho₂ => ⟨by simp [Nlh.null], ho₂⟩
  | some head =>
      -- `recvall` has stored something
      obtain ⟨hne, -, -⟩ := hr.1 head rfl
      obtain ⟨b, rfl⟩ := Pointer.eq_block hset hne
      refine Heap.meets_use hP ho₁ List.mem_cons_self ?_
      refine Heap.meets_realloc hP ho₁ fun buffer h₂ hset' ho₂ => ?_
      refine Heap.meets_call hP (ho₂.valid (Pointer.within_blocks hset' ps)) fun r _ => ?_
      cases r with
      | none => exact Heap.meets_free hP ho₂ hset' fun h₃ ho₃ => ⟨by simp [Nlh.null], ho₃⟩
      | some buf => exact ⟨hset', ho₂⟩

theorem netlinkSendNlh_meets (ho : h.Owns rest ps) (hself : pdev.self.Points ps) (hp : p.Points ps) :
    Meets P (fun _ h' => h'.Owns rest ps) (netlinkSendNlh pdev p) h := by
  refine Heap.meets_use hP ho hself ?_
  refine Heap.meets_use hP ho hp ?_
  refine meets_bind (netlinkSend_meets hP ho hself hp.within) fun rvalue h₁ ho₁ => ?_
  refine meets_ite (fun _ => ho₁) fun _ => ?_
  refine meets_bind (netlinkRecv_meets hP ho₁ hself) fun nlh h₂ hfetched => ?_
  obtain ⟨hset, ho₂⟩ := hfetched
  refine meets_ite (fun hnull => ?_) fun hne => ?_
  · rw [hnull] at ho₂
    exact ho₂
  refine meets_bind (readBuf_meets hP ho₂ (Pointer.points_blocks hset hne ps)) fun buf h₃ ho₃ => ?_
  exact Heap.meets_free hP ho₃ hset fun h₄ ho₄ => ho₄

theorem netlinkSendMsg_meets {n : Nat} (ho : h.Owns rest ps) (hself : pdev.self.Points ps) (hp : p.Within ps) :
    Meets P (Leaked rest ps 1 0) (netlinkSendMsg pdev p n) h := by
  refine Heap.meets_malloc hP ho fun nlh h₁ hset ho₁ => ?_
  have hmine : ∀ b ∈ ps, b ∈ nlh.blocks ++ ps := fun b hb => List.mem_append_right _ hb
  refine meets_ite (fun hnull => ?_) fun hne => ?_
  · subst hnull
    exact ho₁.leaks
  have hnlh := Pointer.points_blocks hset hne ps
  refine Heap.meets_use hP ho₁ hnlh ?_
  refine Heap.meets_use hP ho₁ (hself.mono hmine) ?_
  have hsend : Meets P (Leaked rest ps 1 0) (do
      if (← netlinkSendNlh pdev nlh) = -1 then
        return -1
      free nlh
      return 0) h₁ := by
    refine meets_bind (netlinkSendNlh_meets hP ho₁ (hself.mono hmine) hnlh) fun rvalue h₂ ho₂ => ?_
    refine meets_ite (fun _ => ?_) fun _ => ?_
    · exact ho₂.leak.mono (Pointer.length_blocks nlh)
    · exact Heap.meets_free hP ho₂ hset fun h₃ ho₃ => ho₃.leaks
  refine meets_ite (fun hbuff => ?_) fun _ => ?_
  · exact Heap.meets_use hP ho₁ ((hp.points hbuff).mono hmine) hsend
  · exact hsend

theorem sendName_meets (ho : h.Owns rest ps) (hself : pdev.self.Points ps) (hp : p.Within ps) :
    Meets P (Leaked rest ps 1 0) (sendName pdev p) h := by
  refine Heap.meets_use hP ho hself ?_
  exact Heap.meets_call hP (ho.valid hp) fun len _ => netlinkSendMsg_meets hP ho hself hp

theorem connSend_meets {ndhead : Ndhead} (ho : h.Owns rest ps) (hself : pdev.self.Points ps)
    (hhead : ndhead.self.Points ps) (hpayload : ndhead.payload.Points ps) :
    Meets P (fun _ h' => h'.Owns rest ps) (connSend pdev ndhead) h := by
  refine Heap.meets_use hP ho hhead ?_
  refine Heap.meets_malloc hP ho fun buff h₁ hset ho₁ => ?_
  have hmine : ∀ b ∈ ps, b ∈ buff.blocks ++ ps := fun b hb => List.mem_append_right _ hb
  refine meets_ite (fun hnull => ?_) fun _ => ?_
  · subst hnull
    exact ho₁
  refine Heap.meets_use hP ho₁ (hhead.mono hmine) ?_
  refine Heap.meets_use hP ho₁ (hpayload.mono hmine) ?_
  refine Heap.meets_use hP ho₁ (hself.mono hmine) ?_
  refine Heap.meets_call hP (ho₁.valid (Pointer.within_blocks hset ps)) fun ok _ => ?_
  refine meets_ite (fun _ => ?_) fun _ => ?_
  · exact Heap.meets_free hP ho₁ hset fun h₂ ho₂ => ho₂
  · exact Heap.meets_free hP ho₁ hset fun h₂ ho₂ => ho₂

theorem connRecv_meets (ho : h.Owns rest ps) (hself : pdev.self.Points ps) :
    Meets P (Received rest ps) (connRecv pdev) h := by
  refine Heap.meets_malloc hP ho fun self h₁ hset ho₁ => ?_
  refine Heap.meets_use hP ho₁ (hself.mono fun b hb => List.mem_append_right _ hb) ?_
  refine Heap.meets_call hP (ho₁.valid (Pointer.within_blocks hset ps)) fun r hr => ?_
  cases r with
  | none => exact .inl ⟨rfl, ho₁.leak.mono (Pointer.length_blocks self)⟩
  | some head =>
      obtain ⟨hne, -, -⟩ := hr.1 head rfl
      refine Heap.meets_use hP ho₁ (Pointer.points_blocks hset hne ps) ?_
      refine Heap.meets_malloc hP ho₁ fun payload h₂ hset' ho₂ => ?_
      refine Heap.meets_call hP (ho₂.valid (Pointer.within_blocks hset' _)) fun r hr => ?_
      cases r with
      | none =>
          have hswap : h₂.Owns rest (self.blocks ++ (payload.blocks ++ ps)) :=
            ho₂.perm (List.perm_append_comm_assoc _ _ _)
          refine Heap.meets_free hP hswap hset fun h₃ ho₃ => ?_
          exact .inl ⟨rfl, ho₃.leak.mono (Pointer.length_blocks payload)⟩
      | some buf =>
          obtain ⟨hne', -, -⟩ := hr.1 buf rfl
          obtain ⟨b, rfl⟩ := Pointer.eq_block hset hne
          obtain ⟨b', rfl⟩ := Pointer.eq_block hset' hne'
          exact .inr ⟨b, b', rfl, rfl, ho₂⟩

theorem freeMessage_meets {ndhead : Ndhead} {b b' : Nat} (hhead : ndhead.self = .block b)
    (hpayload : ndhead.payload = .block b') (ho : h.Owns rest (b' :: b :: ps)) :
    Meets P (fun _ h' => h'.Owns rest ps) (freeMessage ndhead) h := by
  refine Heap.meets_use hP ho (by simp [hhead]) ?_
  rw [hhead, hpayload]
  refine Heap.meets_free hP ho (by simp) fun h₁ ho₁ => ?_
  exact Heap.meets_free hP ho₁ (by simp) fun h₂ ho₂ => ho₂

/-! ## Forwarding -/

/-- Whatever it returns, the handler leaves nothing behind. -/
theorem proxyHandleNetlink_meets (ho : h.Owns rest ps) (hself : pdev.self.Points ps) :
    Meets P (fun _ h' => h'.Owns rest ps) (proxyHandleNetlink pdev) h := by
  refine meets_bind (netlinkRecv_meets hP ho hself) fun nlh h₁ hfetched => ?_
  obtain ⟨hset, ho₁⟩ := hfetched
  refine meets_ite (fun _ => ?_) fun hne => ?_
  · exact Heap.meets_free hP ho₁ hset fun h₂ ho₂ => ho₂
  have hnlh := Pointer.points_blocks hset hne ps
  refine meets_bind (readBuf_meets hP ho₁ hnlh) fun buf h₂ ho₂ => ?_
  refine meets_ite (fun _ => ?_) fun _ => ?_
  · refine Heap.meets_malloc hP ho₂ fun self h₃ hset' ho₃ => ?_
    refine meets_ite (fun hnull => ?_) fun hne' => ?_
    · subst hnull
      exact Heap.meets_free hP ho₃ hset fun h₄ ho₄ => ho₄
    have hmine : ∀ b ∈ nlh.self.blocks ++ ps, b ∈ self.blocks ++ (nlh.self.blocks ++ ps) :=
      fun b hb => List.mem_append_right _ hb
    have hhead := Pointer.points_blocks hset' hne' (nlh.self.blocks ++ ps)
    have hself₃ := (hself.mono fun b hb => List.mem_append_right nlh.self.blocks hb).mono hmine
    refine Heap.meets_use hP ho₃ hhead ?_
    refine meets_bind (connSend_meets hP ho₃ hself₃ hhead (hnlh.mono hmine)) fun _ h₄ ho₄ => ?_
    refine Heap.meets_free hP ho₄ hset' fun h₅ ho₅ => ?_
    exact Heap.meets_free hP ho₅ hset fun h₆ ho₆ => ho₆
  · exact Heap.meets_free hP ho₂ hset fun h₃ ho₃ => ho₃

/-- It leaks only where the loop ends. -/
theorem proxyHandleRemote_meets (ho : h.Owns rest ps) (hself : pdev.self.Points ps) :
    Meets P (Leaked rest ps 1 0) (proxyHandleRemote pdev) h := by
  refine Heap.meets_use hP ho hself ?_
  refine Heap.meets_call hP trivial fun ok _ => ?_
  refine meets_ite (fun _ => ho.leaks) fun _ => ?_
  refine meets_bind (connRecv_meets hP ho hself) fun ndhead h₁ hreceived => ?_
  rcases hreceived with ⟨hnull, hl⟩ | ⟨b, b', hhead, hpayload, ho₁⟩
  · exact meets_ite (fun _ => hl) fun hne => absurd hnull hne
  refine meets_ite (fun hnull => absurd (hhead.symm.trans hnull) (by simp)) fun _ => ?_
  refine Heap.meets_use hP ho₁ (by simp [hhead]) ?_
  refine meets_ite (fun _ => ?_) fun _ => ?_
  · have hself₁ := hself.mono fun c hc => List.mem_cons_of_mem b' (List.mem_cons_of_mem b hc)
    refine meets_bind (netlinkSendNlh_meets hP ho₁ hself₁ (by simp [hpayload])) fun _ h₂ ho₂ => ?_
    exact meets_bind (freeMessage_meets hP hhead hpayload ho₂) fun _ h₃ ho₃ => ho₃.leaks
  · have hswap : h₁.Owns rest ((Pointer.block b).blocks ++ b' :: ps) := ho₁.perm (List.Perm.swap _ _ _)
    rw [hhead]
    refine Heap.meets_free hP hswap (by simp) fun h₂ ho₂ => ?_
    exact @Heap.Owns.leak rest ps h₂ [b'] ho₂

/-- However many turns the loop takes. -/
theorem proxyLoop_meets (turns : Nat) (ho : h.Owns rest ps) (hself : pdev.self.Points ps) :
    Meets P (fun r h' => h'.Leaks rest (if r = none then 0 else 1) ps) (proxyLoop pdev turns) h := by
  induction turns generalizing h with
  | zero => exact ho.leaks
  | succ turns ih =>
      refine Heap.meets_use hP ho hself ?_
      refine Heap.meets_call hP trivial fun ready _ => ?_
      cases ready with
      | none => exact ho.leaks
      | some ready =>
          refine meets_ite (fun _ => ho.leaks) fun _ => ?_
          have hremote {h' : Heap} (ho' : h'.Owns rest ps) :
              Meets P (fun r h' => h'.Leaks rest (if r = none then 0 else 1) ps) (do
                if ready.rm then
                  if (← proxyHandleRemote pdev) = -1 then
                    return some (-1)
                proxyLoop pdev turns) h' := by
            refine meets_ite (fun _ => ?_) fun _ => ih ho'
            refine meets_bind (proxyHandleRemote_meets hP ho' hself) fun rvalue h₁ hl => ?_
            exact meets_ite (fun hfailed => hl.failed hfailed) fun hok => ih (hl.ok hok).owns
          refine meets_ite (fun _ => ?_) fun _ => hremote ho
          refine meets_bind (proxyHandleNetlink_meets hP ho hself) fun rvalue h₁ ho₁ => ?_
          exact meets_ite (fun _ => ho₁.leaks) fun _ => hremote ho₁

/-! ## The `struct proxy_dev` -/

/-- The pointers that `proxy_destroy` frees, in its order. -/
def Pdev.pointers (pdev : Pdev) : List Pointer :=
  [pdev.nlSrcAddr, pdev.nlDstAddr, pdev.rmAddr, pdev.usAddr, pdev.rmIpaddr, pdev.remoteDevName, pdev.dummyDevName,
    pdev.self]

def Pdev.blocks (pdev : Pdev) : List Nat := pdev.pointers.flatMap Pointer.blocks

/-- Every pointer was set, and the device is there. -/
structure Pdev.Whole (pdev : Pdev) : Prop where
  set : ∀ p ∈ pdev.pointers, p ≠ .unset
  self : pdev.self ≠ .null

omit hP in
theorem Pdev.Whole.within (hwhole : pdev.Whole) (hp : p ∈ pdev.pointers) : p.Within pdev.blocks := by
  have hblocks := Pointer.within_blocks (hwhole.set p hp) []
  refine hblocks.mono fun b hb => ?_
  exact List.mem_flatMap_of_mem hp (by simpa using hb)

omit hP in
theorem Pdev.Whole.points (hwhole : pdev.Whole) : pdev.self.Points pdev.blocks :=
  (hwhole.within (by simp [Pdev.pointers])).points hwhole.self

theorem proxyDestroy_meets (hwhole : pdev.Whole) (ho : h.Owns rest (pdev.blocks ++ ps)) :
    Meets P (fun _ h' => h'.Owns rest ps) (proxyDestroy pdev) h := by
  refine Heap.meets_use hP ho (hwhole.points.mono fun b hb => List.mem_append_left _ hb) ?_
  have hset := hwhole.set
  simp only [Pdev.pointers, List.forall_mem_cons] at hset
  obtain ⟨hsrc, hdst, hrm, hus, hip, hremote, hdummy, hself, -⟩ := hset
  simp only [Pdev.blocks, Pdev.pointers, List.flatMap_cons, List.flatMap_nil, List.append_nil,
    List.append_assoc] at ho
  refine Heap.meets_free hP ho hsrc fun _ ho => ?_
  refine Heap.meets_free hP ho hdst fun _ ho => ?_
  refine Heap.meets_free hP ho hrm fun _ ho => ?_
  refine Heap.meets_free hP ho hus fun _ ho => ?_
  refine Heap.meets_free hP ho hip fun _ ho => ?_
  refine Heap.meets_free hP ho hremote fun _ ho => ?_
  refine Heap.meets_free hP ho hdummy fun _ ho => ?_
  exact Heap.meets_free hP ho hself fun _ ho => ho

/-- How the rest of a client ends: before `proxy_loop` two blocks are leaked, and at the end
four. -/
def ForwardEnd (rest : List Nat) (pdev : Pdev) (ended : Bool) (h : Heap) : Prop :=
  if ended then h.Leaks rest 4 [] else h.Leaks rest 2 pdev.blocks

theorem proxyForward_meets (turns : Nat) (hwhole : pdev.Whole) (hl : h.Leaks rest 2 pdev.blocks) :
    Meets P (ForwardEnd rest pdev) (proxyForward turns pdev) h := by
  obtain ⟨l, hlen, ho⟩ := hl
  have hself : pdev.self.Points (l ++ pdev.blocks) := hwhole.points.mono fun b hb => List.mem_append_right _ hb
  refine meets_bind (proxyLoop_meets hP turns ho hself) fun r h₁ hl => ?_
  cases r with
  | none => exact ⟨l, hlen, hl.owns⟩
  | some rvalue =>
      obtain ⟨l', hlen', ho⟩ := hl
      have hself : pdev.self.Points (l' ++ (l ++ pdev.blocks)) :=
        hself.mono fun b hb => List.mem_append_right _ hb
      refine meets_bind (netlinkSendMsg_meets hP ho hself trivial) fun rvalue h₂ hl => ?_
      have hl' : h₂.Leaks rest 1 (l' ++ (l ++ pdev.blocks)) := hl.mono (by split <;> decide)
      obtain ⟨l'', hlen'', ho⟩ := hl'.leak.leak
      refine meets_bind (proxyDestroy_meets hP hwhole (ho.perm List.perm_append_comm)) fun _ h₃ ho₃ => ?_
      refine ⟨l'', ?_, by simpa using ho₃⟩
      simp only [reduceCtorEq, if_false] at hlen'
      omega

/-! ## Setting up -/

theorem connSendDevReg_meets (ho : h.Owns rest ps) (hself : pdev.self.Points ps)
    (hremote : pdev.remoteDevName.Points ps) (hdummy : pdev.dummyDevName.Within ps) :
    Meets P (Leaked rest ps 3 2) (connSendDevReg pdev) h := by
  refine Heap.meets_malloc hP ho fun self h₁ hset ho₁ => ?_
  have hmine : ∀ b ∈ ps, b ∈ self.blocks ++ ps := fun b hb => List.mem_append_right _ hb
  refine meets_ite (fun hnull => ?_) fun hne => ?_
  · subst hnull
    exact ho₁.leaks
  have hpoints := Pointer.points_blocks hset hne ps
  refine Heap.meets_use hP ho₁ hpoints ?_
  refine Heap.meets_use hP ho₁ (hself.mono hmine) ?_
  refine Heap.meets_call hP (ho₁.valid (hremote.mono hmine).within) fun len _ => ?_
  refine meets_bind (connSend_meets hP ho₁ (hself.mono hmine) hpoints (hremote.mono hmine))
    fun rvalue h₂ ho₂ => ?_
  refine meets_ite (fun _ => ?_) fun _ => ?_
  · exact Heap.meets_free hP ho₂ hset fun h₃ ho₃ => ho₃.leaks
  refine Heap.meets_free hP ho₂ hset fun h₃ ho₃ => ?_
  refine meets_bind (connRecv_meets hP ho₃ hself) fun ndhead h₄ hreceived => ?_
  rcases hreceived with ⟨hlost, hl⟩ | ⟨b, b', hhead, hpayload, ho₄⟩
  · exact meets_ite (fun _ => hl.mono (by decide)) fun hne => absurd hlost hne
  refine meets_ite (fun hlost => absurd (hhead.symm.trans hlost) (by simp)) fun _ => ?_
  have hmine' : ∀ c ∈ ps, c ∈ b' :: b :: ps := fun c hc => List.mem_cons_of_mem _ (List.mem_cons_of_mem _ hc)
  refine Heap.meets_use hP ho₄ (by simp [hhead]) ?_
  refine meets_bind (readBuf_meets hP ho₄ (by simp [hpayload])) fun buf h₅ ho₅ => ?_
  refine meets_ite (fun _ => (@Heap.Owns.leak rest ps h₅ [b', b] ho₅).mono (by simp)) fun _ => ?_
  refine meets_bind (sendName_meets hP ho₅ (hself.mono hmine') (hdummy.mono hmine')) fun rvalue h₆ hl => ?_
  refine meets_ite (fun hfailed => ?_) fun hok => ?_
  · exact @Heap.Leaks.leak rest ps h₆ 1 [b', b] (hl.failed hfailed)
  · exact @Heap.Leaks.leak rest ps h₆ 0 [b', b] (hl.ok hok)

/-- How `netlink_setup` ends, in a process that owns `ps` besides its addresses. -/
def SetUp (rest ps : List Nat) (pdev : Pdev) (r : Int32 × Pdev) (h : Heap) : Prop :=
  r = (-1, pdev) ∧ h.Owns rest ps ∨
    ∃ nlSrcAddr nlDstAddr, nlSrcAddr ≠ .unset ∧ nlDstAddr ≠ .unset ∧ r.2 = { pdev with nlSrcAddr, nlDstAddr } ∧
      h.Owns rest (nlDstAddr.blocks ++ (nlSrcAddr.blocks ++ ps))

/-- How `conn_server` ends, in a process that owns `ps` besides the server's address. -/
def Connected (rest ps : List Nat) (pdev : Pdev) (r : Int32 × Pdev) (h : Heap) : Prop :=
  r = (-1, pdev) ∧ h.Owns rest ps ∨
    ∃ rmAddr, rmAddr ≠ .unset ∧ r.2 = { pdev with rmAddr } ∧ h.Owns rest (rmAddr.blocks ++ ps)

variable (hnull : ∀ h, P h (.use .null))
include hnull

theorem netlinkSetup_meets (ho : h.Owns rest ps) (hself : pdev.self.Points ps) :
    Meets P (SetUp rest ps pdev) (netlinkSetup pdev) h := by
  refine Heap.meets_use hP ho hself ?_
  refine Heap.meets_call hP trivial fun ok _ => ?_
  refine meets_ite (fun _ => .inl ⟨rfl, ho⟩) fun _ => ?_
  refine Heap.meets_malloc hP ho fun src h₁ hsrc ho₁ => ?_
  refine Heap.meets_malloc hP ho₁ fun dst h₂ hdst ho₂ => ?_
  have hwithin : src.Within (dst.blocks ++ (src.blocks ++ ps)) :=
    (Pointer.within_blocks hsrc ps).mono fun b hb => List.mem_append_right _ hb
  refine Heap.meets_follow hP ho₂ hwithin (hnull _) fun _ => ?_
  refine Heap.meets_follow hP ho₂ (Pointer.within_blocks hdst _) (hnull _) fun _ => ?_
  refine Heap.meets_call hP (ho₂.valid hwithin) fun ok _ => ?_
  refine meets_ite (fun _ => ?_) fun _ => ?_
  · exact .inr ⟨src, dst, hsrc, hdst, rfl, ho₂⟩
  · exact .inr ⟨src, dst, hsrc, hdst, rfl, ho₂⟩

/-- A null pointer that is followed here ends the process. -/
theorem follow_null_meets {α : Type} {Q : α → Heap → Prop} {k : Unit → MemoryM α} (ho : h.Owns rest ps) :
    Meets P Q (use .null >>= k) h :=
  Heap.meets_follow hP ho trivial (hnull _) fun hpoints => hpoints.elim

theorem connServer_meets (version : Int32) (ho : h.Owns rest ps) (hself : pdev.self.Points ps)
    (hip : pdev.rmIpaddr.Within ps) : Meets P (Connected rest ps pdev) (connServer version pdev) h := by
  refine Heap.meets_use hP ho hself ?_
  refine Heap.meets_call hP trivial fun ok _ => ?_
  refine meets_ite (fun _ => .inl ⟨rfl, ho⟩) fun _ => ?_
  refine Heap.meets_malloc hP ho fun addr h₁ haddr ho₁ => ?_
  have hmine : ∀ b ∈ ps, b ∈ addr.blocks ++ ps := fun b hb => List.mem_append_right _ hb
  have hend {rvalue : Int32} {h' : Heap} (ho' : h'.Owns rest (addr.blocks ++ ps)) :
      Connected rest ps pdev (rvalue, { pdev with rmAddr := addr }) h' := .inr ⟨addr, haddr, rfl, ho'⟩
  refine meets_ite (fun _ => hend ho₁) fun hne => ?_
  refine Heap.meets_use hP ho₁ (Pointer.points_blocks haddr hne ps) ?_
  refine Heap.meets_follow hP ho₁ (hip.mono hmine) (hnull _) fun _ => ?_
  refine Heap.meets_call hP (ho₁.valid (Pointer.within_blocks haddr ps)) fun ok _ => ?_
  refine meets_ite (fun _ => hend ho₁) fun _ => ?_
  refine Heap.meets_malloc hP ho₁ fun self h₂ hset ho₂ => ?_
  refine meets_ite (fun hnull => ?_) fun hne => ?_
  · subst hnull
    exact hend ho₂
  obtain ⟨b, rfl⟩ := Pointer.eq_block hset hne
  refine Heap.meets_use hP ho₂ List.mem_cons_self ?_
  refine Heap.meets_malloc hP ho₂ fun payload h₃ hset' ho₃ => ?_
  refine Heap.meets_follow hP ho₃ (Pointer.within_blocks hset' _) (hnull _) fun hpoints => ?_
  obtain ⟨b', rfl⟩ := hpoints.eq_block
  have hself₃ : pdev.self.Points (b' :: b :: (addr.blocks ++ ps)) := hself.mono fun c hc => by simp [hc]
  have hsent {h' : Heap} (ho' : h'.Owns rest (b' :: b :: (addr.blocks ++ ps))) {ndhead : Ndhead}
      (hhead : ndhead.self = .block b) (hpayload : ndhead.payload = .block b') :=
    freeMessage_meets hP hhead hpayload ho'
  refine meets_bind (connSend_meets hP ho₃ hself₃ (by simp) (by simp)) fun _ h₄ ho₄ => ?_
  refine meets_ite (fun _ => ?_) fun _ => ?_
  · exact meets_bind (hsent ho₄ rfl rfl) fun _ h₅ ho₅ => hend ho₅
  refine meets_bind (hsent ho₄ rfl rfl) fun _ h₅ ho₅ => ?_
  refine meets_bind (connRecv_meets hP ho₅ (hself.mono hmine)) fun ndhead h₆ hreceived => ?_
  rcases hreceived with ⟨hlost, l, -, hl⟩ | ⟨c, c', hhead, hpayload, ho₆⟩
  · refine meets_ite (fun _ => ?_) fun hne => absurd hlost hne
    unfold freeMessage
    rw [hlost]
    exact follow_null_meets hP hnull hl
  refine meets_ite (fun hlost => absurd (hhead.symm.trans hlost) (by simp)) fun _ => ?_
  refine Heap.meets_use hP ho₆ (by simp [hhead]) ?_
  have hfree : Meets P (Connected rest ps pdev) (do
      freeMessage ndhead
      return (0, { pdev with rmAddr := addr })) h₆ :=
    meets_bind (freeMessage_meets hP hhead hpayload ho₆) fun _ h₇ ho₇ => hend ho₇
  refine meets_ite (fun _ => hfree) fun _ => ?_
  exact Heap.meets_use hP ho₆ (by simp [hpayload]) hfree

theorem connClient_meets (version : Int32) (ho : h.Owns rest ps) (hself : pdev.self.Points ps) :
    Meets P (Leaked rest ps 2 0) (connClient version pdev) h := by
  refine meets_bind (connRecv_meets hP ho hself) fun ndhead h₁ hreceived => ?_
  rcases hreceived with ⟨hlost, l, -, hl⟩ | ⟨b, b', hhead, hpayload, ho₁⟩
  · rw [hlost]
    exact follow_null_meets hP hnull hl
  have hself₁ := hself.mono fun c hc => List.mem_cons_of_mem b' (List.mem_cons_of_mem b hc)
  refine Heap.meets_use hP ho₁ (by simp [hhead]) ?_
  refine meets_ite (fun _ => @Heap.Owns.leak rest ps h₁ [b', b] ho₁) fun _ => ?_
  refine meets_bind (readBuf_meets hP ho₁ (by simp [hpayload])) fun buf h₂ ho₂ => ?_
  refine meets_bind (connSend_meets hP ho₂ hself₁ (by simp [hhead]) (by simp [hpayload])) fun _ h₃ ho₃ => ?_
  refine meets_ite (fun _ => ?_) fun _ => ?_
  · exact meets_bind (freeMessage_meets hP hhead hpayload ho₃) fun _ h₄ ho₄ => ho₄.leaks
  · exact meets_bind (freeMessage_meets hP hhead hpayload ho₃) fun _ h₄ ho₄ => ho₄.leaks

theorem connRecvDevReg_meets (ho : h.Owns rest ps) (hself : pdev.self.Points ps) :
    Meets P (fun r h' => r.1 ≠ -1 → ∃ remoteDevName, remoteDevName ≠ .unset ∧ r.2 = { pdev with remoteDevName } ∧
      h'.Leaks rest 2 (remoteDevName.blocks ++ ps)) (connRecvDevReg pdev) h := by
  refine meets_bind (connRecv_meets hP ho hself) fun ndhead h₁ hreceived => ?_
  rcases hreceived with ⟨hlost, l, -, hl⟩ | ⟨b, b', hhead, hpayload, ho₁⟩
  · rw [hlost]
    exact follow_null_meets hP hnull hl
  refine Heap.meets_use hP ho₁ (by simp [hhead]) ?_
  refine meets_ite (fun _ hok => absurd rfl hok) fun _ => ?_
  refine Heap.meets_malloc hP ho₁ fun name h₂ hset ho₂ => ?_
  have hself₂ : pdev.self.Points (name.blocks ++ (b' :: b :: ps)) := hself.mono fun c hc => by simp [hc]
  refine Heap.meets_use hP ho₂ hself₂ ?_
  refine meets_ite (fun _ hok => absurd rfl hok) fun hne => ?_
  have hname := Pointer.points_blocks hset hne (b' :: b :: ps)
  refine Heap.meets_use hP ho₂ hname ?_
  refine Heap.meets_use hP ho₂ (by simp [hpayload]) ?_
  refine meets_bind (sendName_meets hP ho₂ hself₂ hname.within) fun rvalue h₃ hl => ?_
  refine meets_ite (fun _ hok => absurd rfl hok) fun hok => ?_
  refine Heap.meets_malloc hP (hl.ok hok).owns fun payload h₄ hset' ho₄ => ?_
  refine Heap.meets_follow hP ho₄ (Pointer.within_blocks hset' _) (hnull _) fun hpayload' => ?_
  have hself₄ := hself₂.mono fun c hc => List.mem_append_right payload.blocks hc
  have hhead₄ : ndhead.self.Points (payload.blocks ++ (name.blocks ++ (b' :: b :: ps))) := by simp [hhead]
  refine meets_bind (connSend_meets hP ho₄ hself₄ hhead₄ hpayload') fun _ h₅ ho₅ => ?_
  refine meets_ite (fun _ hok => absurd rfl hok) fun _ => ?_
  refine Heap.meets_free hP ho₅ hset' fun h₆ ho₆ _ => ⟨name, hset, rfl, ?_⟩
  refine @Heap.Owns.leak rest (name.blocks ++ ps) h₆ [b', b] (ho₆.count fun c => ?_)
  simp [List.count_cons]
  omega

/-! ## The client -/

/-- What `read_config` has allocated for a line. -/
structure Configured (rest : List Nat) (pdev : Pdev) (h : Heap) : Prop where
  whole : pdev.Whole
  name : pdev.remoteDevName ≠ .null
  nlSrcAddr : pdev.nlSrcAddr = .null
  nlDstAddr : pdev.nlDstAddr = .null
  rmAddr : pdev.rmAddr = .null
  owns : h.Owns rest pdev.blocks

theorem allocPdev_meets (ho : h.Owns rest []) : Meets P (Configured rest) allocPdev h := by
  refine Heap.meets_malloc hP ho fun self h₁ hself ho₁ => ?_
  refine Heap.meets_follow hP ho₁ (Pointer.within_blocks hself _) (hnull _) fun hpoints => ?_
  refine Heap.meets_malloc hP ho₁ fun remote h₂ hremote ho₂ => ?_
  refine Heap.meets_malloc hP ho₂ fun dummy h₃ hdummy ho₃ => ?_
  refine Heap.meets_malloc hP ho₃ fun ip h₄ hip ho₄ => ?_
  have hwhole : Pdev.Whole ⟨self, .null, .null, .null, .null, ip, remote, dummy⟩ :=
    ⟨by simp [Pdev.pointers, hself, hremote, hdummy, hip], hpoints.ne_null⟩
  have howns : h₄.Owns rest (Pdev.blocks ⟨self, .null, .null, .null, .null, ip, remote, dummy⟩) := by
    refine ho₄.count fun b => ?_
    simp [Pdev.blocks, Pdev.pointers]
    omega
  refine Heap.meets_follow hP howns (hwhole.within (by simp [Pdev.pointers])) (hnull _) fun hname => ?_
  refine Heap.meets_follow hP howns (hwhole.within (by simp [Pdev.pointers])) (hnull _) fun _ => ?_
  refine Heap.meets_follow hP howns (hwhole.within (by simp [Pdev.pointers])) (hnull _) fun _ => ?_
  exact ⟨hwhole, hname.ne_null, rfl, rfl, rfl, howns⟩

/-- Where `proxy_client` gives up it has leaked three blocks; else the loop begins, with two. -/
def ClientUp (rest : List Nat) : Option Pdev → Heap → Prop
  | none, h => h.Leaks rest 3 []
  | some pdev, h => pdev.Whole ∧ h.Leaks rest 2 pdev.blocks

omit hnull in
theorem giveUp_meets (hwhole : pdev.Whole) (hl : h.Leaks rest 3 pdev.blocks) :
    Meets P (ClientUp rest) (do
      proxyDestroy pdev
      return none) h := by
  obtain ⟨l, hlen, ho⟩ := hl
  refine meets_bind (proxyDestroy_meets hP hwhole (ho.perm List.perm_append_comm)) fun _ h₁ ho₁ => ?_
  exact ⟨l, hlen, by simpa using ho₁⟩

theorem proxyClient_meets (version : Int32) (hconf : Configured rest pdev h) :
    Meets P (ClientUp rest) (proxyClient version pdev) h := by
  obtain ⟨hwhole, hname, hsrc, hdst, hrm, ho⟩ := hconf
  refine Heap.meets_use hP ho hwhole.points ?_
  refine Heap.meets_call hP trivial fun ok _ => ?_
  refine meets_ite (fun _ => giveUp_meets hP hwhole ho.leaks) fun _ => ?_
  refine meets_bind (netlinkSetup_meets hP hnull ho hwhole.points) fun r h₁ hsetup => ?_
  have hsetup' : r.2.Whole ∧ r.2.remoteDevName ≠ .null ∧ r.2.rmAddr = .null ∧ h₁.Owns rest r.2.blocks := by
    rcases hsetup with ⟨rfl, ho₁⟩ | ⟨src, dst, hsrc', hdst', hpdev, ho₁⟩
    · exact ⟨hwhole, hname, hrm, ho₁⟩
    · rw [hpdev]
      refine ⟨⟨?_, hwhole.self⟩, hname, hrm, ho₁.count fun b => ?_⟩
      · have hset := hwhole.set
        simp only [Pdev.pointers, List.forall_mem_cons] at hset ⊢
        exact ⟨hsrc', hdst', hset.2.2⟩
      · simp [Pdev.blocks, Pdev.pointers, hsrc, hdst]
        omega
  clear hsetup
  obtain ⟨rvalue, pdev⟩ := r
  obtain ⟨hwhole, hname, hrm, ho⟩ := hsetup'
  refine meets_ite (fun _ => giveUp_meets hP hwhole ho.leaks) fun _ => ?_
  have hip := hwhole.within (p := pdev.rmIpaddr) (by simp [Pdev.pointers])
  refine meets_bind (connServer_meets hP hnull version ho hwhole.points hip) fun r h₂ hconn => ?_
  have hconn' : r.2.Whole ∧ r.2.remoteDevName ≠ .null ∧ h₂.Owns rest r.2.blocks := by
    rcases hconn with ⟨rfl, ho₂⟩ | ⟨addr, haddr, hpdev, ho₂⟩
    · exact ⟨hwhole, hname, ho₂⟩
    · rw [hpdev]
      refine ⟨⟨?_, hwhole.self⟩, hname, ho₂.count fun b => ?_⟩
      · have hset := hwhole.set
        simp only [Pdev.pointers, List.forall_mem_cons] at hset ⊢
        exact ⟨hset.1, hset.2.1, haddr, hset.2.2.2⟩
      · simp [Pdev.blocks, Pdev.pointers] at hrm ⊢
        simp [hrm]
        omega
  clear hconn
  obtain ⟨rvalue, pdev⟩ := r
  obtain ⟨hwhole, hname, ho⟩ := hconn'
  refine meets_ite (fun _ => giveUp_meets hP hwhole ho.leaks) fun _ => ?_
  have hremote := (hwhole.within (p := pdev.remoteDevName) (by simp [Pdev.pointers])).points hname
  have hdummy := hwhole.within (p := pdev.dummyDevName) (by simp [Pdev.pointers])
  refine meets_bind (connSendDevReg_meets hP ho hwhole.points hremote hdummy) fun rvalue h₃ hl => ?_
  refine meets_ite (fun hfailed => ?_) fun hok => ?_
  · exact giveUp_meets hP hwhole (hl.failed hfailed)
  · exact ⟨hwhole, hl.ok hok⟩

/-! ## The server -/

omit hnull in
/-- Before it serves its client the server has set these pointers only. -/
theorem proxyAllocDev_meets (ho : h.Owns rest []) :
    Meets P (fun pdev h' => pdev.self ≠ .null → ∃ self rmAddr, self ≠ .unset ∧ rmAddr ≠ .unset ∧
      pdev = ⟨self, .unset, .unset, rmAddr, .unset, .unset, .unset, .unset⟩ ∧
      h'.Owns rest (rmAddr.blocks ++ self.blocks)) proxyAllocDev h := by
  refine Heap.meets_malloc hP ho fun self h₁ hself ho₁ => ?_
  refine meets_ite (fun hlost hne => absurd hlost hne) fun hne => ?_
  refine Heap.meets_malloc hP ho₁ fun addr h₂ haddr ho₂ => ?_
  refine Heap.meets_call hP (ho₂.valid (Pointer.within_blocks haddr _)) fun ok _ => ?_
  refine meets_ite (fun _ hne => absurd rfl hne) fun _ => ?_
  have hself₂ := (Pointer.points_blocks hself hne []).mono fun b hb => List.mem_append_right addr.blocks hb
  refine Heap.meets_use hP ho₂ hself₂ fun _ => ⟨self, addr, hself, haddr, rfl, ?_⟩
  simpa using ho₂

/-- A device with which `proxy_destroy` finds `us_addr` after three pointers that were set. -/
structure Pdev.Unfinished (pdev : Pdev) : Prop where
  self : pdev.self ≠ .unset ∧ pdev.self ≠ .null
  nlSrcAddr : pdev.nlSrcAddr ≠ .unset
  nlDstAddr : pdev.nlDstAddr ≠ .unset
  rmAddr : pdev.rmAddr ≠ .unset
  usAddr : pdev.usAddr = .unset

omit hP hnull in
theorem Pdev.Unfinished.points (hunfinished : pdev.Unfinished) : pdev.self.Points pdev.blocks := by
  refine (Pointer.points_blocks hunfinished.self.1 hunfinished.self.2 []).mono fun b hb => ?_
  simp [Pdev.blocks, Pdev.pointers] at hb ⊢
  simp [hb]

theorem proxyServer_meets (version : Int32) (ho : h.Owns rest []) :
    Meets P (fun r h' => ∀ pdev, r = some pdev → pdev.Unfinished ∧ h'.Leaks rest 2 pdev.blocks)
      (proxyServer version) h := by
  refine meets_bind (proxyAllocDev_meets hP ho) fun pdev h₁ halloc => ?_
  refine meets_ite (fun _ _ hr => absurd hr (by simp)) fun hne => ?_
  obtain ⟨self, addr, hself, haddr, rfl, ho₁⟩ := halloc hne
  have hself₁ : self.Points (addr.blocks ++ self.blocks) := by
    simpa using (Pointer.points_blocks hself hne []).mono fun b hb => List.mem_append_right addr.blocks hb
  refine Heap.meets_use hP ho₁ hself₁ ?_
  refine Heap.meets_call hP trivial fun ok _ => ?_
  refine meets_ite (fun _ _ hr => absurd hr (by simp)) fun _ => ?_
  refine meets_bind (netlinkSetup_meets hP hnull ho₁ hself₁) fun r h₂ hsetup => ?_
  rcases hsetup with ⟨rfl, -⟩ | ⟨src, dst, hsrc, hdst, hpdev, ho₂⟩
  · intro pdev hr
    exact absurd hr (by simp)
  obtain ⟨rvalue, pdev⟩ := r
  subst hpdev
  have hself₂ := hself₁.mono fun b hb => List.mem_append_right dst.blocks (List.mem_append_right src.blocks hb)
  refine meets_ite (fun _ _ hr => absurd hr (by simp)) fun _ => ?_
  refine meets_bind (connClient_meets hP hnull version ho₂ hself₂) fun rvalue h₃ hl => ?_
  refine meets_ite (fun _ _ hr => absurd hr (by simp)) fun hok => ?_
  refine meets_bind (connRecvDevReg_meets hP hnull (hl.ok hok).owns hself₂) fun r h₄ hreg => ?_
  obtain ⟨rvalue, pdev⟩ := r
  refine meets_ite (fun _ _ hr => absurd hr (by simp)) fun hok => ?_
  obtain ⟨name, hname, hpdev, l, hlen, ho₄⟩ := hreg hok
  subst hpdev
  rintro pdev ⟨⟩
  refine ⟨⟨⟨hself, hne⟩, hsrc, hdst, haddr, rfl⟩, l, hlen, ho₄.count fun b => ?_⟩
  simp [Pdev.blocks, Pdev.pointers]
  omega

end

/-! ## Sample surroundings -/

namespace Sample

/-- So many bytes, with zeros where there are none. -/
def filled (bytes : Bytes) (size : Nat) : Bytes := (bytes ++ List.replicate size 0).take size

/-- Every call succeeds until the control socket ends the loop. The kernel acknowledges each
message, and each frame is a registration with the payload given. -/
def answer (payload : Bytes) : (op : Syscall) → op.Res
  | .socketpair | .socket | .bind _ | .connect _ | .getsockopt => true
  | .getpeername addr => addr ≠ .null
  | .select => some ⟨true, false, false⟩
  | .strlen _ => 3
  | .recvall fd _ buf size =>
      if buf = .null ∨ size = 0 then
        none
      else
        match fd with
        | .nl => some (filled ((NlMessage.build 7 0 0 []).ack 0).bytes size)
        | .rm =>
            if size = sizeof NetdevHeader then
              some (filled (toBytes (⟨MSGT_CONTROL_REG_SERVER, 0, 4, 0⟩ : NetdevHeader)) size)
            else
              some (filled payload size)
  | .sendall _ _ => true
  | .overread n => zeros n

theorem length_filled (bytes : Bytes) (size : Nat) : (filled bytes size).length = size := by
  simp [filled]

theorem answer_answers (payload : Bytes) (op : Syscall) : calls.Answers ⟨op, answer payload op⟩ := by
  cases op with
  | getpeername addr => exact ⟨fun hnull => by simp [answer, hnull], trivial⟩
  | recvall fd peek buf size =>
      have hfull : ∀ bytes, answer payload (.recvall fd peek buf size) = some bytes →
          buf ≠ .null ∧ 0 < size ∧ bytes.length = size := by
        intro bytes hbytes
        simp only [answer] at hbytes
        split at hbytes
        · cases hbytes
        rename_i hroom
        rw [not_or] at hroom
        refine ⟨hroom.1, Nat.pos_of_ne_zero hroom.2, ?_⟩
        cases fd with
        | nl =>
            cases hbytes
            exact length_filled _ size
        | rm =>
            simp only at hbytes
            split at hbytes
            · cases hbytes
              exact length_filled _ size
            · cases hbytes
              exact length_filled _ size
      refine ⟨fun bytes hbytes => ?_, fun bytes hbytes => (hfull bytes hbytes).2.2.le⟩
      obtain ⟨hne, hpos, hlen⟩ := hfull bytes hbytes
      exact ⟨hne, hpos, hlen.ge⟩
  | _ => exact ⟨trivial, trivial⟩

/-- The device of a client in an empty process when its loop begins. -/
def client : Pdev := ⟨.block 1, .block 5, .block 6, .block 7, .null, .block 4, .block 2, .block 3⟩

/-- That of a server. -/
def server : Pdev := ⟨.block 1, .block 3, .block 4, .block 2, .unset, .unset, .block 7, .unset⟩

end Sample

/-! ## Whole lives -/

/-- What happens to a client after it was set up: where `proxy_client` gives up it has leaked
three blocks, and else it goes on until it has freed its device. -/
def ClientLife (rest : List Nat) : Option Pdev → Heap → Prop
  | none, h => h.Leaks rest 3 []
  | some pdev, h => ∀ turns, Meets Heap.Proceeds (ForwardEnd rest pdev) (proxyForward turns pdev) h

/-- A server goes on, or it frees a pointer that nobody set. -/
def ServerAdmits (h : Heap) (op : HeapOp calls) : Prop := h.Proceeds op ∨ op = .free .unset

/-- What happens to a server after it was set up: without the free of a pointer that nobody
set it does not come to its end. -/
def ServerLife (rest : List Nat) : Option Pdev → Heap → Prop
  | none, _ => True
  | some pdev, h => ∀ turns, Prog.meets (Heap.BeforeUnset calls) ServerAdmits
      (fun ended h' => ended = false ∧ h'.Leaks rest 2 pdev.blocks) (proxyForward turns pdev) h

section
variable {rest : List Nat} {h : Heap} {pdev : Pdev}

theorem exists_answer (op : Syscall) : ∃ r, calls.Answers ⟨op, r⟩ := by
  cases op with
  | getpeername addr => exact ⟨false, fun _ => rfl, trivial⟩
  | recvall fd peek buf size =>
      exact ⟨none, fun bytes hr => absurd hr (by simp), fun bytes hr => absurd hr (by simp)⟩
  | strlen s => exact ⟨0, trivial, trivial⟩
  | select => exact ⟨none, trivial, trivial⟩
  | overread n => exact ⟨zeros n, trivial, trivial⟩
  | _ => exact ⟨true, trivial, trivial⟩

theorem proceeds : Heap.Allows (C := calls) Heap.Proceeds := Heap.allows_proceeds exists_answer

/-- What is on the heap when a proxy is started belongs to the rest of the process. -/
theorem owns_start (live : List Nat) : Heap.Owns live [] ⟨live, []⟩ := by
  simp [Heap.Owns]

/-- A client uses and frees only what it owns, and once it is set up no failed allocation stops
it. What it leaks does not depend on how many messages it forwards. -/
theorem client_owns (version : Int32) (live : List Nat) :
    Meets Heap.Admits (ClientLife live) (allocPdev >>= proxyClient version) ⟨live, []⟩ := by
  have hP : Heap.Allows (C := calls) Heap.Admits := fun h op hop _ => hop
  have hnull : ∀ h, Heap.Admits h (HeapOp.use .null : HeapOp calls) := fun h => trivial
  refine meets_bind (allocPdev_meets hP hnull (owns_start live)) fun pdev h hconf => ?_
  refine (proxyClient_meets hP hnull version hconf).mono (fun h op hop => hop) fun r h hup => ?_
  cases r with
  | none => exact hup
  | some pdev =>
      obtain ⟨hwhole, hl⟩ := hup
      exact fun turns => proxyForward_meets proceeds turns hwhole hl

/-- A client whose every call succeeds comes to its loop, and leaks two blocks until its end. -/
theorem client_owns_run : ∃ h h' : Heap,
    Reaches (Heap.Serves calls) (allocPdev >>= proxyClient 1) ⟨[], []⟩ (.ret (some Sample.client)) h ∧
    Reaches (Heap.Serves calls) (proxyForward 1 Sample.client) h (.ret true) h' ∧ h'.live.length = 2 ∧
    ClientLife [] (some Sample.client) h := by
  have hanswers := Sample.answer_answers (toBytes NETDEV_PROTOCOL_SUCCESS)
  have hup : Heap.run (C := calls) (Sample.answer (toBytes NETDEV_PROTOCOL_SUCCESS)) (allocPdev >>= proxyClient 1)
      ⟨[], []⟩ = some (some Sample.client, ⟨[9, 8, 7, 6, 5, 4, 3, 2, 1], []⟩) := by decide +kernel
  have hend : Heap.run (C := calls) (Sample.answer (toBytes NETDEV_PROTOCOL_SUCCESS)) (proxyForward 1 Sample.client)
      ⟨[9, 8, 7, 6, 5, 4, 3, 2, 1], []⟩ = some (true, ⟨[9, 8], []⟩) := by decide +kernel
  have hreaches := Heap.reaches_of_run hanswers .start hup
  exact ⟨_, _, hreaches, Heap.reaches_of_run hanswers .start hend, rfl, hreaches.meets (client_owns 1 [])⟩

/-- `proxy_destroy` up to the free of `us_addr`. -/
def destroyAddrs (pdev : Pdev) : MemoryM Unit := do
  use pdev.self
  free pdev.nlSrcAddr
  free pdev.nlDstAddr
  free pdev.rmAddr

/-- `us_addr` is the fourth pointer that `proxy_destroy` frees. -/
theorem proxyDestroy_unset {l : List Nat} (hunfinished : pdev.Unfinished) (ho : h.Owns rest (pdev.blocks ++ l)) :
    Prog.meets (Heap.BeforeUnset calls) ServerAdmits (fun _ _ => False) (proxyDestroy pdev) h := by
  have hP : Heap.Allows ServerAdmits := fun h op hop hne => .inl (proceeds h op hop hne)
  have haddrs : Meets ServerAdmits (fun _ _ => True) (destroyAddrs pdev) h := by
    refine Heap.meets_use hP ho (hunfinished.points.mono fun b hb => List.mem_append_left _ hb) ?_
    simp only [Pdev.blocks, Pdev.pointers, List.flatMap_cons, List.flatMap_nil, List.append_assoc] at ho
    refine Heap.meets_free hP ho hunfinished.nlSrcAddr fun _ ho => ?_
    refine Heap.meets_free hP ho hunfinished.nlDstAddr fun _ ho => ?_
    exact Heap.meets_free hP ho hunfinished.rmAddr fun _ _ => trivial
  have hdestroy : proxyDestroy pdev = (do
      destroyAddrs pdev
      free pdev.usAddr
      free pdev.rmIpaddr
      free pdev.remoteDevName
      free pdev.dummyDevName
      free pdev.self) := rfl
  rw [hdestroy, hunfinished.usAddr]
  exact meets_bind (Heap.meets_before haddrs) fun _ h₁ _ => Heap.meets_freeUnset (.inr rfl)

theorem proxyForward_unset (turns : Nat) (hunfinished : pdev.Unfinished) (hl : h.Leaks rest 2 pdev.blocks) :
    Prog.meets (Heap.BeforeUnset calls) ServerAdmits (fun ended h' => ended = false ∧ h'.Leaks rest 2 pdev.blocks)
      (proxyForward turns pdev) h := by
  have hP : Heap.Allows ServerAdmits := fun h op hop hne => .inl (proceeds h op hop hne)
  obtain ⟨l, hlen, ho⟩ := hl
  have hself : pdev.self.Points (l ++ pdev.blocks) :=
    hunfinished.points.mono fun b hb => List.mem_append_right _ hb
  refine meets_bind (Heap.meets_before (proxyLoop_meets hP turns ho hself)) fun r h₁ hl => ?_
  cases r with
  | none => exact ⟨rfl, l, hlen, hl.owns⟩
  | some rvalue =>
      obtain ⟨l', -, ho⟩ := hl
      have hself : pdev.self.Points (l' ++ (l ++ pdev.blocks)) :=
        hself.mono fun b hb => List.mem_append_right _ hb
      refine meets_bind (Heap.meets_before (netlinkSendMsg_meets hP ho hself trivial)) fun rvalue h₂ hl => ?_
      obtain ⟨l'', -, ho⟩ := Heap.Leaks.leak (Heap.Leaks.leak hl)
      exact meets_bind (proxyDestroy_unset hunfinished (ho.perm List.perm_append_comm))
        fun _ _ hfalse => hfalse.elim

/-- A server, too, uses only what it owns, but from `proxy_loop` it comes to its end only past
the `free` of a pointer that nobody set, and everything before that goes on. -/
theorem server_owns (version : Int32) (live : List Nat) :
    Meets Heap.Admits (ServerLife live) (proxyServer version) ⟨live, []⟩ := by
  have hP : Heap.Allows (C := calls) Heap.Admits := fun h op hop _ => hop
  have hnull : ∀ h, Heap.Admits h (HeapOp.use .null : HeapOp calls) := fun h => trivial
  refine (proxyServer_meets hP hnull version (owns_start live)).mono (fun h op hop => hop) fun r h hup => ?_
  cases r with
  | none => trivial
  | some pdev =>
      obtain ⟨hunfinished, hl⟩ := hup pdev rfl
      exact fun turns => proxyForward_unset turns hunfinished hl

/-- A server whose every call succeeds comes to its loop; without the free of `us_addr` it does
not come to its end. -/
theorem server_owns_run : ∃ h : Heap,
    Reaches (Heap.Serves calls) (proxyServer 1) ⟨[], []⟩ (.ret (some Sample.server)) h ∧
    ServerLife [] (some Sample.server) h := by
  have hup : Heap.run (C := calls) (Sample.answer (toBytes (1 : Int32))) (proxyServer 1) ⟨[], []⟩
      = some (some Sample.server, ⟨[7, 6, 5, 4, 3, 2, 1], []⟩) := by decide +kernel
  have hreaches := Heap.reaches_of_run (Sample.answer_answers (toBytes (1 : Int32))) .start hup
  exact ⟨_, hreaches, hreaches.meets (server_owns 1 [])⟩

end

end Netdev.Daemon.Memory
