-- SUMMARY: `sendall`, which offers `sendmsg` as many bytes as it has sent, and when `conn_send` sends exactly its frame.
import Netdev.Daemon.Framing

/-!
# Sending a frame

Like `recvall`, `sendall` sets `iov_len` to the number of bytes that are done, not to
those that are missing. The rest of a frame is sent from its buffer only when the last
piece that `sendmsg` accepts is half of the frame.
-/

namespace Netdev.Daemon
open Base

/-- What one call of `sendmsg` does: it accepts a piece of the given length, fails, or
accepts nothing. -/
inductive SendEvent where
  | data (n : Nat)
  | error
  | nothing
  deriving DecidableEq

/-- What a call of `sendmsg` is given: how far `iov_base` has moved, and `iov_len`. -/
structure Offer where
  base : Nat
  len : Nat
  deriving DecidableEq

/-- What a sending function has done: the offers that it made, and the bytes that were
accepted. -/
structure Outbound where
  offers : List Offer
  stream : Bytes
  deriving DecidableEq

/-- How a sending function ends; `rest` is what `sendmsg` has not been asked. `illegal`
marks an event that `sendmsg` cannot produce, such as a piece longer than what it was
offered or than an `int`; `blocked` is a call that never returns. -/
inductive Send where
  | ok (out : Outbound) (rest : List SendEvent)
  | failed (out : Outbound)
  | illegal
  | blocked
  deriving DecidableEq

/-- A part of the memory. -/
def window (memory : Nat → UInt8) (base n : Nat) : Bytes := (List.range n).map fun i => memory (base + i)

/-- The loop of `sendall`. After each piece `iov_len` becomes the number of bytes sent so
far. The memory begins with the buffer that is sent. -/
def sendallLoop (memory : Nat → UInt8) (size : Int) (iov : Offer) (bytes : Int) (out : Outbound) :
    List SendEvent → Send
  | [] => .blocked
  | .error :: _ => .failed { out with offers := out.offers ++ [iov] }
  | .nothing :: _ => .failed { out with offers := out.offers ++ [iov] }
  | .data n :: es =>
      if 0 < n ∧ n ≤ iov.len ∧ n ≤ INT_MAX then
        let out := ⟨out.offers ++ [iov], out.stream ++ window memory iov.base n⟩
        let bytes := cInt (bytes + n)
        if bytes < size then
          sendallLoop memory size ⟨iov.base + n, cSize bytes⟩ bytes out es
        else
          .ok out es
      else
        .illegal

/-- `sendall` for a buffer of `size` bytes; the parameter `size` of the C function is an
`int`. -/
def sendall (memory : Nat → UInt8) (size : Nat) (es : List SendEvent) : Send :=
  sendallLoop memory (cInt size) ⟨0, size⟩ 0 ⟨[], []⟩ es

/-- The memory from the start of a heap buffer on. -/
def memoryAt (buf : Bytes) (behind : Nat → UInt8) (i : Nat) : UInt8 := buf.getD i (behind i)

/-- `conn_send`; `ok` says whether its allocation succeeds. -/
def connSend (ok : Bool) (behind : Nat → UInt8) (ndhead : NetdevHeader) (payload : Bytes)
    (es : List SendEvent) : Mem Send :=
  if !ok then
    return .failed ⟨[], []⟩
  else do
    let buff ← connSendBuff ndhead payload
    return sendall (memoryAt buff behind) buff.length es

/-- The frame is on the stream, each byte once and in order, and no offer reached behind
its buffer. -/
structure Outbound.Exactly (out : Outbound) (frame : Bytes) : Prop where
  stream : out.stream = frame
  inside : ∀ o ∈ out.offers, o.base + o.len ≤ frame.length

/-- After `done` bytes the rest is sent in these pieces, and if anything was sent before
the last of them, then it is as long as all of that: half of the whole. -/
def InHalves (total done : Nat) (ps : List Nat) : Prop :=
  ∃ qs h, ps = qs ++ [h] ∧ done + qs.sum + h = total ∧ (0 < done + qs.sum → done + qs.sum = h)

/-! ## The memory -/

section Memory
variable {memory : Nat → UInt8}

@[simp] theorem window_length (base n : Nat) : (window memory base n).length = n := by
  simp [window]

theorem window_add (a b : Nat) : window memory 0 (a + b) = window memory 0 a ++ window memory a b := by
  simp [window, List.range_add]

theorem window_memoryAt (buf : Bytes) (behind : Nat → UInt8) :
    window (memoryAt buf behind) 0 buf.length = buf := by
  apply List.ext_getElem
  · simp
  · intro i hi hi'
    simp [window, memoryAt, hi']

end Memory

/-! ## The loop -/

section Loop
variable {memory : Nat → UInt8} {total done len : Nat} {out out' : Outbound}

/-- No offer is taken back. -/
theorem sendallLoop_offers {size bytes : Int} {iov : Offer} {es rest : List SendEvent}
    (h : sendallLoop memory size iov bytes out es = .ok out' rest) :
    iov ∈ out'.offers ∧ ∀ o ∈ out.offers, o ∈ out'.offers := by
  induction es generalizing iov bytes out with
  | nil => simp [sendallLoop] at h
  | cons e es ih =>
      cases e with
      | error => simp [sendallLoop] at h
      | nothing => simp [sendallLoop] at h
      | data n =>
          simp only [sendallLoop] at h
          split at h
          · split at h
            · obtain ⟨-, hkeep⟩ := ih h
              constructor
              · apply hkeep
                simp
              · intro o ho
                apply hkeep
                simp [ho]
            · cases h
              constructor
              · simp
              · intro o ho
                simp [ho]
          · cases h

theorem inHalves_cons {p : Nat} {ps : List Nat} (h : done + p ≠ total) :
    InHalves total done (p :: ps) ↔ InHalves total (done + p) ps := by
  constructor
  · intro ⟨qs, q, hps, hsum, hhalf⟩
    cases qs with
    | nil =>
        simp at hps hsum
        omega
    | cons q' qs =>
        simp only [List.cons_append, List.cons.injEq] at hps
        obtain ⟨rfl, rfl⟩ := hps
        simp only [List.sum_cons, ← Nat.add_assoc] at hsum hhalf
        exact ⟨qs, q, rfl, hsum, hhalf⟩
  · intro ⟨qs, q, hps, hsum, hhalf⟩
    refine ⟨p :: qs, q, by simp [hps], ?_, ?_⟩
    · simpa [← Nat.add_assoc] using hsum
    · simpa [← Nat.add_assoc] using hhalf

/-- The loop of `sendall` with `done` bytes on the stream: the offers stay inside the buffer
exactly when the pieces are in halves, and then the whole buffer is sent. The induction is
on the pieces; an offer that leaves the buffer is never taken back. -/
theorem sendallLoop_inside_iff {ps : List Nat} (hdone : done < total) (hmax : total ≤ INT_MAX)
    (hlen : len = if done = 0 then total else done) (hbefore : ∀ o ∈ out.offers, o.base + o.len ≤ total)
    (hstream : out.stream = window memory 0 done)
    (h : sendallLoop memory total ⟨done, len⟩ done out (ps.map .data) = .ok out' []) :
    ((∀ o ∈ out'.offers, o.base + o.len ≤ total) ↔ InHalves total done ps) ∧
      (InHalves total done ps → out'.stream = window memory 0 total) := by
  induction ps generalizing done len out with
  | nil => simp [sendallLoop] at h
  | cons p ps ih =>
      have hoffers := sendallLoop_offers h
      simp only [List.map_cons, sendallLoop] at h
      split at h
      · rename_i hlegal
        by_cases hin : done + len ≤ total
        · -- This offer is inside, so what is accepted of it is.
          have hp : done + p ≤ total := by omega
          have hbytes : cInt ((done : Int) + p) = (done + p : Nat) := cInt_add (by omega)
          have hbefore' : ∀ o ∈ out.offers ++ [⟨done, len⟩], o.base + o.len ≤ total := by
            simp
            intro o ho
            exact ho.elim (hbefore o) fun ho => by simpa [ho] using hin
          have hstream' : out.stream ++ window memory done p = window memory 0 (done + p) := by
            rw [hstream, window_add]
          rw [hbytes, hstream'] at h
          by_cases hlast : done + p = total
          · rw [if_neg (by omega)] at h
            cases ps with
            | cons q qs => simp at h
            | nil =>
                cases h
                have hhalf : InHalves total done [p] := by
                  refine ⟨[], p, rfl, by simpa using hlast, ?_⟩
                  intro hpos
                  rw [List.sum_nil, Nat.add_zero] at hpos ⊢
                  rw [if_neg (by omega)] at hlen
                  omega
                rw [← hlast] at hhalf hbefore' ⊢
                exact ⟨⟨fun _ => hhalf, fun _ => hbefore'⟩, fun _ => rfl⟩
          · have hsize : cSize ((done + p : Nat) : Int) = done + p := cSize_of_le_INT_MAX (by omega)
            rw [if_pos (by omega), hsize] at h
            rw [inHalves_cons hlast]
            exact ih (by omega) (by rw [if_neg (by omega)]) hbefore' rfl h
        · -- The offer that has left the buffer is the second or a later one.
          have hnot : ¬ InHalves total done (p :: ps) := by
            intro ⟨qs, q, _, hsum, hhalf⟩
            split at hlen
            · omega
            · have hq := hhalf (by omega)
              omega
          have hleft : ¬ ∀ o ∈ out'.offers, o.base + o.len ≤ total := fun hall => hin (hall _ hoffers.1)
          exact ⟨iff_of_false hleft hnot, fun hhalf => absurd hhalf hnot⟩
      · cases h

end Loop

/-! ## Frames -/

/-- For every frame, of less than 2 GiB with its header, and every way `sendmsg` may
accept it, a `conn_send` that returns 0 has sent the frame and offered nothing else
exactly when it was accepted at once or its last half was. -/
theorem connSend_exactly_iff (f : Frame) (hmax : f.bytes.length ≤ INT_MAX) {ok : Bool}
    {behind : Nat → UInt8} {ps : List Nat} {out : Outbound}
    (h : connSend ok behind f.header f.payload (ps.map .data) = .ok (.ok out [])) :
    out.Exactly f.bytes ↔ InHalves f.bytes.length 0 ps := by
  cases ok with
  | false => exact nomatch h
  | true =>
      simp only [connSend, Bool.not_true, Bool.false_eq_true, if_false, f.connSendBuff_eq, Mem.bind_ok,
        Mem.pure_eq_ok, Except.ok.injEq] at h
      unfold sendall at h
      rw [cInt_of_le_INT_MAX hmax] at h
      have hpos : 0 < f.bytes.length := by
        have := f.nonempty
        rw [Frame.bytes_length]
        omega
      obtain ⟨hinside, hstream⟩ := sendallLoop_inside_iff hpos hmax rfl (by simp) rfl h
      rw [window_memoryAt] at hstream
      constructor
      · intro hexact
        exact hinside.mp hexact.inside
      · intro hhalf
        exact ⟨hstream hhalf, hinside.mpr hhalf⟩

/-- A frame that is accepted at once. -/
theorem connSend_whole (f : Frame) (hmax : f.bytes.length ≤ INT_MAX) (behind : Nat → UInt8) :
    connSend true behind f.header f.payload [.data f.bytes.length]
      = .ok (.ok ⟨[⟨0, f.bytes.length⟩], f.bytes⟩ []) := by
  have hpos : 0 < f.bytes.length := by
    have := f.nonempty
    rw [Frame.bytes_length]
    omega
  have hbytes : cInt (0 + (f.bytes.length : Int)) = f.bytes.length := by
    rw [Int.zero_add]
    exact cInt_of_le_INT_MAX hmax
  simp only [connSend, Bool.not_true, Bool.false_eq_true, if_false, f.connSendBuff_eq, Mem.bind_ok, Mem.pure_eq_ok,
    sendall, sendallLoop, hpos, hmax, le_refl, and_self, if_true, hbytes, cInt_of_le_INT_MAX hmax, lt_irrefl,
    window_memoryAt, List.nil_append]

/-- The version message is accepted in two halves of 14 bytes. -/
theorem connSend_exactly_versionFrame :
    let out : Outbound := ⟨[⟨0, 28⟩, ⟨14, 14⟩], versionFrame.bytes⟩
    connSend true (fun _ => 170) versionFrame.header versionFrame.payload [.data 14, .data 14] = .ok (.ok out []) ∧
      (out.Exactly versionFrame.bytes ↔ InHalves versionFrame.bytes.length 0 [14, 14]) := by
  have h : connSend true (fun _ => 170) versionFrame.header versionFrame.payload
      ([14, 14].map .data) = .ok (.ok ⟨[⟨0, 28⟩, ⟨14, 14⟩], versionFrame.bytes⟩ []) := by decide
  exact ⟨h, connSend_exactly_iff versionFrame (by decide) h⟩

/-- When 20 of its 28 bytes are accepted first, `sendall` offers 20 more, of which 12 lie
behind the frame. -/
theorem connSend_overruns_versionFrame :
    ∃ out, connSend true (fun _ => 170) versionFrame.header versionFrame.payload [.data 20, .data 20]
        = .ok (.ok out []) ∧
      out.stream = versionFrame.bytes ++ List.replicate 12 170 ∧ ¬ out.Exactly versionFrame.bytes := by
  refine ⟨⟨[⟨0, 28⟩, ⟨20, 20⟩], versionFrame.bytes ++ List.replicate 12 170⟩, by decide, rfl, ?_⟩
  intro hexact
  exact absurd hexact.stream (by decide)

end Netdev.Daemon
