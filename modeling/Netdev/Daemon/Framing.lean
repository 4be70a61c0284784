-- SUMMARY: When `conn_recv` returns the frames that were sent: the pieces handed out by `recvmsg` must respect the frames.
import Netdev.Base.Pieces
import Netdev.Daemon.Conn

/-!
# Receiving a stream of frames

`recvall` asks for as many bytes as it has already read, not for as many as are
missing. So the outcome depends on the pieces in which the stream is handed out:
a frame is read back exactly when none of them runs past the end of its header or
of its payload.
-/

namespace Netdev.Daemon
open Base

/-- What `recvmsg` hands out: each piece is one successful call. -/
def handOut (pieces : List Nat) : List RecvEvent := pieces.map RecvEvent.data

/-- The bytes on the stream when the frames are sent one after another. -/
def streamOf (fs : List Frame) : Bytes := fs.flatMap Frame.bytes

/-- The sizes of the buffers that `conn_recv` fills: a header and a payload for
each frame. -/
def parts : List Frame → List Nat
  | [] => []
  | f :: fs => sizeof NetdevHeader :: f.payload.length :: parts fs

/-- Successive calls return exactly the frames that were sent, and each call takes
exactly its own frame off the stream. A store outside a buffer is not an `.ok`. -/
def Delivers : List Frame → Socket → Prop
  | [], _ => True
  | f :: fs, sock => ∃ sock', connRecv sock = .ok f.message sock' ∧
      sock'.stream = sock.stream.drop (sizeof NetdevHeader + f.payload.length) ∧
      Delivers fs sock'

/-! ## One buffer -/

/-- The loop of `recvall` with `pre` already read and `miss` bytes to go: either
`recvmsg` broke its contract, or the pieces fill the buffer exactly, or the loop
stores behind its end. -/
theorem recvallLoop_handOut {ps : List Nat} {miss len : Nat} {pre mid stream : Bytes}
    (hmiss : 0 < miss) (hmid : mid.length = miss) (hmax : pre.length + miss ≤ INT_MAX)
    (hstream : miss ≤ stream.length) (hsum : miss ≤ ps.sum) :
    let out := recvallLoop (pre.length + miss : Nat) ⟨pre ++ mid, pre.length, len⟩ pre.length
      stream (handOut ps)
    out = .illegal ∨ out = match cut miss ps with
      | some rest => .ok (pre ++ stream.take miss) ⟨stream.drop miss, handOut rest⟩
      | none => .overrun := by
  induction ps generalizing miss len pre mid stream with
  | nil => simp at hsum; omega
  | cons p ps ih =>
      simp only [List.sum_cons] at hsum
      intro out
      by_cases hlegal : 0 < p ∧ p ≤ len ∧ p ≤ stream.length
      swap
      · left
        simp [out, handOut, recvallLoop, hlegal]
      by_cases hpast : miss < p
      · -- The piece runs past the end of the buffer.
        right
        have hcopy : memcpy (pre ++ mid) pre.length stream 0 p = .error .outOfBounds :=
          memcpy_past (by omega)
        have hcut : cut miss (p :: ps) = none := by
          simp [cut, show ¬ p < miss by omega, show p ≠ miss by omega]
        simp [out, handOut, recvallLoop, hlegal, hcopy, hcut]
      have hcopy : memcpy (pre ++ mid) pre.length stream 0 p
          = .ok (pre ++ stream.take p ++ mid.drop p) := memcpy_behind (by omega) hlegal.2.2
      have hread : cInt ((pre.length : Int) + p) = (pre.length + p : Nat) := cInt_add (by omega)
      by_cases hlast : p = miss
      · right
        subst hlast
        have hcut : cut p (p :: ps) = some ps := by simp [cut]
        have hmid' : mid.drop p = [] := by simp [hmid]
        simp [out, handOut, recvallLoop, hlegal, hcopy, hread, hcut, hmid']
      · -- A short read: the rest of the buffer is the same problem again.
        have hlt : p < miss := by omega
        have hcut : cut miss (p :: ps) = cut (miss - p) ps := by simp [cut, hlt]
        have hpre : (pre ++ stream.take p).length = pre.length + p := by
          simp only [List.length_append, List.length_take]
          omega
        have hsize : cSize ((pre.length + p : Nat) : Int) = pre.length + p :=
          cSize_of_le_INT_MAX (by omega)
        have hout : out = recvallLoop ((pre ++ stream.take p).length + (miss - p) : Nat)
            ⟨pre ++ stream.take p ++ mid.drop p, (pre ++ stream.take p).length, pre.length + p⟩
            (pre ++ stream.take p).length (stream.drop p) (handOut ps) := by
          have hgoal : (pre.length + p : Nat) + (miss - p) = pre.length + miss := by omega
          simp only [out, handOut, List.map_cons, recvallLoop, hlegal, and_self, if_true, hcopy,
            hread, hsize, hpre, hgoal]
          rw [if_pos (by omega)]
        have htake : stream.take p ++ (stream.drop p).take (miss - p) = stream.take miss := by
          rw [← List.take_add, Nat.add_sub_cancel' hlt.le]
        have hdrop : (stream.drop p).drop (miss - p) = stream.drop miss := by
          rw [List.drop_drop, Nat.add_sub_cancel' hlt.le]
        have hrest := @ih (miss - p) (pre.length + p) (pre ++ stream.take p) (mid.drop p)
          (stream.drop p) (by omega) (by simp [hmid]) (by omega) (by simp; omega) (by omega)
        rw [hout, hcut]
        simpa only [List.append_assoc, htake, hdrop] using hrest

/-- `recvall` of `n` bytes. -/
theorem recvall_handOut {n : Nat} {ps : List Nat} {stream : Bytes} (hn : 0 < n)
    (hmax : n ≤ INT_MAX) (hstream : n ≤ stream.length) (hsum : n ≤ ps.sum) :
    let out := recvall n ⟨stream, handOut ps⟩
    out = .illegal ∨ out = match cut n ps with
      | some rest => .ok (stream.take n) ⟨stream.drop n, handOut rest⟩
      | none => .overrun := by
  have h := @recvallLoop_handOut ps n n [] (List.replicate n 0) stream hn (by simp) (by simpa)
    hstream hsum
  simpa [recvall, cInt_of_le_INT_MAX hmax] using h

/-! ## A stream of frames -/

/-- One `conn_recv` at the start of a frame. -/
theorem connRecv_handOut {f : Frame} {ps : List Nat} {rest : Bytes}
    (hsum : f.bytes.length ≤ ps.sum) :
    let out := connRecv ⟨f.bytes ++ rest, handOut ps⟩
    out = .illegal ∨ out = match cut (sizeof NetdevHeader) ps with
      | none => .overrun
      | some ps' => match cut f.payload.length ps' with
        | none => .overrun
        | some ps'' => .ok f.message ⟨rest, handOut ps''⟩ := by
  rw [Frame.bytes_length] at hsum
  have hlen : (toBytes f.header).length = sizeof NetdevHeader := Layout.length_toBytes _
  have hhead := @recvall_handOut (sizeof NetdevHeader) ps (f.bytes ++ rest)
    (by decide) (by decide) (by simp; omega) (by omega)
  have hheader : (f.bytes ++ rest).take (sizeof NetdevHeader) = toBytes f.header := by
    rw [Frame.bytes, List.append_assoc]
    exact List.take_left' hlen
  have hrest : (f.bytes ++ rest).drop (sizeof NetdevHeader) = f.payload ++ rest := by
    rw [Frame.bytes, List.append_assoc]
    exact List.drop_left' hlen
  rw [hheader, hrest] at hhead
  have hsize := f.header_size
  intro out
  rcases hhead with hill | hhead
  · left
    simp [out, connRecv, hill]
  · cases hcut : cut (sizeof NetdevHeader) ps with
    | none =>
        right
        rw [hcut] at hhead
        simp [out, connRecv, hhead]
    | some ps' =>
        rw [hcut] at hhead
        have hsum' := cut_sum hcut
        have hpay := @recvall_handOut f.payload.length ps' (f.payload ++ rest) f.nonempty f.bounded
          (by simp) (by omega)
        rw [List.take_left, List.drop_left] at hpay
        rcases hpay with hill | hpay
        · left
          simp [out, connRecv, hhead, hsize, hill]
        · right
          dsimp only
          cases hcut' : cut f.payload.length ps' with
          | none =>
              rw [hcut'] at hpay
              simp [out, connRecv, hhead, hsize, hpay]
          | some ps'' =>
              rw [hcut'] at hpay
              simp [out, connRecv, hhead, hsize, hpay, Frame.message]

/-- For every list of frames and every way `recvmsg` may hand their stream out
(non-empty pieces, none longer than the `iov_len` asked for), the frames are
delivered exactly when the pieces respect the headers and payloads. -/
theorem connRecv_delivers_iff (fs : List Frame) (ps : List Nat) (hpos : ∀ p ∈ ps, 0 < p)
    (hsum : ps.sum = (streamOf fs).length)
    (hlegal : connRecvs fs.length ⟨streamOf fs, handOut ps⟩ ≠ .illegal) :
    Delivers fs ⟨streamOf fs, handOut ps⟩ ↔ Respects (parts fs) ps := by
  induction fs generalizing ps with
  | nil => exact ⟨fun _ => respects_nil hpos (by simpa [streamOf] using hsum), fun _ => trivial⟩
  | cons f fs ih =>
      have hstream : streamOf (f :: fs) = f.bytes ++ streamOf fs := by simp [streamOf]
      rw [hstream] at hsum hlegal ⊢
      rw [List.length_append] at hsum
      have hone := @connRecv_handOut f ps (streamOf fs) (by omega)
      rcases hone with hill | hone
      · exact absurd (by simp [connRecvs, hill]) hlegal
      rw [parts, respects_cons_iff (by decide) hpos]
      cases hcut : cut (sizeof NetdevHeader) ps with
      | none =>
          rw [hcut] at hone
          simp [Delivers, hone]
      | some ps' =>
          obtain ⟨group, rfl, -⟩ := cut_eq_some hcut
          have hpos' : ∀ p ∈ ps', 0 < p := fun p hp => hpos p (List.mem_append_right _ hp)
          rw [hcut] at hone
          dsimp only at hone
          simp only [Option.some.injEq, exists_eq_left']
          rw [respects_cons_iff f.nonempty hpos']
          cases hcut' : cut f.payload.length ps' with
          | none =>
              rw [hcut'] at hone
              simp [Delivers, hone]
          | some ps'' =>
              obtain ⟨group', rfl, -⟩ := cut_eq_some hcut'
              have hpos'' : ∀ p ∈ ps'', 0 < p := fun p hp => hpos' p (List.mem_append_right _ hp)
              rw [hcut'] at hone
              have hsums := (cut_sum hcut).trans (congrArg _ (cut_sum hcut'))
              rw [hsums, Frame.bytes_length] at hsum
              have hlegal' : connRecvs fs.length ⟨streamOf fs, handOut ps''⟩ ≠ .illegal := by
                intro hill
                exact hlegal (by simp [connRecvs, hone, hill])
              have hdrop : (f.bytes ++ streamOf fs).drop (sizeof NetdevHeader + f.payload.length)
                  = streamOf fs := by
                rw [← Frame.bytes_length, List.drop_left]
              have hrest := ih ps'' hpos'' (by omega) hlegal'
              simp [Delivers, hone, hdrop, hrest]

/-! ## A version message in pieces -/

/-- The version message of a client of version 1. -/
def versionFrame : Frame where
  msgtype := MSGT_CONTROL_VERSION
  pad := 0
  ptr := 0
  payload := toBytes (1 : Int32)
  nonempty := by decide
  bounded := by decide

/-- Handed out as 10, 10, 4 and 4 bytes it is received. -/
theorem connRecv_delivers_versionFrame :
    Delivers [versionFrame] ⟨streamOf [versionFrame], handOut [10, 10, 4, 4]⟩ := by
  have hresp : Respects (parts [versionFrame]) [10, 10, 4, 4] := ⟨[[10, 10, 4], [4]], rfl, rfl⟩
  exact (connRecv_delivers_iff [versionFrame] [10, 10, 4, 4] (by decide) (by decide)
    (by decide)).mpr hresp

/-- Handed out as 10, 10 and 8 bytes it is not: the last piece, no longer than the
`iov_len` of 20 that it was asked for with, runs past the end of the header. -/
theorem connRecv_overruns_versionFrame :
    (∀ p ∈ [10, 10, 8], 0 < p) ∧ [10, 10, 8].sum = (streamOf [versionFrame]).length ∧
      connRecvs 1 ⟨streamOf [versionFrame], handOut [10, 10, 8]⟩ = .overrun ∧
      ¬ Delivers [versionFrame] ⟨streamOf [versionFrame], handOut [10, 10, 8]⟩ := by
  refine ⟨by decide, by decide, by decide, ?_⟩
  rintro ⟨sock', hone, -⟩
  have hover : connRecv ⟨streamOf [versionFrame], handOut [10, 10, 8]⟩ = .overrun := by decide
  rw [hover] at hone
  cases hone

end Netdev.Daemon
