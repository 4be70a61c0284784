-- SUMMARY: The operations of a daemon process on its environment, as a program interface.
import Netdev.Base.Prog
import Netdev.Daemon.Conn
import Netdev.Netlink

/-!
# Operations of the daemon

The daemon's functions are programs over this interface. System calls answer
`true` when they succeed. `conn_send` and `conn_recv` appear as single
operations on whole messages; `recvmsg` on the netlink socket returns one whole
datagram.
-/

namespace Netdev.Daemon
open Base

inductive DaemonOp where
  | malloc
  | socket
  | bind
  | connect
  | socketpair
  | getpeername
  | getsockopt
  | connSend (m : Message)
  | connRecv
  | nlSend (m : NlMessage)
  | nlRecv
  /-- Read `n` bytes behind the end of a heap buffer. -/
  | overread (n : Nat)
  /-- The rest of a string whose buffer has no terminating null. -/
  | overreadString
  | segv

/-- What the operations answer. The kernel's verdict on a netlink message, that is
the error it acknowledges the message with if it acknowledges it at all, is part
of the answer of `nlSend` only to have it in the history: no function looks at it. -/
abbrev DaemonOp.Res : DaemonOp → Type
  | .malloc | .socket | .bind | .connect | .socketpair | .getpeername | .getsockopt => Bool
  | .connSend _ => Bool
  | .connRecv => Option Message
  | .nlSend _ => Option Int32
  | .nlRecv => Option NlMessage
  | .overread n => { buf : Bytes // buf.length = n }
  | .overreadString => Bytes
  | .segv => Empty

abbrev DaemonI : Interface := ⟨DaemonOp, DaemonOp.Res⟩

abbrev DaemonM := Prog DaemonI

abbrev History := List (Event DaemonI)

/-- One operation on the environment. -/
abbrev sys (op : DaemonOp) : DaemonM op.Res := Prog.perform (I := DaemonI) op

/-- A null pointer is dereferenced: the process stops. -/
def crash {α : Type} : DaemonM α := .call .segv nofun

/-- The first `n` bytes at a heap buffer, whether they all belong to it or not. -/
def readBuf (buf : Bytes) (n : Nat) : DaemonM Bytes :=
  if n ≤ buf.length then
    return buf.take n
  else do
    let rest ← sys (.overread (n - buf.length))
    return buf ++ rest.val

/-- The string at a heap buffer, without its terminating null. -/
def readString (buf : Bytes) : DaemonM Bytes :=
  if 0 ∈ buf then
    return buf.takeWhile (· ≠ 0)
  else do
    let rest ← sys .overreadString
    return buf ++ rest

/-! ## Histories -/

/-- The operations that carry a message; the others leave no trace in a history. -/
def DaemonOp.carries : DaemonOp → Bool
  | .connSend _ | .connRecv | .nlSend _ | .nlRecv => true
  | _ => false

def record (h : History) (e : Event DaemonI) : History := if e.1.carries then h ++ [e] else h

/-- The environment that records the messages and gives only answers that `allowed`
admits after the history so far. -/
def recording (allowed : History → Event DaemonI → Prop) : Prog.Env DaemonI History :=
  fun h e h' => allowed h e ∧ h' = record h e

/-- No restriction on the answers. -/
abbrev anything : Prog.Env DaemonI History := recording fun _ _ => True

theorem Reaches.answer {α : Type} {p : DaemonM α} {op : DaemonOp} {k : op.Res → DaemonM α}
    {h h' : History} (hp : Prog.Reaches anything p h (.call op k) h') (r : op.Res) :
    Prog.Reaches anything p h (k r) (record h' ⟨op, r⟩) := .step hp ⟨trivial, rfl⟩

/-- The process stops here. -/
theorem wp_segv {α : Type} {E : Prog.Env DaemonI History} {J : History → Prop} {Q : α → History → Prop}
    {k : Empty → DaemonM α} {h : History} (hJ : J h) : Prog.wp E J Q (.call .segv k) h :=
  ⟨hJ, fun r => r.elim⟩

theorem readBuf_spec {allowed : History → Event DaemonI → Prop} (buf : Bytes) (n : Nat)
    (h : History) :
    Prog.wp (recording allowed) (· = h) (fun r h' => h' = h ∧ (n ≤ buf.length → r = buf.take n))
      (readBuf buf n) h := by
  unfold readBuf
  split
  · exact ⟨rfl, fun _ => rfl⟩
  · rename_i hlong
    refine ⟨rfl, ?_⟩
    rintro rest h' ⟨-, hrec⟩
    exact ⟨hrec, fun hn => absurd hn hlong⟩

theorem readString_spec {allowed : History → Event DaemonI → Prop} (buf : Bytes) (h : History) :
    Prog.wp (recording allowed) (· = h) (fun _ h' => h' = h) (readString buf) h := by
  unfold readString
  split
  · exact rfl
  · refine ⟨rfl, ?_⟩
    rintro rest h' ⟨-, hrec⟩
    exact hrec

def receivedOf : Event DaemonI → Option Message
  | ⟨.connRecv, r⟩ => r
  | _ => none

def sentOf : Event DaemonI → Option Message
  | ⟨.connSend m, true⟩ => some m
  | _ => none

def unsentOf : Event DaemonI → Option Message
  | ⟨.connSend m, false⟩ => some m
  | _ => none

def nlSentOf : Event DaemonI → Option (NlMessage × Option Int32)
  | ⟨.nlSend m, verdict⟩ => some (m, verdict)
  | _ => none

def nlReceivedOf : Event DaemonI → Option NlMessage
  | ⟨.nlRecv, r⟩ => r
  | _ => none

/-- The messages `conn_recv` returned. -/
def received (h : History) : List Message := h.filterMap receivedOf

/-- The messages that `conn_send` put on the stream. -/
def sent (h : History) : List Message := h.filterMap sentOf

/-- The messages for which `conn_send` failed. -/
def unsent (h : History) : List Message := h.filterMap unsentOf

/-- The messages sent to the kernel, with the verdicts. -/
def nlSent (h : History) : List (NlMessage × Option Int32) := h.filterMap nlSentOf

/-- The messages read from the netlink socket. -/
def nlReceived (h : History) : List NlMessage := h.filterMap nlReceivedOf

section
variable (h : History) (e : Event DaemonI)

private theorem filterMap_snoc {β : Type} (f : Event DaemonI → Option β) :
    (h ++ [e]).filterMap f = h.filterMap f ++ (f e).toList := by
  cases he : f e <;> simp [he]

theorem received_snoc : received (h ++ [e]) = received h ++ (receivedOf e).toList :=
  filterMap_snoc h e receivedOf

theorem sent_snoc : sent (h ++ [e]) = sent h ++ (sentOf e).toList := filterMap_snoc h e sentOf

theorem nlSent_snoc : nlSent (h ++ [e]) = nlSent h ++ (nlSentOf e).toList :=
  filterMap_snoc h e nlSentOf

theorem nlReceived_snoc : nlReceived (h ++ [e]) = nlReceived h ++ (nlReceivedOf e).toList :=
  filterMap_snoc h e nlReceivedOf

theorem received_record : received (record h e) = received h ++ (receivedOf e).toList := by
  rcases e with ⟨op, r⟩
  unfold record
  split
  · exact received_snoc h _
  · rename_i hop
    cases op <;> first | exact absurd rfl hop | exact (List.append_nil _).symm

theorem sent_record : sent (record h e) = sent h ++ (sentOf e).toList := by
  rcases e with ⟨op, r⟩
  unfold record
  split
  · exact sent_snoc h _
  · rename_i hop
    cases op <;> first | exact absurd rfl hop | exact (List.append_nil _).symm

end

end Netdev.Daemon
