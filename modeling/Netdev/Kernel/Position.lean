-- SUMMARY: Seeks and reads on a dummy file beside the same calls on the remote device: which sequences agree on every device.
import Netdev.Kernel.Exchange

/-!
# File positions

A read goes to the device with the client's `f_pos`, and brings back a new one; an
`llseek` works on the `f_pos` of the file that the server has opened. The calls on
one open file are made one at a time, and nothing fails on the way. What a call returns may
be the same by chance on one device; the sequences that agree are those that do so on all.
-/

namespace Netdev.Kernel
open Base

/-! ## Seekable devices -/

/-- What a call does: the value that it returns, the bytes that it reads, and where it
leaves the position and the device. -/
structure Moved (σ : Type) where
  value : Int64
  bytes : Bytes
  pos : Int64
  state : σ
  deriving DecidableEq

/-- A read reports an error, or as many bytes as it has read. -/
inductive ReadReturn (size : Nat) where
  | error (errno : Int64) (negative : errno < 0)
  | data (bytes : Bytes) (fits : bytes.length ≤ size)

namespace ReadReturn
variable {size : Nat}

def value : ReadReturn size → Int64
  | .error errno _ => errno
  | .data bytes _ => Int64.ofNat bytes.length

def bytes : ReadReturn size → Bytes
  | .error .. => []
  | .data bytes _ => bytes

theorem bytes_length_le (r : ReadReturn size) : r.bytes.length ≤ size := by
  cases r with
  | error => exact Nat.zero_le size
  | data bytes fits => exact fits

end ReadReturn

/-- `whence` of a seek from the current position. -/
def SEEK_CUR : Int32 := 1

/-- The functions of a driver, as they depend on the position and on a state of the
device. Only a seek from the current position looks at the position; where it leaves it,
and whether it fails, is up to the driver. -/
structure SeekDevice (σ : Type) where
  llseek : σ → Int64 → Int64 → Int32 → Int64 × Int64 × σ
  read : σ → Int64 → (size : UInt64) → ReadReturn size.toNat × Int64 × σ
  absolute : ∀ s pos pos' offset whence, whence ≠ SEEK_CUR →
    (llseek s pos offset whence).1 = (llseek s pos' offset whence).1 ∧
      (llseek s pos offset whence).2.2 = (llseek s pos' offset whence).2.2

inductive PosCall where
  | llseek (offset : Int64) (whence : Int32)
  | read (size : UInt64)

/-- What the caller gets. -/
def Moved.returned {σ : Type} (m : Moved σ) : Int64 × Bytes := (m.value, m.bytes)

namespace PosCall

/-- The dummy file refuses a read that does not fit into a message. -/
def refused : PosCall → Bool
  | .llseek .. => false
  | .read size => !decide (size < NETDEV_MESSAGE_LIMIT)

def isRead : PosCall → Bool
  | .llseek .. => false
  | .read _ => true

def fromCurrent : PosCall → Bool
  | .llseek _ whence => decide (whence = SEEK_CUR)
  | .read _ => false

/-- A seek from the current position comes before every read, and a read before every seek. -/
def Before (c c' : PosCall) : Prop := (c.isRead → c'.fromCurrent = false) ∧ (c'.isRead → c.isRead)

instance (c c' : PosCall) : Decidable (c.Before c') := inferInstanceAs (Decidable (_ ∧ _))

end PosCall

namespace SeekDevice
variable {σ : Type} (dev : SeekDevice σ)

/-- A call at a position. -/
def act (s : σ) (pos : Int64) : PosCall → Moved σ
  | .llseek offset whence =>
      let (value, pos, state) := dev.llseek s pos offset whence
      ⟨value, [], pos, state⟩
  | .read size =>
      let (r, pos, state) := dev.read s pos size
      ⟨r.value, r.bytes, pos, state⟩

/-- Calls on the device itself, with one position. -/
def run : σ → Int64 → List PosCall → List (Moved σ)
  | _, _, [] => []
  | s, pos, call :: calls => dev.act s pos call :: run (dev.act s pos call).state (dev.act s pos call).pos calls

/-- A seek that does not look at the position. -/
theorem act_absolute (s : σ) (pos pos' : Int64) {offset : Int64} {whence : Int32} (h : whence ≠ SEEK_CUR) :
    (dev.act s pos (.llseek offset whence)).returned = (dev.act s pos' (.llseek offset whence)).returned ∧
      (dev.act s pos (.llseek offset whence)).state = (dev.act s pos' (.llseek offset whence)).state := by
  obtain ⟨hvalue, hstate⟩ := dev.absolute s pos pos' offset whence h
  exact ⟨congrArg (·, []) hvalue, hstate⟩

theorem act_read_le (s : σ) (pos : Int64) (buf : Bytes) :
    (dev.act s pos (.read (UInt64.ofNat buf.length))).bytes.length ≤ buf.length := by
  refine (dev.read s pos _).1.bytes_length_le.trans ?_
  exact Nat.mod_le _ _

/-- `read` fills the buffer from the front. -/
def readInto (s : σ) (buf : Bytes) (offset : Int64) : ReadResult buf.length :=
  let moved := dev.act s offset (.read (UInt64.ofNat buf.length))
  { rvalue := moved.value
    offset := moved.pos
    data := ⟨moved.bytes ++ buf.drop moved.bytes.length, by
      have hle : moved.bytes.length ≤ buf.length := dev.act_read_le s offset buf
      rw [List.length_append, List.length_drop]
      omega⟩ }

theorem readInto_zeros (s : σ) (size : UInt64) (offset : Int64) :
    (dev.readInto s (List.replicate size.toNat 0) offset).rvalue = (dev.act s offset (.read size)).value ∧
    (dev.readInto s (List.replicate size.toNat 0) offset).offset = (dev.act s offset (.read size)).pos ∧
    ∃ rest, (dev.readInto s (List.replicate size.toNat 0) offset).data.val
      = (dev.act s offset (.read size)).bytes ++ rest := by
  have hsize : UInt64.ofNat (List.replicate size.toNat (0 : UInt8)).length = size := by
    rw [List.length_replicate, UInt64.ofNat_toNat]
  have hact : dev.act s offset (.read (UInt64.ofNat (List.replicate size.toNat (0 : UInt8)).length))
      = dev.act s offset (.read size) := by
    rw [hsize]
  rw [← hact]
  exact ⟨rfl, rfl, _, rfl⟩

/-- The driver's `struct file_operations` for a file at `pos`. A read takes its position
from the pointer that it gets. -/
def fOp (s : σ) (pos : Int64) : FileOperations where
  llseek := some fun offset whence => (dev.act s pos (.llseek offset whence)).value
  read := some (dev.readInto s)
  write := none
  unlockedIoctl := none
  compatIoctl := none
  flush := none

/-- The server's `struct fo_access`. -/
def access (s : σ) (pos : Int64) : ServerAccess := ⟨some ⟨some (dev.fOp s pos), 0⟩⟩

end SeekDevice

/-! ## The calls on the dummy file -/

/-- What of an exchange the code does not fix. -/
structure Surroundings where
  accessId : Int32
  stale : Int64
  curseq : Int64
  flags : UInt16
  seq : UInt32
  pid : UInt32
  pad : Bytes
  fresh : FoReq
  filpOpen : Except Int32 File
  replyPad : Bytes
  argsPad : UInt32
  addr : UInt64
  kmalloc : (n : Nat) → { bytes : Bytes // bytes.length = n }

namespace Surroundings

def exchange (w : Surroundings) (server : ServerAccess) (call : FoCall) (serves : server.Serves call) :
    Exchange where
  call := call
  accessId := w.accessId
  stale := w.stale
  curseq := w.curseq
  flags := w.flags
  seq := w.seq
  pid := w.pid
  pad := w.pad
  fresh := w.fresh
  server := server
  serves := serves
  filpOpen := w.filpOpen
  replyPad := w.replyPad

/-- `args.data`. -/
def buffer (w : Surroundings) (size : UInt64) (limit : size < NETDEV_MESSAGE_LIMIT) : DataBuffer where
  size := size
  limit := limit
  addr := w.addr
  bytes := (w.kmalloc size.toNat).val
  length := (w.kmalloc size.toNat).property

end Surroundings

/-- `ndfo_send_llseek` after `fo_send`. -/
def llseekReturn (done : FoReq) : Mem Int64 := do
  if done.rvalue < 0 then
    return done.rvalue.toInt64
  else
    SFoLlseek.rvalueField.load (← deref done.args)

/-- `copy_to_user` takes a negative length for one that is too large, and copies
nothing. -/
def copyToUser (data : Bytes) (len : Int64) : Bytes :=
  if len < 0 then [] else data.take len.toNatClampNeg

/-- `ndfo_send_read` after `fo_send`: its value, the bytes that the user gets, and
`*offset`. -/
def readReturn (done : FoReq) (offset : Int64) : Mem (Int64 × Bytes × Int64) := do
  if done.rvalue < 0 then
    return (done.rvalue.toInt64, [], offset)
  else do
    let args ← deref done.args
    let offset ← SFoRead.offsetField.load args
    let rvalue ← SFoRead.rvalueField.load args
    return (rvalue, copyToUser (← deref done.data) rvalue, offset)

/-- An open dummy file: `client` and `server` are the two copies of `f_pos`. -/
structure NetFile (σ : Type) where
  state : σ
  client : Int64
  server : Int64

namespace NetFile
variable {σ : Type} (dev : SeekDevice σ)

/-- A call through the dummy device. What it returns comes from the exchange; the device
changes its state, and its `llseek` the file that the server has opened. A read gets a
pointer to a copy of the client's `f_pos`, which is stored back. -/
def call (w : Surroundings) (f : NetFile σ) : PosCall → Mem (Moved σ × NetFile σ)
  | .llseek offset whence => do
      let o ← (w.exchange (dev.access f.state f.server) (.llseek offset whence w.argsPad) ⟨_, rfl⟩).run
      let value ← llseekReturn o.done
      let moved := dev.act f.state f.server (.llseek offset whence)
      return (⟨value, [], moved.pos, moved.state⟩, { f with server := moved.pos, state := moved.state })
  | .read size =>
      if limit : size < NETDEV_MESSAGE_LIMIT then do
        let o ← (w.exchange (dev.access f.state f.server) (.read (w.buffer size limit) f.client)
          ⟨_, _, rfl, rfl⟩).run
        let (value, bytes, pos) ← readReturn o.done f.client
        let state := (dev.act f.state f.client (.read size)).state
        return (⟨value, bytes, pos, state⟩, { f with client := pos, state })
      else
        -- too big for a message
        return (⟨(-EINVAL).toInt64, [], f.client, f.state⟩, f)

def run : NetFile σ → List (Surroundings × PosCall) → Mem (List (Moved σ))
  | _, [] => return []
  | f, (w, c) :: calls => do
      let (moved, f) ← f.call dev w c
      return moved :: (← run f calls)

/-! ## What the calls return -/

theorem llseekReturn_eq {done : FoReq} {args : SFoLlseek} (hrvalue : done.rvalue = 0)
    (hargs : done.args = some (toBytes args)) : llseekReturn done = .ok args.rvalue := by
  unfold llseekReturn
  rw [hrvalue, if_neg (by decide), hargs]
  exact SFoLlseek.rvalueField.load_toBytes args

/-- As many bytes as the device has read come to the user. -/
theorem copyToUser_data {data rest : Bytes} (hlen : data.length < 2 ^ 63) :
    copyToUser (data ++ rest) (Int64.ofNat data.length) = data := by
  have hint : (Int64.ofNat data.length).toInt = data.length := Int64.toInt_ofNat_of_lt hlen
  have hnonneg : ¬ Int64.ofNat data.length < 0 := by
    rw [Int64.lt_iff_toInt_lt, hint]
    exact Int.not_lt.mpr (Int.natCast_nonneg _)
  have hclamp : (Int64.ofNat data.length).toNatClampNeg = data.length := by
    change (Int64.ofNat data.length).toInt.toNat = data.length
    rw [hint, Int.toNat_natCast]
  rw [copyToUser, if_neg hnonneg, hclamp, List.take_left]

theorem copyToUser_return {size : Nat} (hsize : size < 2 ^ 63) (r : ReadReturn size) (rest : Bytes) :
    copyToUser (r.bytes ++ rest) r.value = r.bytes := by
  cases r with
  | error errno negative => exact if_pos negative
  | data bytes fits => exact copyToUser_data (fits.trans_lt hsize)

theorem readReturn_eq {done : FoReq} {args : SFoRead} {data : Bytes} (offset : Int64)
    (hrvalue : done.rvalue = 0) (hargs : done.args = some (toBytes args))
    (hdata : done.data = some data) :
    readReturn done offset = .ok (args.rvalue, copyToUser data args.rvalue, args.offset) := by
  unfold readReturn
  rw [hrvalue, if_neg (by decide), hargs, hdata]
  simp only [deref_some, Mem.bind_ok, Field.load_toBytes, Mem.pure_eq_ok]
  rfl

theorem call_llseek (w : Surroundings) (f : NetFile σ) (offset : Int64) (whence : Int32) :
    f.call dev w (.llseek offset whence) = .ok
      (dev.act f.state f.server (.llseek offset whence),
        { f with
          server := (dev.act f.state f.server (.llseek offset whence)).pos
          state := (dev.act f.state f.server (.llseek offset whence)).state }) := by
  let x := w.exchange (dev.access f.state f.server) (.llseek offset whence w.argsPad) ⟨_, rfl⟩
  have hresult := @ndfoRecvLlseek_eq x.fresh x.accessId x.env x.server _ offset whence w.argsPad _
    (rfl : x.server.fOp = .ok (dev.fOp f.state f.server)) rfl
  obtain ⟨done, hrun, hrvalue, hanswered⟩ := x.run_success hresult (by decide) (handled_llseek _)
  have hreturn := llseekReturn_eq hrvalue hanswered.args
  rw [call, hrun, Mem.bind_ok, hreturn]
  rfl

theorem call_read (w : Surroundings) (f : NetFile σ) {size : UInt64}
    (limit : size < NETDEV_MESSAGE_LIMIT) :
    f.call dev w (.read size) = .ok
      (dev.act f.state f.client (.read size),
        { f with
          client := (dev.act f.state f.client (.read size)).pos
          state := (dev.act f.state f.client (.read size)).state }) := by
  let buf := w.buffer size limit
  let x := w.exchange (dev.access f.state f.server) (.read buf f.client) ⟨_, _, rfl, rfl⟩
  let read := dev.readInto f.state (List.replicate size.toNat 0) f.client
  have hresult := @ndfoRecvRead_eq x.fresh x.accessId x.env x.server _ buf f.client _ rfl
    (rfl : x.server.fOp = .ok (dev.fOp f.state f.server)) rfl
  have hlen : read.data.val.length = buf.size.toNat :=
    read.data.property.trans List.length_replicate
  obtain ⟨done, hrun, hrvalue, hanswered⟩ := x.run_success hresult (by decide) (handled_read _ _ hlen)
  have hreturn := readReturn_eq f.client hrvalue hanswered.args (hanswered.data buf.bytes rfl)
  obtain ⟨hvalue, hpos, rest, hdata⟩ := dev.readInto_zeros f.state size f.client
  -- the client's buffer begins with what the device has read
  have hcopy : ∀ tail, copyToUser (read.data.val ++ tail) read.rvalue
      = (dev.act f.state f.client (.read size)).bytes := by
    intro tail
    have hlimit : NETDEV_MESSAGE_LIMIT.toNat = 213000 := rfl
    have hlt := UInt64.lt_iff_toNat_lt.mp limit
    rw [hvalue, hdata, List.append_assoc]
    exact copyToUser_return (by omega) (dev.read f.state f.client size).1 _
  rw [call, dif_pos limit, hrun, Mem.bind_ok, hreturn]
  simp only [Mem.bind_ok, Mem.pure_eq_ok, SFoRead.answer]
  have hmoved : (⟨read.rvalue, copyToUser (read.data.val ++ buf.bytes.drop read.data.val.length) read.rvalue,
      read.offset, (dev.act f.state f.client (.read size)).state⟩ : Moved σ)
      = dev.act f.state f.client (.read size) := by
    rw [hcopy, hvalue, hpos]
  refine congrArg Except.ok (Prod.ext hmoved ?_)
  change ({ f with client := read.offset, state := _ } : NetFile σ) = _
  rw [show read.offset = (dev.act f.state f.client (.read size)).pos from hpos]

/-! ## The two copies -/

/-- The copy of `f_pos` that a call uses. -/
def copy (f : NetFile σ) : PosCall → Int64
  | .llseek .. => f.server
  | .read _ => f.client

/-- What a call through the dummy device does. -/
def act (f : NetFile σ) (c : PosCall) : Moved σ :=
  if c.refused then ⟨(-EINVAL).toInt64, [], f.client, f.state⟩ else dev.act f.state (f.copy c) c

/-- The file after a call. -/
def after (f : NetFile σ) (c : PosCall) : NetFile σ :=
  match c with
  | .llseek .. => { f with server := (f.act dev c).pos, state := (f.act dev c).state }
  | .read _ => { f with client := (f.act dev c).pos, state := (f.act dev c).state }

theorem call_eq (w : Surroundings) (f : NetFile σ) (c : PosCall) :
    f.call dev w c = .ok (f.act dev c, f.after dev c) := by
  cases c with
  | llseek offset whence => exact call_llseek dev w f offset whence
  | read size =>
      by_cases limit : size < NETDEV_MESSAGE_LIMIT
      · rw [call_read dev w f limit]
        simp [act, after, PosCall.refused, limit, copy]
      · rw [call, dif_neg limit]
        simp [act, after, PosCall.refused, limit]

/-- The calls one after the other. -/
def moves : NetFile σ → List PosCall → List (Moved σ)
  | _, [] => []
  | f, c :: calls => f.act dev c :: moves (f.after dev c) calls

theorem run_eq (f : NetFile σ) (calls : List (Surroundings × PosCall)) :
    f.run dev calls = .ok (f.moves dev (calls.map Prod.snd)) := by
  induction calls generalizing f with
  | nil => rfl
  | cons head calls ih =>
      obtain ⟨w, c⟩ := head
      simp only [run, call_eq, ih, Mem.bind_ok, Mem.pure_eq_ok]
      rfl

theorem act_served (f : NetFile σ) {c : PosCall} (h : c.refused = false) :
    f.act dev c = dev.act f.state (f.copy c) c := by
  simp [act, h]

theorem state_after (f : NetFile σ) (c : PosCall) : (f.after dev c).state = (f.act dev c).state := by
  cases c with
  | _ => rfl

/-! ## Sequences that agree -/

/-- The calls return the same values and bytes as on the device at `pos`. -/
def Agrees (f : NetFile σ) (pos : Int64) (calls : List PosCall) : Prop :=
  (f.moves dev calls).map Moved.returned = (dev.run f.state pos calls).map Moved.returned

theorem agrees_cons {f : NetFile σ} {pos : Int64} {c : PosCall} {calls : List PosCall} :
    f.Agrees dev pos (c :: calls) ↔ (f.act dev c).returned = (dev.act f.state pos c).returned ∧
      (((f.after dev c).moves dev calls).map Moved.returned
        = (dev.run (dev.act f.state pos c).state (dev.act f.state pos c).pos calls).map Moved.returned) := by
  simp [Agrees, moves, SeekDevice.run]

/-- A call that returns the same and leaves the device in the same state. -/
theorem agrees_cons_of_state {f : NetFile σ} {pos : Int64} {c : PosCall} {calls : List PosCall}
    (hreturned : (f.act dev c).returned = (dev.act f.state pos c).returned)
    (hstate : (f.act dev c).state = (dev.act f.state pos c).state) :
    f.Agrees dev pos (c :: calls) ↔ (f.after dev c).Agrees dev (dev.act f.state pos c).pos calls := by
  rw [agrees_cons, Agrees, state_after, hstate]
  exact and_iff_right hreturned

/-- Reads from the position of the client and seeks from that of the server agree as long as
none comes after a call of the other kind that it depends on. -/
theorem agrees_of_inOrder (f : NetFile σ) (pos : Int64) (calls : List PosCall)
    (hserved : ∀ c ∈ calls, c.refused = false) (horder : calls.Pairwise PosCall.Before)
    (hread : ∀ c ∈ calls, c.isRead → f.client = pos) (hseek : ∀ c ∈ calls, c.fromCurrent → f.server = pos) :
    f.Agrees dev pos calls := by
  induction calls generalizing f pos with
  | nil => rfl
  | cons c calls ih =>
      obtain ⟨hbefore, hrest⟩ := List.pairwise_cons.mp horder
      have hact := f.act_served dev (hserved c List.mem_cons_self)
      have hserved' : ∀ c ∈ calls, c.refused = false := fun c' hc' => hserved c' (List.mem_cons_of_mem c hc')
      cases c with
      | read size =>
          have hpos : f.copy (.read size) = pos := hread _ List.mem_cons_self rfl
          rw [hpos] at hact
          rw [agrees_cons_of_state dev (congrArg Moved.returned hact) (congrArg Moved.state hact)]
          refine ih _ _ hserved' hrest (fun _ _ _ => congrArg Moved.pos hact) (fun c hmem hcurrent => ?_)
          exact Bool.noConfusion (((hbefore c hmem).1 rfl).symm.trans hcurrent)
      | llseek offset whence =>
          have hsame : (f.act dev (.llseek offset whence)).returned
                = (dev.act f.state pos (.llseek offset whence)).returned ∧
              (f.act dev (.llseek offset whence)).state = (dev.act f.state pos (.llseek offset whence)).state := by
            rw [hact]
            by_cases hwhence : whence = SEEK_CUR
            · subst hwhence
              have hpos : f.copy (.llseek offset SEEK_CUR) = pos :=
                hseek _ List.mem_cons_self (by simp [PosCall.fromCurrent])
              rw [hpos]
              exact ⟨rfl, rfl⟩
            · exact dev.act_absolute f.state _ pos hwhence
          rw [agrees_cons_of_state dev hsame.1 hsame.2]
          refine ih _ _ hserved' hrest (fun c hmem hread => ?_) (fun c hmem hcurrent => ?_)
          · exact Bool.noConfusion ((hbefore c hmem).2 hread)
          have hserver : f.copy (.llseek offset whence) = pos := hseek c (List.mem_cons_of_mem _ hmem) hcurrent
          rw [hserver] at hact
          exact congrArg Moved.pos hact

end NetFile

/-! ## Devices on which the others disagree -/

namespace SeekDevice

/-- A driver that counts records: every read takes one, seeks from the start or the end are
refused, and a seek from the current position says which record is next. -/
def records : SeekDevice Unit where
  llseek _ pos _ whence := if whence = SEEK_CUR then (pos, pos, ()) else ((-EINVAL).toInt64, pos, ())
  read _ _ _ := (.data [] (Nat.zero_le _), 1, ())
  absolute _ _ _ _ _ h := by simp [h]

/-- A driver that rewinds at every seek; there is something to be read only at the start. -/
def rewinding : SeekDevice Unit where
  llseek _ _ _ _ := (0, 0, ())
  read _ pos _ := (if pos = 0 then .data [] (Nat.zero_le _) else .error (-1) (by decide), pos, ())
  absolute _ _ _ _ _ _ := ⟨rfl, rfl⟩

end SeekDevice

namespace NetFile

/-- On `records` the server's copy does not see a read. -/
theorem agrees_records (f : NetFile Unit) (calls : List PosCall) (hserver : f.server = 0)
    (h : f.Agrees SeekDevice.records f.client calls) :
    (∀ c ∈ calls, c.refused = false) ∧ (f.client = 1 → ∀ c ∈ calls, c.fromCurrent = false) ∧
      calls.Pairwise fun c c' => c.isRead → c'.fromCurrent = false := by
  induction calls generalizing f with
  | nil => exact ⟨nofun, nofun, .nil⟩
  | cons c calls ih =>
      have hreturned := ((agrees_cons _).mp h).1
      have hrest := (agrees_cons_of_state _ hreturned rfl).mp h
      cases c with
      | read size =>
          have hserved : (PosCall.read size).refused = false := by
            refine Bool.eq_false_iff.mpr fun hrefused => ?_
            rw [act, if_pos hrefused] at hreturned
            have hvalue : (-EINVAL).toInt64 = 0 := congrArg Prod.fst hreturned
            exact absurd hvalue (by decide)
          have hclient : (f.after SeekDevice.records (.read size)).client = 1 := by
            simp [after, act, hserved, SeekDevice.act, SeekDevice.records]
          obtain ⟨hserveds, hnone, horder⟩ :=
            ih (f.after SeekDevice.records (.read size)) hserver (hclient.symm ▸ hrest)
          have hlater := hnone hclient
          refine ⟨List.forall_mem_cons.mpr ⟨hserved, hserveds⟩, fun _ => List.forall_mem_cons.mpr ⟨rfl, hlater⟩, ?_⟩
          exact List.pairwise_cons.mpr ⟨fun c hc _ => hlater c hc, horder⟩
      | llseek offset whence =>
          have hpos (pos : Int64) : (SeekDevice.records.act f.state pos (.llseek offset whence)).pos = pos := by
            by_cases hwhence : whence = SEEK_CUR
            · simp [SeekDevice.act, SeekDevice.records, hwhence]
            · simp [SeekDevice.act, SeekDevice.records, hwhence]
          rw [hpos] at hrest
          obtain ⟨hserveds, hnone, horder⟩ := ih _ ((hpos f.server).trans hserver) hrest
          refine ⟨List.forall_mem_cons.mpr ⟨rfl, hserveds⟩, fun hclient => List.forall_mem_cons.mpr ⟨?_, hnone hclient⟩,
            List.pairwise_cons.mpr ⟨fun _ _ hread => (Bool.false_ne_true hread).elim, horder⟩⟩
          -- a seek from the current position tells the two copies apart
          refine decide_eq_false fun hwhence => ?_
          have hvalue : f.server = f.client := by
            simpa [act, PosCall.refused, copy, SeekDevice.act, SeekDevice.records, hwhence, Moved.returned]
              using hreturned
          rw [hserver, hclient] at hvalue
          exact absurd hvalue (by decide)

/-- On `rewinding` the client's copy does not see a seek. -/
theorem agrees_rewinding (f : NetFile Unit) (pos : Int64) (calls : List PosCall) (hclient : f.client = 1)
    (h : f.Agrees SeekDevice.rewinding pos calls) :
    (pos = 0 → ∀ c ∈ calls, c.isRead = false) ∧ calls.Pairwise fun c c' => c'.isRead → c.isRead := by
  induction calls generalizing f pos with
  | nil => exact ⟨nofun, .nil⟩
  | cons c calls ih =>
      have hreturned := ((agrees_cons _).mp h).1
      have hrest := (agrees_cons_of_state _ hreturned rfl).mp h
      cases c with
      | read size =>
          have hreads : (f.act SeekDevice.rewinding (.read size)).value ≠ 0 ∧
              (f.after SeekDevice.rewinding (.read size)).client = 1 := by
            by_cases hrefused : (PosCall.read size).refused
            · simp [act, after, hrefused, hclient]
              decide
            · simp [act, after, hrefused, copy, SeekDevice.act, SeekDevice.rewinding, hclient, ReadReturn.value]
          have hpos : pos ≠ 0 := by
            rintro rfl
            exact hreads.1 (congrArg Prod.fst hreturned)
          obtain ⟨-, horder⟩ := ih _ pos hreads.2 hrest
          exact ⟨fun hzero => absurd hzero hpos, List.pairwise_cons.mpr ⟨fun _ _ _ => rfl, horder⟩⟩
      | llseek offset whence =>
          obtain ⟨hnone, horder⟩ := ih (f.after SeekDevice.rewinding (.llseek offset whence)) 0 hclient hrest
          have hlater := hnone rfl
          refine ⟨fun _ => List.forall_mem_cons.mpr ⟨rfl, hlater⟩,
            List.pairwise_cons.mpr ⟨fun c hc hread => ?_, horder⟩⟩
          exact Bool.noConfusion ((hlater c hc).symm.trans hread)

end NetFile

/-- A sequence of calls on a dummy file returns, on every device, the values and bytes of the
same calls on the device exactly when it has no read that is refused, no read after a seek,
and no seek from the current position after a read. -/
theorem positions_agree_iff (calls : List (Surroundings × PosCall)) :
    (∀ (σ : Type) (dev : SeekDevice σ) (s : σ) (pos : Int64),
      ∃ moves, NetFile.run dev ⟨s, pos, pos⟩ calls = .ok moves ∧
        moves.map Moved.returned = (dev.run s pos (calls.map Prod.snd)).map Moved.returned) ↔
      (∀ c ∈ calls.map Prod.snd, c.refused = false) ∧ (calls.map Prod.snd).Pairwise PosCall.Before := by
  generalize hcalls : calls.map Prod.snd = cs
  have hagrees : ∀ (σ : Type) (dev : SeekDevice σ) (s : σ) (pos : Int64),
      (∃ moves, NetFile.run dev ⟨s, pos, pos⟩ calls = .ok moves ∧
        moves.map Moved.returned = (dev.run s pos cs).map Moved.returned) ↔
      (⟨s, pos, pos⟩ : NetFile σ).Agrees dev pos cs := by
    intro σ dev s pos
    rw [NetFile.run_eq, hcalls]
    constructor
    · rintro ⟨_, hrun, hmoves⟩
      rwa [← Except.ok.inj hrun] at hmoves
    · exact fun hmoves => ⟨_, rfl, hmoves⟩
  simp only [hagrees]
  constructor
  · intro hall
    obtain ⟨hserved, -, hseek⟩ := NetFile.agrees_records ⟨(), 0, 0⟩ cs rfl (hall Unit .records () 0)
    obtain ⟨-, hread⟩ := NetFile.agrees_rewinding ⟨(), 1, 1⟩ 1 cs rfl (hall Unit .rewinding () 1)
    exact ⟨hserved, hseek.and hread⟩
  · rintro ⟨hserved, horder⟩ σ dev s pos
    exact NetFile.agrees_of_inOrder dev ⟨s, pos, pos⟩ pos cs hserved horder (fun _ _ _ => rfl) (fun _ _ _ => rfl)

/-! ## A file -/

namespace Sample

/-- A file with four bytes that cannot be written. -/
def fourBytes : SeekDevice Unit where
  llseek _ pos offset whence :=
    let pos := if whence = 0 then offset else if whence = 1 then pos + offset else 4 + offset
    (pos, pos, ())
  absolute _ _ _ _ whence h := by simp [show whence ≠ 1 from h]
  read _ pos size :=
    let bytes := (([10, 11, 12, 13] : Bytes).drop pos.toNatClampNeg).take size.toNat
    (.data bytes (List.length_take_le _ _), pos + Int64.ofNat bytes.length, ())

def surroundings : Surroundings where
  accessId := 3
  stale := 0
  curseq := 1
  flags := NLM_F_ACK
  seq := 1
  pid := 7
  pad := []
  fresh := FoCall.flush.request 3 0
  filpOpen := .error (-2)
  replyPad := []
  argsPad := 0
  addr := 4096
  kmalloc := zeros

/-- `lseek(fd, 2, SEEK_SET)`, `read(fd, buf, 1)`, `lseek(fd, 0, SEEK_CUR)`. -/
def seekAndRead : List (Surroundings × PosCall) :=
  [(surroundings, .llseek 2 0), (surroundings, .read 1), (surroundings, .llseek 0 1)]

end Sample

/-- The dummy file reads the first byte after the seek, and the read does not count for
the next one. -/
theorem positions_differ : ∃ moves, NetFile.run Sample.fourBytes ⟨(), 0, 0⟩ Sample.seekAndRead = .ok moves ∧
    moves.map Moved.returned = [(2, []), (1, [10]), (2, [])] ∧
    (Sample.fourBytes.run () 0 (Sample.seekAndRead.map Prod.snd)).map Moved.returned
      = [(2, []), (1, [12]), (3, [])] :=
  ⟨_, NetFile.run_eq _ _ _, by decide, by decide⟩

end Netdev.Kernel
