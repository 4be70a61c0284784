-- SUMMARY: Configuration files of the documented form, and when `read_config` returns their entries.
import Netdev.Daemon.ReadConfig

/-!
# Files of the documented form

A file of comments and entries. `fgets` cuts it into pieces of at most 99 characters, and the
parsing loop is a function of these pieces; the number of entries comes from the other scanner,
which sees a line only when it ends in a newline.
-/

namespace Netdev.Daemon
open Base

/-! ## The documented form -/

/-- A field of an entry. -/
structure IsField (s : Bytes) : Prop where
  nonempty : s ≠ []
  width : s.length ≤ 19
  semicolon : 59 ∉ s
  newline : 10 ∉ s

def portValue (ds : Bytes) : Int := ds.foldl (fun n d => 10 * n + (d.toNat - 48)) 0

/-- A port number. -/
structure IsPort (ds : Bytes) : Prop where
  nonempty : ds ≠ []
  width : ds.length ≤ 5
  digits : ∀ d ∈ ds, isDigit d
  range : portValue ds ≤ 65535

/-- `RemoteDevicePath;DummyDeviceName;DaemonIP;DaemonPort` -/
structure Entry where
  remoteDevName : Bytes
  dummyDevName : Bytes
  rmIpaddr : Bytes
  rmPortaddr : Bytes
  remoteDevName_field : IsField remoteDevName
  dummyDevName_field : IsField dummyDevName
  rmIpaddr_field : IsField rmIpaddr
  rmPortaddr_port : IsPort rmPortaddr
  no_comment : remoteDevName.head? ≠ some 35

namespace Entry

def bytes (e : Entry) : Bytes :=
  e.remoteDevName ++ 59 :: (e.dummyDevName ++ 59 :: (e.rmIpaddr ++ 59 :: e.rmPortaddr))

/-- The structure that stands for the entry. -/
def pdev (e : Entry) : ProxyDev := ⟨e.remoteDevName, e.dummyDevName, e.rmIpaddr, portValue e.rmPortaddr⟩

end Entry

/-- A line without its newline; a comment has any length. -/
inductive Line where
  | comment (text : Bytes) (newline : 10 ∉ text)
  | entry (e : Entry)

namespace Line

def bytes : Line → Bytes
  | comment text _ => 35 :: text
  | entry e => e.bytes

def pdev : Line → Option ProxyDev
  | comment _ _ => none
  | entry e => some e.pdev

end Line

/-- The lines that end in a newline, and the last line when it does not. -/
structure ConfigFile where
  lines : List Line
  last : Option Line

namespace ConfigFile

def bytes (f : ConfigFile) : Bytes :=
  f.lines.flatMap (fun l => l.bytes ++ [10]) ++ f.last.toList.flatMap Line.bytes

/-- The entries, in the order of the file. -/
def pdevs (f : ConfigFile) : List ProxyDev := (f.lines ++ f.last.toList).filterMap Line.pdev

end ConfigFile

/-- `read_config` ends with these structures; `*count` is their number. -/
structure Returns (file : Bytes) (pdevs : List ProxyDev) : Prop where
  ends : ∃ ls count r, (readFile file).Run ls (.parsing count r) ∧ ReadConfig.turn file (.parsing count r) = none
  pdevs : ∀ ls count r, (readFile file).Run ls (.parsing count r) →
    ReadConfig.turn file (.parsing count r) = none → r.pdevs = pdevs

/-! ## The pieces of a file -/

/-- The pieces that `fgets` cuts a file into. -/
def pieces (file : Bytes) : List Bytes :=
  if _ : file = [] then
    []
  else
    (fgets 99 file).1 :: pieces (fgets 99 file).2
termination_by file.length
decreasing_by exact fgets_rest_lt ‹_›

@[simp] theorem pieces_nil : pieces [] = [] := by
  rw [pieces]
  simp

theorem pieces_cons {file : Bytes} (h : file ≠ []) :
    pieces file = (fgets 99 file).1 :: pieces (fgets 99 file).2 := by
  rw [pieces]
  simp [h]

/-- `fgets` on a line that ends in a newline. -/
theorem fgets_line {l : Bytes} (hl : 10 ∉ l) (n : Nat) (rest : Bytes) :
    fgets n (l ++ 10 :: rest) =
      if l.length < n then (l ++ [10], rest) else (l.take n, l.drop n ++ 10 :: rest) := by
  induction n generalizing l with
  | zero => simp [fgets]
  | succ n ih =>
      cases l with
      | nil => simp [fgets]
      | cons b l =>
          have hb : b ≠ 10 := fun h => hl (h ▸ .head _)
          rw [List.cons_append, fgets_cons hb, ih fun h => hl (.tail _ h)]
          by_cases hlt : l.length < n
          · simp [hlt]
          · simp [hlt]

/-- The pieces of a line are those of the line alone. -/
theorem pieces_line {l : Bytes} (hl : 10 ∉ l) (rest : Bytes) :
    pieces (l ++ 10 :: rest) = pieces (l ++ [10]) ++ pieces rest := by
  induction hn : l.length using Nat.strongRecOn generalizing l with
  | ind n ih =>
      rw [@pieces_cons (l ++ 10 :: rest) (by simp), @pieces_cons (l ++ [10]) (by simp)]
      rw [fgets_line hl, fgets_line hl]
      by_cases hlt : l.length < 99
      · simp [hlt]
      · have hdrop : 10 ∉ l.drop 99 := fun h => hl (List.mem_of_mem_drop h)
        have hlen : (l.drop 99).length < n := by
          rw [List.length_drop]
          omega
        simp [hlt, ih _ hlen hdrop rfl]

/-! ## The parsing loop as a function of the pieces -/

/-- The string in the buffer after this piece. -/
def cstr (piece : Bytes) : Bytes := piece.takeWhile (· ≠ 0)

/-- The entries from these pieces, of which there are at most `n`. -/
def parse : List Bytes → Nat → List ProxyDev
  | [], _ => []
  | _ :: _, 0 => []
  | p :: ps, n + 1 =>
      if (cstr p).head? = some 35 then
        parse ps (n + 1)
      else
        match ProxyDev.scan (cstr p) with
        | none => []
        | some pdev => pdev :: parse ps n

@[simp] theorem parse_zero (ps : List Bytes) : parse ps 0 = [] := by
  cases ps with
  | nil => rfl
  | cons p ps => rfl

/-- What the pieces scan to that are no comments. -/
def scans (ps : List Bytes) : List (Option ProxyDev) :=
  ((ps.map cstr).filter fun line => line.head? ≠ some 35).map ProxyDev.scan

@[simp] theorem scans_nil : scans [] = [] := rfl

@[simp] theorem scans_append (ps qs : List Bytes) : scans (ps ++ qs) = scans ps ++ scans qs := by
  simp [scans]

theorem scans_cons (p : Bytes) (ps : List Bytes) :
    scans (p :: ps) = if (cstr p).head? = some 35 then scans ps else ProxyDev.scan (cstr p) :: scans ps := by
  by_cases h : (cstr p).head? = some 35
  · simp [scans, h]
  · simp [scans, h]

/-- The loop returns `n` entries when the first `n` of these pieces scan. -/
theorem parse_eq_iff {ps : List Bytes} {pdevs : List ProxyDev} :
    parse ps pdevs.length = pdevs ↔ (scans ps).take pdevs.length = pdevs.map some := by
  induction ps generalizing pdevs with
  | nil =>
      cases pdevs with
      | nil => simp
      | cons pdev pdevs => simp [parse]
  | cons p ps ih =>
      cases pdevs with
      | nil => simp
      | cons pdev pdevs =>
          rw [scans_cons]
          by_cases hhead : (cstr p).head? = some 35
          · have hi := @ih (pdev :: pdevs)
            simpa [parse, hhead] using hi
          · cases hscan : ProxyDev.scan (cstr p) with
            | none => simp [parse, hhead, hscan]
            | some d => simp [parse, hhead, hscan, ih]

namespace Reading
variable {r r' : Reading} {count : Nat}

/-- The entries that the loop ends with, as they can be told from here. -/
def outcome (count : Nat) (r : Reading) : List ProxyDev :=
  r.pdevs ++ parse (pieces r.file) (count - r.pdevs.length)

theorem next_line (hfile : r.file ≠ []) : r.next.line = cstr (fgets 99 r.file).1 := by
  rw [next_eq hfile]
  rfl

theorem next_file (hfile : r.file ≠ []) : r.next.file = (fgets 99 r.file).2 := by
  rw [next_eq hfile]

theorem outcome_cons (hfile : r.file ≠ []) (hlt : r.pdevs.length < count) :
    r.outcome count = r.pdevs ++
      if r.next.line.head? = some 35 then
        parse (pieces r.next.file) (count - r.pdevs.length)
      else
        match ProxyDev.scan r.next.line with
        | none => []
        | some pdev => pdev :: parse (pieces r.next.file) (count - (r.pdevs.length + 1)) := by
  have hsucc : count - r.pdevs.length = count - (r.pdevs.length + 1) + 1 := by omega
  unfold outcome
  rw [next_line hfile, next_file hfile, pieces_cons hfile, hsucc, parse]

theorem Owed.outcome_turn (h : r.Owed count) (hturn : r.turn count = some r') :
    r'.outcome count = r.outcome count := by
  obtain ⟨hlt, hcases⟩ := turn_cases hturn
  rw [outcome_cons (h.file_ne_nil hlt) hlt]
  cases hcases with
  | inl hcomment =>
      obtain ⟨hhead, rfl⟩ := hcomment
      rw [if_pos hhead, outcome, next_pdevs]
  | inr hentry =>
      obtain ⟨hhead, pdev, hscan, rfl⟩ := hentry
      rw [if_neg hhead, hscan]
      simp [outcome]

theorem Owed.outcome_end (h : r.Owed count) (hturn : r.turn count = none) : r.outcome count = r.pdevs := by
  cases turn_eq_none hturn with
  | inl hle => simp [outcome, Nat.sub_eq_zero_of_le hle]
  | inr hbreak =>
      obtain ⟨hlt, hhead, hscan⟩ := hbreak
      rw [outcome_cons (h.file_ne_nil hlt) hlt, if_neg hhead, hscan]
      simp

end Reading

/-! ## What an entry scans to -/

theorem takeWhile_field {p : UInt8 → Bool} {s : Bytes} {b : UInt8} (hs : ∀ c ∈ s, p c) (hb : p b = false)
    (rest : Bytes) : (s ++ b :: rest).takeWhile p = s := by
  induction s with
  | nil => simp [hb]
  | cons c s ih =>
      have hc := hs c (.head _)
      simpa [hc] using ih fun d hd => hs d (.tail _ hd)

theorem IsField.scanString {s : Bytes} (h : IsField s) (rest : Bytes) :
    scanString (s ++ 59 :: rest) = some (s, 59 :: rest) := by
  have hfield : (s ++ 59 :: rest).takeWhile (· ≠ 59) = s := by
    refine takeWhile_field (fun c hc => ?_) (by simp) rest
    have hne : c ≠ 59 := fun heq => h.semicolon (heq ▸ hc)
    simpa using hne
  have htake : s.take 20 = s := List.take_of_length_le (h.width.trans (by decide))
  unfold Daemon.scanString
  rw [hfield, htake]
  cases s with
  | nil => exact absurd rfl h.nonempty
  | cons c s => simp

theorem scanStrings_field {s : Bytes} (h : IsField s) (n : Nat) (rest : Bytes) :
    scanStrings (n + 1) (s ++ 59 :: rest) = (s :: (scanStrings n rest).1, (scanStrings n rest).2) := by
  simp [scanStrings, h.scanString, scanSemicolon]

namespace IsPort
variable {ds : Bytes}

theorem value_nonneg (h : IsPort ds) : 0 ≤ portValue ds := by
  have hfold (ds : Bytes) (hds : ∀ d ∈ ds, isDigit d) :
      ∀ n : Int, 0 ≤ n → 0 ≤ ds.foldl (fun (n : Int) (d : UInt8) => 10 * n + (d.toNat - 48)) n := by
    induction ds with
    | nil =>
        intro n hn
        exact hn
    | cons d ds ih =>
        intro n hn
        have hd := hds d (.head _)
        simp only [isDigit, Bool.and_eq_true, decide_eq_true_eq, UInt8.le_iff_toNat_le] at hd
        have hlow : 48 ≤ d.toNat := hd.1
        have hnext : 0 ≤ 10 * n + ((d.toNat : Int) - 48) := by omega
        exact ih (fun d hd => hds d (.tail _ hd)) _ hnext
  exact hfold ds h.digits 0 (Int.le_refl 0)

theorem scanDigits (h : IsPort ds) : scanDigits (ds ++ [10]) = some (portValue ds) := by
  have hdigits : (ds ++ [10]).takeWhile isDigit = ds := takeWhile_field h.digits rfl []
  unfold Daemon.scanDigits
  rw [hdigits]
  cases ds with
  | nil => exact absurd rfl h.nonempty
  | cons d ds => rfl

theorem scanInt (h : IsPort ds) : scanInt (ds ++ [10]) = some (portValue ds) := by
  have hscan := h.scanDigits
  have hint : cInt (max (-2 ^ 63) (min (portValue ds) (2 ^ 63 - 1))) = portValue ds := by
    have hlow := h.value_nonneg
    have hhigh := h.range
    have hsame : max (-2 ^ 63) (min (portValue ds) (2 ^ 63 - 1)) = portValue ds := by omega
    rw [hsame]
    exact Int.bmod_eq_of_le (by omega) (by omega)
  cases ds with
  | nil => exact absurd rfl h.nonempty
  | cons d ds =>
      have hd : 48 ≤ d.toNat ∧ d.toNat ≤ 57 := by
        have hdigit := h.digits d (.head _)
        simpa [isDigit, UInt8.le_iff_toNat_le] using hdigit
      have hspace : isSpace d = false := by
        simp [isSpace, UInt8.le_iff_toNat_le, ← UInt8.toNat_inj]
        omega
      unfold Daemon.scanInt
      rw [List.cons_append, List.dropWhile_cons_of_neg (by simp [hspace])]
      split
      · rename_i hsign
        cases hsign
        simp at hd
      · rename_i hsign
        cases hsign
        simp at hd
      · rw [← List.cons_append, hscan, Option.map_some, hint]

end IsPort

namespace Entry
variable {e : Entry}

theorem scan_bytes (e : Entry) : ProxyDev.scan (e.bytes ++ [10]) = some e.pdev := by
  have hstrings : scanStrings 3 (e.bytes ++ [10]) =
      ([e.remoteDevName, e.dummyDevName, e.rmIpaddr], some (e.rmPortaddr ++ [10])) := by
    simp only [bytes, List.append_assoc, List.cons_append]
    rw [scanStrings_field e.remoteDevName_field, scanStrings_field e.dummyDevName_field,
      scanStrings_field e.rmIpaddr_field]
    rfl
  simp [ProxyDev.scan, sscanf, hstrings, e.rmPortaddr_port.scanInt, pdev]

theorem length_bytes (e : Entry) : e.bytes.length < 99 := by
  have h1 := e.remoteDevName_field.width
  have h2 := e.dummyDevName_field.width
  have h3 := e.rmIpaddr_field.width
  have h4 := e.rmPortaddr_port.width
  simp only [bytes, List.length_append, List.length_cons]
  omega

theorem newline (e : Entry) : 10 ∉ e.bytes := by
  have hport : 10 ∉ e.rmPortaddr := fun h => absurd (e.rmPortaddr_port.digits 10 h) (by decide)
  simp [bytes, e.remoteDevName_field.newline, e.dummyDevName_field.newline, e.rmIpaddr_field.newline, hport]

/-- An entry begins with the first byte of its device path. -/
theorem bytes_cons (e : Entry) : ∃ b t, e.bytes = b :: t ∧ b ≠ 35 := by
  cases hname : e.remoteDevName with
  | nil => exact absurd hname e.remoteDevName_field.nonempty
  | cons b s =>
      refine ⟨b, _, by rw [bytes, hname]; rfl, fun h => ?_⟩
      have hhead := e.no_comment
      rw [hname, h] at hhead
      exact hhead rfl

/-- The fields hold no null. -/
def Plain (e : Entry) : Prop := ∀ s ∈ e.pdev.strings, 0 ∉ s

theorem Plain.bytes (h : e.Plain) : 0 ∉ e.bytes := by
  have hport : 0 ∉ e.rmPortaddr := fun h => absurd (e.rmPortaddr_port.digits 0 h) (by decide)
  simp only [Plain, pdev, ProxyDev.strings, List.forall_mem_cons] at h
  simp [Entry.bytes, h.1, h.2.1, h.2.2.1, hport]

theorem Plain.cstr (h : e.Plain) : cstr (e.bytes ++ [10]) = e.bytes ++ [10] := by
  refine List.takeWhile_eq_self_iff.mpr fun c hc => ?_
  have hne : c ≠ 0 := by
    rintro rfl
    have hbytes := h.bytes
    simp [hbytes] at hc
  simpa using hne

/-- An entry is one piece, and scans to what it stands for. -/
theorem Plain.scans (h : e.Plain) : scans (pieces (e.bytes ++ [10])) = [some e.pdev] := by
  obtain ⟨b, t, hbytes, hb⟩ := e.bytes_cons
  have hpieces : pieces (e.bytes ++ [10]) = [e.bytes ++ [10]] := by
    rw [pieces_cons (by simp), fgets_line e.newline, if_pos e.length_bytes]
    simp
  have hhead : (Daemon.cstr (e.bytes ++ [10])).head? ≠ some 35 := by
    rw [h.cstr, hbytes]
    simpa using hb
  rw [hpieces, scans_cons, if_neg hhead, h.cstr, scan_bytes, scans_nil]

end Entry

/-! ## The lines of a file -/

theorem countLines_newline {c : UInt8} {t : Bytes} (ht : 10 ∉ t) (rest : Bytes) :
    countLines (some c) (t ++ 10 :: rest) = (if c ≠ 35 then 1 else 0) + countLines none rest := by
  induction t with
  | nil => rfl
  | cons b t ih =>
      have hb : b ≠ 10 := fun h => ht (h ▸ .head _)
      rw [List.cons_append, countLines, if_neg hb]
      exact ih fun h => ht (.tail _ h)

theorem countLines_open {c : UInt8} {t : Bytes} (ht : 10 ∉ t) : countLines (some c) t = 0 := by
  induction t with
  | nil => rfl
  | cons b t ih =>
      have hb : b ≠ 10 := fun h => ht (h ▸ .head _)
      rw [countLines, if_neg hb]
      exact ih fun h => ht (.tail _ h)

namespace Line

theorem newline (l : Line) : 10 ∉ l.bytes := by
  cases l with
  | comment text h => simpa [bytes] using h
  | entry e => exact e.newline

/-- What the pieces of the line scan to that do not begin as a comment. -/
def found : Line → List (Option ProxyDev)
  | comment text _ => scans (pieces (35 :: text ++ [10]))
  | entry e => [some e.pdev]

/-- The fields of an entry hold no null. -/
def Plain (l : Line) : Prop := ∀ pdev, l.pdev = some pdev → ∀ s ∈ pdev.strings, 0 ∉ s

theorem Plain.scans {l : Line} (h : l.Plain) : scans (pieces (l.bytes ++ [10])) = l.found := by
  cases l with
  | comment text _ => rfl
  | entry e => exact Entry.Plain.scans (h e.pdev rfl)

/-- A comment of less than 99 characters is one piece. -/
theorem found_short {text : Bytes} {hnl : 10 ∉ text} (h : text.length < 98) : (comment text hnl).found = [] := by
  have hline : 10 ∉ 35 :: text := (comment text hnl).newline
  have hlen : (35 :: text).length < 99 := Nat.succ_lt_succ h
  rw [found, pieces_cons (by simp), fgets_line hline, if_pos hlen]
  simp [scans_cons, cstr]

/-- The first byte, which says what the line is, and the others. -/
theorem bytes_cons (l : Line) : ∃ b t, l.bytes = b :: t ∧ (if b ≠ 35 then 1 else 0) = l.pdev.toList.length := by
  cases l with
  | comment text _ => exact ⟨35, text, rfl, rfl⟩
  | entry e =>
      obtain ⟨b, t, hbytes, hb⟩ := e.bytes_cons
      exact ⟨b, t, hbytes, if_pos hb⟩

/-- A line that ends in a newline is counted when it is an entry. -/
theorem countLines_line (l : Line) (rest : Bytes) :
    countLines none (l.bytes ++ 10 :: rest) = l.pdev.toList.length + countLines none rest := by
  obtain ⟨b, t, hbytes, hb⟩ := l.bytes_cons
  have hnl := l.newline
  rw [hbytes] at hnl
  rw [hbytes, List.cons_append, countLines, countLines_newline fun h => hnl (.tail _ h), hb]

/-- A line that does not is not counted. -/
theorem countLines_last (l : Line) : countLines none l.bytes = 0 := by
  obtain ⟨b, t, hbytes, -⟩ := l.bytes_cons
  have hnl := l.newline
  rw [hbytes] at hnl
  rw [hbytes, countLines, countLines_open fun h => hnl (.tail _ h)]

end Line

namespace ConfigFile

/-- The last line ends in a newline, when it is an entry. -/
def Terminated (f : ConfigFile) : Prop := ∀ e, f.last ≠ some (.entry e)

/-- The fields of the entries hold no null. -/
def Plain (f : ConfigFile) : Prop := ∀ pdev ∈ f.pdevs, ∀ s ∈ pdev.strings, 0 ∉ s

/-- What stands in the file where the entries are looked for: the entries, and the pieces of
comments that do not begin as comments. -/
def found (f : ConfigFile) : List (Option ProxyDev) := f.lines.flatMap Line.found

/-- The entries come first there. A piece that was cut from a comment has to be the entry that
is due at its place, or come after all of them. -/
def InStep (f : ConfigFile) : Prop := f.found.take f.pdevs.length = f.pdevs.map some

theorem lines_cons (l : Line) (ls : List Line) (rest : Bytes) :
    (l :: ls).flatMap (fun l => l.bytes ++ [10]) ++ rest =
      l.bytes ++ 10 :: (ls.flatMap (fun l => l.bytes ++ [10]) ++ rest) := by
  simp

theorem countLines_lines (ls : List Line) (rest : Bytes) :
    countLines none (ls.flatMap (fun l => l.bytes ++ [10]) ++ rest) =
      (ls.filterMap Line.pdev).length + countLines none rest := by
  induction ls with
  | nil => simp
  | cons l ls ih =>
      rw [lines_cons, l.countLines_line, ih, ← Nat.add_assoc]
      cases hpdev : l.pdev with
      | none => simp [hpdev]
      | some pdev => simp [hpdev, Nat.add_comm]

theorem countLines_bytes (f : ConfigFile) : countLines none f.bytes = (f.lines.filterMap Line.pdev).length := by
  rw [bytes, countLines_lines]
  cases f.last with
  | none => rfl
  | some l => simp [l.countLines_last]

theorem scans_lines {ls : List Line} (hls : ∀ l ∈ ls, l.Plain) (rest : Bytes) :
    scans (pieces (ls.flatMap (fun l => l.bytes ++ [10]) ++ rest)) =
      ls.flatMap Line.found ++ scans (pieces rest) := by
  induction ls with
  | nil => simp
  | cons l ls ih =>
      have hl := (hls l (.head _)).scans
      have hi := ih fun l hl => hls l (.tail _ hl)
      rw [lines_cons, pieces_line l.newline, scans_append, hl, hi, List.flatMap_cons, List.append_assoc]

theorem pdevs_length (f : ConfigFile) :
    f.pdevs.length = (f.lines.filterMap Line.pdev).length + (f.last.toList.filterMap Line.pdev).length := by
  simp [pdevs]

theorem terminated_iff (f : ConfigFile) : f.Terminated ↔ f.last.toList.filterMap Line.pdev = [] := by
  unfold Terminated
  cases f.last with
  | none => simp
  | some l =>
      cases l with
      | comment text h => simp [Line.pdev]
      | entry e => simp [Line.pdev]

theorem found_length (f : ConfigFile) : (f.lines.filterMap Line.pdev).length ≤ f.found.length := by
  unfold found
  induction f.lines with
  | nil => simp
  | cons l ls ih =>
      cases l with
      | comment text h =>
          simp only [List.filterMap_cons, Line.pdev, List.flatMap_cons, List.length_append]
          omega
      | entry e =>
          simp only [List.filterMap_cons, Line.pdev, List.flatMap_cons, List.length_append, List.length_cons,
            Line.found]
          omega

/-- When no comment reaches 99 characters only entries are looked at. -/
theorem inStep_of_short {f : ConfigFile} (hlast : f.Terminated)
    (hshort : ∀ text h, Line.comment text h ∈ f.lines → text.length < 98) : f.InStep := by
  have hfound : f.found = (f.lines.filterMap Line.pdev).map some := by
    unfold found
    generalize f.lines = ls at hshort
    induction ls with
    | nil => rfl
    | cons l ls ih =>
        have hi := ih fun text h hmem => hshort text h (.tail _ hmem)
        cases l with
        | comment text h =>
            rw [List.flatMap_cons, Line.found_short (hshort text h (.head _)), hi]
            rfl
        | entry e =>
            rw [List.flatMap_cons, hi]
            rfl
  have hpdevs : f.pdevs = f.lines.filterMap Line.pdev := by
    rw [pdevs, List.filterMap_append, f.terminated_iff.mp hlast, List.append_nil]
  rw [InStep, hfound, hpdevs, ← List.length_map, List.take_length]

end ConfigFile

/-! ## When the entries are returned -/

namespace ReadConfig
variable {file : Bytes} {s s' : ReadConfig}

/-- What holds of the second loop besides. -/
def Outcome (file : Bytes) : ReadConfig → Prop
  | counting _ _ _ => True
  | parsing count r => r.Valid ∧ r.outcome count.toNat = parse (pieces file) count.toNat

theorem outcome (file : Bytes) : (readFile file).Invariant fun s => s.Counted file ∧ s.Outcome file where
  init := by
    intro s hs
    have hc := (counted file).init s hs
    obtain ⟨c, rfl⟩ := hs
    exact ⟨hc, trivial⟩
  step := by
    intro s _ s' hs hstep
    refine ⟨hs.1.turn hstep, ?_⟩
    cases s with
    | parsing count r =>
        obtain ⟨r', hr, rfl⟩ := turn_parsing hstep
        obtain ⟨⟨-, howed⟩, hvalid, heq⟩ := hs
        exact ⟨hvalid.turn hr, (howed.outcome_turn hr).trans heq⟩
    | counting rest c count =>
        obtain ⟨-, rfl⟩ | ⟨rest', -, rfl⟩ := turn_counting hstep
        · refine ⟨⟨List.not_mem_nil, nofun⟩, ?_⟩
          simp [Reading.outcome]
        · trivial

/-- What both loops have done when they end. -/
theorem ended {ls : List Unit} {count : Int} {r : Reading} (hrun : (readFile file).Run ls (.parsing count r))
    (hend : turn file (.parsing count r) = none) :
    r.Valid ∧ r.pdevs.length ≤ (cInt (countLines none file)).toNat ∧
      r.pdevs = parse (pieces file) (cInt (countLines none file)).toNat := by
  obtain ⟨⟨hcount, howed⟩, hvalid, heq⟩ := hrun.invariant (outcome file)
  have hr := Option.map_eq_none_iff.mp hend
  exact ⟨hvalid, hcount ▸ howed.pdevs, hcount ▸ (howed.outcome_end hr).symm.trans heq⟩

end ReadConfig

/-- The entries are returned when the parsing loop gives them. -/
theorem returns_iff_parse (file : Bytes) (pdevs : List ProxyDev) :
    Returns file pdevs ↔ parse (pieces file) (cInt (countLines none file)).toNat = pdevs := by
  obtain ⟨ls, count, r, hrun, hend⟩ := @ReadConfig.run_ends file (.counting file 0 0) [] (.init ⟨0, rfl⟩)
  constructor
  · intro h
    rw [← h.pdevs ls count r hrun hend]
    exact (ReadConfig.ended hrun hend).2.2.symm
  · intro h
    refine ⟨⟨_, count, r, hrun, hend⟩, fun ls count r hrun hend => ?_⟩
    rw [← h]
    exact (ReadConfig.ended hrun hend).2.2

theorem toNat_cInt_le_INT_MAX (n : Int) : (cInt n).toNat ≤ INT_MAX := by
  have hlt := @Int.bmod_lt n (2 ^ 32) (by decide)
  unfold cInt INT_MAX
  omega

namespace ConfigFile
variable {f : ConfigFile}

theorem Plain.scans (h : f.Plain) :
    scans (pieces f.bytes) = f.found ++ scans (pieces (f.last.toList.flatMap Line.bytes)) := by
  refine scans_lines (fun l hl pdev hpdev => h pdev ?_) _
  exact List.mem_filterMap.mpr ⟨l, List.mem_append_left _ hl, hpdev⟩

/-- The number of entries is counted when the last one ends in a newline. -/
theorem Terminated.length (h : f.Terminated) : f.pdevs.length = countLines none f.bytes := by
  rw [pdevs_length, f.terminated_iff.mp h, countLines_bytes]
  rfl

theorem parse_iff (hlast : f.Terminated) (hplain : f.Plain) :
    parse (pieces f.bytes) f.pdevs.length = f.pdevs ↔ f.InStep := by
  have hlen : f.pdevs.length ≤ f.found.length := by
    rw [hlast.length, countLines_bytes]
    exact f.found_length
  rw [parse_eq_iff, hplain.scans, List.take_append_of_le_length hlen]
  rfl

/-- For every file of the documented form, `read_config` returns its entries exactly when the
last line, where it is an entry, ends in a newline, no field holds a null, the number of the
entries is an `int`, and the pieces of long comments do not come where an entry is due. -/
theorem returns_iff (f : ConfigFile) :
    Returns f.bytes f.pdevs ↔ f.Terminated ∧ f.Plain ∧ f.pdevs.length ≤ INT_MAX ∧ f.InStep := by
  constructor
  · intro h
    obtain ⟨ls, count, r, hrun, hend⟩ := h.ends
    obtain ⟨hvalid, hlen, hparse⟩ := ReadConfig.ended hrun hend
    rw [h.pdevs ls count r hrun hend] at hlen hparse
    have hmax := hlen.trans (toNat_cInt_le_INT_MAX _)
    have hcount := hlen.trans (ReadConfig.toNat_cInt_le _)
    have hlast : f.Terminated := by
      rw [pdevs_length, countLines_bytes] at hcount
      refine f.terminated_iff.mpr (List.length_eq_zero_iff.mp ?_)
      omega
    have hplain : f.Plain := by
      intro pdev hpdev s hs
      rw [← h.pdevs ls count r hrun hend] at hpdev
      exact (hvalid.pdevs pdev hpdev s hs).noNull
    rw [← hlast.length, cInt_of_le_INT_MAX hmax, Int.toNat_natCast] at hparse
    exact ⟨hlast, hplain, hmax, (parse_iff hlast hplain).mp hparse.symm⟩
  · intro ⟨hlast, hplain, hmax, hstep⟩
    rw [returns_iff_parse, ← hlast.length, cInt_of_le_INT_MAX hmax, Int.toNat_natCast]
    exact (parse_iff hlast hplain).mpr hstep

end ConfigFile

/-! ## Two files that are not read -/

namespace Sample

theorem letter {b : UInt8} (h : b ≠ 59 ∧ b ≠ 10) : IsField [b] :=
  ⟨by simp, by simp, by simpa using h.1.symm, by simpa using h.2.symm⟩

theorem digit {b : UInt8} (h : isDigit b ∧ portValue [b] ≤ 65535) : IsPort [b] :=
  ⟨by simp, by simp, by simpa using h.1, h.2⟩

theorem dashes : (10 : UInt8) ∉ List.replicate 98 (45 : UInt8) := by
  simp

/-- `a;b;c;1` -/
def entry : Entry where
  remoteDevName := [97]
  dummyDevName := [98]
  rmIpaddr := [99]
  rmPortaddr := [49]
  remoteDevName_field := letter (by decide)
  dummyDevName_field := letter (by decide)
  rmIpaddr_field := letter (by decide)
  rmPortaddr_port := digit (by decide)
  no_comment := by decide

/-- Its only entry has no newline. -/
def unterminated : ConfigFile := ⟨[], some (.entry entry)⟩

/-- A comment of 99 characters comes before the entry. -/
def longComment : ConfigFile := ⟨[.comment (List.replicate 98 45) dashes, .entry entry], none⟩

theorem longComment_pieces :
    pieces longComment.bytes = (35 :: List.replicate 98 45) :: [10] :: pieces (entry.bytes ++ [10]) := by
  have hline : 10 ∉ 35 :: List.replicate 98 (45 : UInt8) := (Line.comment _ dashes).newline
  have hbytes : longComment.bytes = (35 :: List.replicate 98 45) ++ 10 :: (entry.bytes ++ [10]) := rfl
  rw [hbytes, pieces_cons (by simp), fgets_line hline, if_neg (by simp)]
  rw [@List.take_of_length_le _ 99 (35 :: List.replicate 98 45) (by simp)]
  rw [@List.drop_of_length_le _ 99 (35 :: List.replicate 98 45) (by simp)]
  rw [List.nil_append, pieces_cons (by simp)]
  rfl

end Sample

/-- Of neither file the entry is returned. -/
theorem not_returns :
    ¬ Returns Sample.unterminated.bytes Sample.unterminated.pdevs ∧
      ¬ Returns Sample.longComment.bytes Sample.longComment.pdevs := by
  constructor
  · have hcount : countLines none Sample.unterminated.bytes = 0 := rfl
    rw [returns_iff_parse, hcount]
    simp [cInt, ConfigFile.pdevs, Sample.unterminated, Line.pdev]
  · have hcount : countLines none Sample.longComment.bytes = 1 := by
      rw [ConfigFile.countLines_bytes]
      rfl
    have hone : (cInt (1 : Nat)).toNat = 1 := rfl
    have hhead : (cstr (35 :: List.replicate 98 45)).head? = some 35 := rfl
    rw [returns_iff_parse, hcount, hone, Sample.longComment_pieces, parse, if_pos hhead]
    intro h
    cases h

end Netdev.Daemon
