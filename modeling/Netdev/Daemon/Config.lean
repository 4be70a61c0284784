-- SUMMARY: The configuration file: how `read_config` counts its lines, reads them, and scans their fields.
import Mathlib.Data.List.TakeWhile
import Netdev.Base.Layout
import Netdev.Base.System

/-!
# The configuration file

`read_config` counts the lines that are no comments, and then reads and scans lines until it
has as many entries, or one does not scan. At the end of the file `fgets` leaves the old line
in the buffer.
-/

namespace Netdev.Daemon
open Base

/-- Size in bytes of the buffers for the strings of an entry. -/
def NETDEV_MAX_STRING : Nat := 20

/-! ## `sscanf` -/

/-- `%20[^;]`: the string, and what is left of the input. -/
def scanString (s : Bytes) : Option (Bytes × Bytes) :=
  match (s.takeWhile (· ≠ 59)).take 20 with
  | [] => none
  | f => some (f, s.drop f.length)

/-- A `;` of the format. -/
def scanSemicolon : Bytes → Option Bytes
  | 59 :: s => some s
  | _ => none

/-- `n` times `%20[^;];`: the strings that are stored, and what is left when all are there. -/
def scanStrings : Nat → Bytes → List Bytes × Option Bytes
  | 0, s => ([], some s)
  | n + 1, s =>
      match scanString s with
      | none => ([], none)
      | some (f, s) =>
          match scanSemicolon s with
          | none => ([f], none)
          | some s =>
              let (fs, rest) := scanStrings n s
              (f :: fs, rest)

def isSpace (c : UInt8) : Bool := c = 32 || 9 ≤ c && c ≤ 13

def isDigit (c : UInt8) : Bool := 48 ≤ c && c ≤ 57

/-- A number without its sign. -/
def scanDigits (s : Bytes) : Option Int :=
  match s.takeWhile isDigit with
  | [] => none
  | ds => some (ds.foldl (fun n d => 10 * n + (d.toNat - 48)) 0)

/-- `%d`: read as a `long`, and stored as an `int`. -/
def scanInt (s : Bytes) : Option Int :=
  let n := match s.dropWhile isSpace with
    | 45 :: s => (scanDigits s).map fun n => -n
    | 43 :: s => scanDigits s
    | s => scanDigits s
  n.map fun n => cInt (max (-2 ^ 63) (min n (2 ^ 63 - 1)))

/-- `sscanf` with the format of `read_config`: the strings and the number that it stores. -/
def sscanf (line : Bytes) : List Bytes × Option Int :=
  let (strings, rest) := scanStrings 3 line
  (strings, rest.bind scanInt)

/-! ## `read_config` -/

/-- The fields of `struct proxy_dev` that are read from the file. -/
structure ProxyDev where
  remoteDevName : Bytes
  dummyDevName : Bytes
  rmIpaddr : Bytes
  rmPortaddr : Int
  deriving DecidableEq

/-- An entry is accepted when `sscanf` returns 4. -/
def ProxyDev.scan (line : Bytes) : Option ProxyDev :=
  match sscanf line with
  | ([remoteDevName, dummyDevName, rmIpaddr], some rmPortaddr) =>
      some ⟨remoteDevName, dummyDevName, rmIpaddr, rmPortaddr⟩
  | _ => none

/-- The loop that counts entries; `c` is the first character of a line that has begun. What
does not end in a newline is not counted, and an empty line is one with the line after it. -/
def countLines : Option UInt8 → Bytes → Nat
  | _, [] => 0
  | none, b :: file => countLines (some b) file
  | some c, b :: file =>
      if b = 10 then
        (if c ≠ 35 then 1 else 0) + countLines none file
      else
        countLines (some c) file

/-- `fgets` into a buffer with room for `n` characters and a null: the line, and what is left
of the file. -/
def fgets : Nat → Bytes → Bytes × Bytes
  | 0, file => ([], file)
  | _ + 1, [] => ([], [])
  | n + 1, b :: file =>
      if b = 10 then
        ([b], file)
      else
        let (line, rest) := fgets n file
        (b :: line, rest)

/-- The state at the head of the second loop: the rest of the file, the string in the buffer,
and the entries so far. -/
structure Reading where
  file : Bytes
  line : Bytes
  pdevs : List ProxyDev

namespace Reading

/-- `fgets` into the buffer of 100 characters. -/
def next (r : Reading) : Reading :=
  if r.file = [] then
    r
  else
    let (line, file) := fgets 99 r.file
    { r with file, line := line.takeWhile (· ≠ 0) }

/-- One turn of the loop; `none` is its end. The allocations for an entry are not checked, and
are taken to succeed. -/
def turn (count : Nat) (r : Reading) : Option Reading :=
  if r.pdevs.length < count then
    let r := r.next
    if r.line.head? = some 35 then
      some r
    else
      (ProxyDev.scan r.line).map fun pdev => { r with pdevs := r.pdevs ++ [pdev] }
  else
    none

end Reading

/-- The loop of `read_config` over this file. -/
def readConfig (file : Bytes) : System Reading Unit where
  init r := r = ⟨file, [], []⟩
  step r _ r' := r.turn (countLines none file) = some r'

/-- `read_config` returns this entry, among others. -/
def Accepts (file : Bytes) (pdev : ProxyDev) : Prop :=
  ∃ ls r, (readConfig file).Run ls r ∧ r.turn (countLines none file) = none ∧ pdev ∈ r.pdevs

/-! ## What is accepted -/

/-- A string that `%20[^;]` has stored, up to the null. -/
structure Scanned (s : Bytes) : Prop where
  nonempty : s ≠ []
  width : s.length ≤ 20
  noNull : 0 ∉ s

theorem scanString_scanned {s f rest : Bytes} (hs : 0 ∉ s) (h : scanString s = some (f, rest)) :
    Scanned f ∧ 0 ∉ rest := by
  unfold scanString at h
  split at h
  · cases h
  · rename_i hf
    cases h
    refine ⟨⟨hf, ?_, ?_⟩, ?_⟩
    · simp
    · intro hmem
      exact hs ((List.takeWhile_sublist _).subset ((List.take_sublist ..).subset hmem))
    · intro hmem
      exact hs ((List.drop_sublist ..).subset hmem)

theorem scanSemicolon_noNull {s rest : Bytes} (hs : 0 ∉ s) (h : scanSemicolon s = some rest) : 0 ∉ rest := by
  unfold scanSemicolon at h
  split at h
  · cases h
    intro hmem
    exact hs (.tail _ hmem)
  · cases h

theorem scanStrings_scanned {n : Nat} {s : Bytes} (hs : 0 ∉ s) : ∀ f ∈ (scanStrings n s).1, Scanned f := by
  induction n generalizing s with
  | zero => simp [scanStrings]
  | succ n ih =>
      unfold scanStrings
      cases hstring : scanString s with
      | none => simp
      | some p =>
          obtain ⟨hf, hrest⟩ := scanString_scanned hs hstring
          cases hsemi : scanSemicolon p.2 with
          | none => simp [hsemi, hf]
          | some rest =>
              have hfs := ih (scanSemicolon_noNull hrest hsemi)
              simp only [hsemi, List.forall_mem_cons]
              exact ⟨hf, hfs⟩

namespace ProxyDev

/-- The strings of an entry, in the order of the format. -/
def strings (pdev : ProxyDev) : List Bytes := [pdev.remoteDevName, pdev.dummyDevName, pdev.rmIpaddr]

theorem scan_scanned {line : Bytes} {pdev : ProxyDev} (hline : 0 ∉ line) (h : scan line = some pdev) :
    ∀ s ∈ pdev.strings, Scanned s := by
  unfold scan at h
  split at h
  · rename_i hscan
    cases h
    have hstrings := @scanStrings_scanned 3 line hline
    have hfst := congrArg Prod.fst hscan
    dsimp only [sscanf] at hfst
    rw [hfst] at hstrings
    exact hstrings
  · cases h

end ProxyDev

theorem Reading.next_noNull {r : Reading} (h : 0 ∉ r.line) : 0 ∉ r.next.line := by
  unfold next
  split
  · exact h
  · intro hmem
    have hne := List.mem_takeWhile_imp hmem
    simp at hne

/-- What is kept while the file is read. -/
structure Reading.Valid (r : Reading) : Prop where
  line : 0 ∉ r.line
  pdevs : ∀ pdev ∈ r.pdevs, ∀ s ∈ pdev.strings, Scanned s

theorem Reading.next_pdevs (r : Reading) : r.next.pdevs = r.pdevs := by
  unfold next
  split
  · rfl
  · rfl

theorem Reading.Valid.turn {r r' : Reading} {count : Nat} (hr : r.Valid) (h : r.turn count = some r') :
    r'.Valid := by
  have hline := next_noNull hr.line
  have hpdevs := r.next_pdevs ▸ hr.pdevs
  unfold Reading.turn at h
  split at h
  · dsimp only at h
    split at h
    · cases h
      exact ⟨hline, hpdevs⟩
    · obtain ⟨pdev, hscan, rfl⟩ := Option.map_eq_some_iff.mp h
      refine ⟨hline, ?_⟩
      simp only [List.forall_mem_append, List.forall_mem_singleton]
      exact ⟨hpdevs, ProxyDev.scan_scanned hline hscan⟩
  · cases h

theorem readConfig_valid (file : Bytes) : (readConfig file).Invariant Reading.Valid where
  init := by
    rintro _ rfl
    exact ⟨List.not_mem_nil, nofun⟩
  step := by
    intro r _ r' hr hstep
    exact hr.turn hstep

/-- The strings of an accepted entry have one to twenty characters. -/
theorem Accepts.scanned {file : Bytes} {pdev : ProxyDev} (h : Accepts file pdev) :
    ∀ s ∈ pdev.strings, Scanned s := by
  obtain ⟨ls, r, hrun, -, hmem⟩ := h
  exact (hrun.invariant (readConfig_valid file)).pdevs pdev hmem

end Netdev.Daemon
