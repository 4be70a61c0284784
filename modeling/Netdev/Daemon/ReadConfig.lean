-- SUMMARY: Both loops of `read_config`: counting with two `fscanf`, parsing, and why they end.
import Netdev.Daemon.Config

/-!
# The loops of `read_config`

The counting loop takes a record from the file with two calls of `fscanf`. The parsing loop
has no test for the end of the file: all that ends it is the number of records, and so every
record that is counted has to give it a line that is no comment.
-/

namespace Netdev.Daemon
open Base

/-- `fscanf(fp, "%c%*[^\n]", &c)`: the character `c`, and what is left of the file. -/
def scanRecord (c : UInt8) : Bytes → UInt8 × Bytes
  | [] => (c, [])
  | b :: file => (b, file.dropWhile (· ≠ 10))

/-- `fscanf(fp, "%*c")`: what is left of the file; `none` is `EOF`. -/
def skipChar : Bytes → Option Bytes
  | [] => none
  | _ :: file => some file

/-- The state of `read_config` at the head of one of its loops. -/
inductive ReadConfig where
  /-- What is left of the file, `c` and `*count`. -/
  | counting (rest : Bytes) (c : UInt8) (count : Int)
  | parsing (count : Int) (r : Reading)

namespace ReadConfig

/-- One turn of the loop; the first loop ends with `rewind`. `none` is the end of the second. -/
def turn (file : Bytes) : ReadConfig → Option ReadConfig
  | counting rest c count =>
      let (c, rest) := scanRecord c rest
      match skipChar rest with
      | none => some (.parsing count ⟨file, [], []⟩)
      | some rest => some (.counting rest c (if c ≠ 35 then cInt (count + 1) else count))
  | parsing count r => (r.turn count.toNat).map (.parsing count)

/-- The bytes that are still to be read, with a turn for the end of the first loop. -/
def left (file : Bytes) : ReadConfig → Nat
  | counting rest _ _ => rest.length + file.length + 1
  | parsing _ r => r.file.length

end ReadConfig

/-- `read_config` on this file; `c` is not initialised. -/
def readFile (file : Bytes) : System ReadConfig Unit where
  init s := ∃ c, s = .counting file c 0
  step s _ s' := s.turn file = some s'

/-! ## The counting loop -/

theorem countLines_some (c : UInt8) (file : Bytes) :
    countLines (some c) file =
      match skipChar (file.dropWhile (· ≠ 10)) with
      | none => 0
      | some rest => (if c ≠ 35 then 1 else 0) + countLines none rest := by
  induction file with
  | nil => rfl
  | cons b file ih =>
      by_cases hb : b = 10
      · simp [countLines, hb, skipChar]
      · simp [countLines, hb, ih]

/-- What one turn of the loop counts. -/
theorem countLines_turn (c : UInt8) (file : Bytes) :
    countLines none file =
      match skipChar (scanRecord c file).2 with
      | none => 0
      | some rest => (if (scanRecord c file).1 ≠ 35 then 1 else 0) + countLines none rest := by
  cases file with
  | nil => rfl
  | cons b file => exact countLines_some b file

theorem skipChar_length {c : UInt8} {file rest : Bytes} (h : skipChar (scanRecord c file).2 = some rest) :
    rest.length < file.length := by
  cases file with
  | nil => cases h
  | cons b file =>
      have hle := (List.dropWhile_sublist (l := file) (· ≠ 10)).length_le
      rw [scanRecord] at h
      cases hdrop : file.dropWhile (· ≠ 10) with
      | nil =>
          rw [hdrop] at h
          cases h
      | cons d rest' =>
          rw [hdrop] at h hle
          cases h
          exact Nat.lt_succ_of_lt hle

/-! ## What `fgets` takes -/

/-- The first byte of the record that has begun when a piece is behind it. -/
def behind (st : Option UInt8) (piece : Bytes) : Option UInt8 := if 10 ∈ piece then none else st

/-- Inside a record a piece takes the end of it, and nothing of the next one. -/
theorem countLines_fgets (c : UInt8) (n : Nat) (file : Bytes) :
    countLines (some c) file =
      (if 10 ∈ (fgets n file).1 ∧ c ≠ 35 then 1 else 0) +
        countLines (behind (some c) (fgets n file).1) (fgets n file).2 := by
  induction n generalizing file with
  | zero => simp [fgets, behind]
  | succ n ih =>
      cases file with
      | nil => simp [fgets, behind]
      | cons b file =>
          by_cases hb : b = 10
          · simp [fgets, behind, countLines, hb]
          · have hb' : 10 ≠ b := fun h => hb h.symm
            simpa [fgets, behind, countLines, hb, hb'] using ih file

/-- All that the first byte of a record decides is whether the record counts. -/
theorem countLines_le (c : UInt8) (file : Bytes) :
    countLines (some c) file ≤ 1 + countLines (some 35) file := by
  rw [countLines_some, countLines_some]
  split
  · exact Nat.zero_le _
  · split
    · simp
    · simp

theorem fgets_cons {n : Nat} {b : UInt8} {file : Bytes} (hb : b ≠ 10) :
    fgets (n + 1) (b :: file) = (b :: (fgets n file).1, (fgets n file).2) := by
  simp [fgets, hb]

theorem fgets_rest (n : Nat) (file : Bytes) : (fgets n file).2.length ≤ file.length := by
  induction n generalizing file with
  | zero => simp [fgets]
  | succ n ih =>
      cases file with
      | nil => simp [fgets]
      | cons b file =>
          by_cases hb : b = 10
          · simp [fgets, hb]
          · rw [fgets_cons hb]
            exact (ih file).trans (Nat.le_succ _)

theorem fgets_rest_lt {n : Nat} {file : Bytes} (hfile : file ≠ []) :
    (fgets (n + 1) file).2.length < file.length := by
  cases file with
  | nil => contradiction
  | cons b file =>
      by_cases hb : b = 10
      · simp [fgets, hb]
      · rw [fgets_cons hb]
        exact Nat.lt_succ_of_le (fgets_rest n file)

/-! ## The parsing loop -/

namespace Reading
variable {r r' : Reading} {count : Nat}

theorem next_eq (hfile : r.file ≠ []) :
    r.next = ⟨(fgets 99 r.file).2, (fgets 99 r.file).1.takeWhile (· ≠ 0), r.pdevs⟩ := by
  simp [next, hfile]

/-- What a turn does: it skips a comment, or scans an entry. -/
theorem turn_cases (h : r.turn count = some r') :
    r.pdevs.length < count ∧
      (r.next.line.head? = some 35 ∧ r' = r.next ∨
        r.next.line.head? ≠ some 35 ∧
          ∃ pdev, ProxyDev.scan r.next.line = some pdev ∧ r' = { r.next with pdevs := r.pdevs ++ [pdev] }) := by
  unfold turn at h
  split at h
  · rename_i hlt
    refine ⟨hlt, ?_⟩
    dsimp only at h
    split at h
    · rename_i hhead
      cases h
      exact .inl ⟨hhead, rfl⟩
    · rename_i hhead
      obtain ⟨pdev, hscan, rfl⟩ := Option.map_eq_some_iff.mp h
      exact .inr ⟨hhead, pdev, hscan, by rw [next_pdevs]⟩
  · cases h

/-- The loop ends by its condition or by `break`. -/
theorem turn_eq_none (h : r.turn count = none) :
    count ≤ r.pdevs.length ∨
      r.pdevs.length < count ∧ r.next.line.head? ≠ some 35 ∧ ProxyDev.scan r.next.line = none := by
  unfold turn at h
  split at h
  · rename_i hlt
    dsimp only at h
    split at h
    · cases h
    · rename_i hhead
      exact .inr ⟨hlt, hhead, Option.map_eq_none_iff.mp h⟩
  · rename_i hle
    exact .inl (Nat.le_of_not_lt hle)

/-- The rest of the file has a record for every entry that is still to come. The loop stands
before a record, or inside one that is a comment or has given its entry. -/
structure Owed (count : Nat) (r : Reading) : Prop where
  pdevs : r.pdevs.length ≤ count
  records : ∃ st, (st = none ∨ st = some 35) ∧ count ≤ r.pdevs.length + countLines st r.file

namespace Owed

theorem start {file : Bytes} (h : count ≤ countLines none file) : Owed count ⟨file, [], []⟩ where
  pdevs := Nat.zero_le _
  records := ⟨none, .inl rfl, by simpa using h⟩

/-- `fgets` is not called at the end of the file. -/
theorem file_ne_nil (h : r.Owed count) (hlt : r.pdevs.length < count) : r.file ≠ [] := by
  intro hfile
  obtain ⟨st, -, hle⟩ := h.records
  have hzero : countLines st r.file = 0 := by
    rw [hfile]
    cases st with
    | none => rfl
    | some c => rfl
  omega

/-- Where the loop stands behind a piece of a record that is owed nothing. -/
theorem inside (n : Nat) (file : Bytes) :
    ∃ st, (st = none ∨ st = some 35) ∧ countLines (some 35) file = countLines st (fgets n file).2 := by
  refine ⟨behind (some 35) (fgets n file).1, ?_, ?_⟩
  · unfold behind
    split
    · exact .inl rfl
    · exact .inr rfl
  · rw [countLines_fgets 35 n file]
    simp

/-- A piece of a comment takes no record that counts. -/
theorem comment {st : Option UInt8} {file : Bytes} (hst : st = none ∨ st = some 35)
    (hhead : ((fgets 99 file).1.takeWhile (· ≠ 0)).head? = some 35) :
    ∃ st', (st' = none ∨ st' = some 35) ∧ countLines st file = countLines st' (fgets 99 file).2 := by
  cases hst with
  | inr hst =>
      subst hst
      exact inside 99 file
  | inl hst =>
      subst hst
      cases file with
      | nil => simp [fgets] at hhead
      | cons b file =>
          by_cases hb : b = 10
          · subst hb
            simp [fgets] at hhead
          · rw [fgets_cons hb] at hhead ⊢
            have h35 : b = 35 := by
              by_cases hz : b = 0
              · simp [hz] at hhead
              · simpa [hz] using hhead
            subst h35
            exact inside 98 file

/-- A piece that is an entry takes at most one record. -/
theorem entry {st : Option UInt8} {file : Bytes} {pdev : ProxyDev} (hst : st = none ∨ st = some 35)
    (hscan : ProxyDev.scan ((fgets 99 file).1.takeWhile (· ≠ 0)) = some pdev) :
    ∃ st', (st' = none ∨ st' = some 35) ∧ countLines st file ≤ 1 + countLines st' (fgets 99 file).2 := by
  cases hst with
  | inr hst =>
      subst hst
      obtain ⟨st', hst', heq⟩ := inside 99 file
      exact ⟨st', hst', heq ▸ Nat.le_add_left ..⟩
  | inl hst =>
      subst hst
      cases file with
      | nil => cases hscan
      | cons b file =>
          by_cases hb : b = 10
          · -- a line that is empty does not scan
            subst hb
            cases hscan
          · rw [fgets_cons hb]
            obtain ⟨st', hst', heq⟩ := inside 98 file
            exact ⟨st', hst', heq ▸ countLines_le b file⟩

theorem turn (h : r.Owed count) (hturn : r.turn count = some r') : r'.Owed count := by
  obtain ⟨hlt, hcases⟩ := turn_cases hturn
  have hnext := next_eq (h.file_ne_nil hlt)
  obtain ⟨st, hst, hle⟩ := h.records
  rw [hnext] at hcases
  cases hcases with
  | inl hcomment =>
      obtain ⟨hhead, rfl⟩ := hcomment
      obtain ⟨st', hst', heq⟩ := comment hst hhead
      exact ⟨h.pdevs, st', hst', heq ▸ hle⟩
  | inr hentry =>
      obtain ⟨-, pdev, hscan, rfl⟩ := hentry
      obtain ⟨st', hst', hone⟩ := entry hst hscan
      refine ⟨?_, st', hst', ?_⟩
      · simp only [List.length_append, List.length_singleton]
        omega
      · simp only [List.length_append, List.length_singleton]
        omega

end Owed

end Reading

namespace ReadConfig
variable {file : Bytes} {s s' : ReadConfig}

/-- What holds at the head of the loops. -/
def Counted (file : Bytes) : ReadConfig → Prop
  | counting rest _ count => ∃ k : Nat, count = cInt k ∧ k + countLines none rest = countLines none file
  | parsing count r => count = cInt (countLines none file) ∧ r.Owed count.toNat

theorem toNat_cInt_le (n : Nat) : (cInt n).toNat ≤ n := by
  unfold cInt
  rw [Int.bmod_def]
  split
  · omega
  · omega

theorem cInt_succ (k : Nat) : cInt (cInt k + 1) = cInt (k + 1 : Nat) := by
  unfold cInt
  push_cast
  rw [Int.bmod_add_bmod]

/-- What a turn of the first loop does. -/
theorem turn_counting {rest : Bytes} {c : UInt8} {count : Int} (h : turn file (.counting rest c count) = some s') :
    skipChar (scanRecord c rest).2 = none ∧ s' = .parsing count ⟨file, [], []⟩ ∨
      ∃ rest', skipChar (scanRecord c rest).2 = some rest' ∧
        s' = .counting rest' (scanRecord c rest).1
          (if (scanRecord c rest).1 ≠ 35 then cInt (count + 1) else count) := by
  unfold turn at h
  dsimp only at h
  split at h
  · rename_i hskip
    cases h
    exact .inl ⟨hskip, rfl⟩
  · rename_i rest' hskip
    cases h
    exact .inr ⟨rest', hskip, rfl⟩

theorem turn_parsing {count : Int} {r : Reading} (h : turn file (.parsing count r) = some s') :
    ∃ r', r.turn count.toNat = some r' ∧ s' = .parsing count r' := by
  rw [turn] at h
  obtain ⟨r', hr, rfl⟩ := Option.map_eq_some_iff.mp h
  exact ⟨r', hr, rfl⟩

theorem Counted.turn (h : s.Counted file) (hturn : s.turn file = some s') : s'.Counted file := by
  cases s with
  | parsing count r =>
      obtain ⟨r', hr, rfl⟩ := turn_parsing hturn
      obtain ⟨hcount, howed⟩ := h
      exact ⟨hcount, howed.turn hr⟩
  | counting rest c count =>
      obtain ⟨k, hcount, hk⟩ := h
      rw [countLines_turn c rest] at hk
      obtain ⟨hskip, rfl⟩ | ⟨rest', hskip, rfl⟩ := turn_counting hturn
      · rw [hskip] at hk
        have hall : count = cInt (countLines none file) := hk ▸ hcount
        exact ⟨hall, .start (hall ▸ toNat_cInt_le _)⟩
      · rw [hskip] at hk
        dsimp only at hk
        by_cases hc : (scanRecord c rest).1 ≠ 35
        · rw [if_pos hc] at hk
          refine ⟨k + 1, ?_, (Nat.add_assoc ..).trans hk⟩
          rw [if_pos hc, hcount, cInt_succ]
        · rw [if_neg hc, Nat.zero_add] at hk
          refine ⟨k, ?_, hk⟩
          rw [if_neg hc, hcount]

theorem counted (file : Bytes) : (readFile file).Invariant (Counted file) where
  init := by
    rintro _ ⟨c, rfl⟩
    refine ⟨0, ?_, Nat.zero_add _⟩
    simp [cInt]
  step := by
    intro s _ s' hs hstep
    exact hs.turn hstep

/-- Every turn reads something. -/
theorem left_lt (h : s.Counted file) (hturn : s.turn file = some s') : s'.left file < s.left file := by
  cases s with
  | parsing count r =>
      obtain ⟨r', hr, rfl⟩ := turn_parsing hturn
      obtain ⟨hlt, hcases⟩ := Reading.turn_cases hr
      have hfile := h.2.file_ne_nil hlt
      have hlen : r'.file.length = (fgets 99 r.file).2.length := by
        rw [Reading.next_eq hfile] at hcases
        obtain ⟨-, rfl⟩ | ⟨-, pdev, -, rfl⟩ := hcases
        · rfl
        · rfl
      exact hlen.trans_lt (fgets_rest_lt hfile)
  | counting rest c count =>
      obtain ⟨-, rfl⟩ | ⟨rest', hskip, rfl⟩ := turn_counting hturn
      · simp only [left]
        omega
      · have hlt := skipChar_length hskip
        simp only [left]
        omega

/-- The loops are left from every state that is reached. -/
theorem run_ends {ls : List Unit} (hrun : (readFile file).Run ls s) :
    ∃ ls' count r, (readFile file).Run (ls ++ ls') (.parsing count r) ∧ turn file (.parsing count r) = none := by
  obtain ⟨ls', s', hrun', hend⟩ := hrun.ends (counted file) fun _ _ _ hI hstep => left_lt hI hstep
  have hnone : s'.turn file = none := Option.eq_none_iff_forall_ne_some.mpr fun s'' => hend () s''
  cases s' with
  | parsing count r => exact ⟨ls', count, r, hrun', hnone⟩
  | counting rest c count =>
      unfold turn at hnone
      dsimp only at hnone
      split at hnone
      · cases hnone
      · cases hnone

/-- The second loop is left by its condition, as all entries are there, or by `break`. -/
def Left (count : Int) (r : Reading) : Prop :=
  (r.pdevs.length : Int) = max count 0 ∨ r.next.line.head? ≠ some 35 ∧ ProxyDev.scan r.next.line = none

/-- `read_config` ends. -/
structure Ends (file : Bytes) : Prop where
  /-- The turns of the two loops together. -/
  bounded : ∀ ls s, (readFile file).Run ls s → ls.length ≤ 2 * file.length + 1
  /-- Both loops are left, whatever has been read. -/
  ends : ∀ ls s, (readFile file).Run ls s →
    ∃ ls' count r, (readFile file).Run (ls ++ ls') (.parsing count r) ∧ turn file (.parsing count r) = none
  /-- `fgets` is not called at the end of the file. -/
  reads : ∀ ls count r, (readFile file).Run ls (.parsing count r) → r.pdevs.length < count → r.file ≠ []
  leaves : ∀ ls count r, (readFile file).Run ls (.parsing count r) →
    turn file (.parsing count r) = none → Left count r

/-- The loops of `read_config` end on every file. -/
theorem readFile_ends (file : Bytes) : Ends file where
  bounded := by
    intro ls s hrun
    have hinit (s : ReadConfig) (hs : (readFile file).init s) : s.left file ≤ 2 * file.length + 1 := by
      obtain ⟨c, rfl⟩ := hs
      simp only [left]
      omega
    have hle := hrun.length_le (counted file) hinit fun _ _ _ hI hstep => left_lt hI hstep
    omega
  ends := by
    intro ls s hrun
    exact run_ends hrun
  reads := by
    intro ls count r hrun hlt
    exact (hrun.invariant (counted file)).2.file_ne_nil (by omega)
  leaves := by
    intro ls count r hrun hnone
    have howed := (hrun.invariant (counted file)).2
    obtain hle | ⟨-, hbreak⟩ := Reading.turn_eq_none (Option.map_eq_none_iff.mp hnone)
    · have heq := Nat.le_antisymm howed.pdevs hle
      exact .inl (by omega)
    · exact .inr hbreak

end ReadConfig

end Netdev.Daemon
