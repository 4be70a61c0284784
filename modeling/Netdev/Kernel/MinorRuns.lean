-- SUMMARY: Runs of `ndmgm_get_minor`, `ndmgm_put_minor` and `ndmgm_find_pid`: when a free minor is found, and when they stay in the table.
import Netdev.Base.System
import Netdev.Kernel.Directory

/-!
# Minors over runs

The search of `ndmgm_get_minor` ends one entry above the mark `netdev_max_minor`. It
finds every free minor as long as the mark is not below a minor in use. The loop with
which `ndmgm_put_minor` lowers the mark does not stop at the first minor in use but goes
on to the lowest one. And the search does not stop at the end of the table.
-/

namespace Netdev.Kernel
open Base Registry

/-! ## The search and the mark -/

namespace Minors
variable {m m' : Minors} {pid : Int32} {minor i : Nat}

/-- The entry has the pid of a daemon. -/
def InUse (m : Minors) (i : Nat) : Prop := ∃ pid, m.used[i]? = some pid ∧ pid ≠ -1

/-- The mark is not below a minor in use. -/
def Covers (m : Minors) : Prop := ∀ i, m.InUse i → i ≤ m.max

theorem InUse.lt (h : m.InUse i) : i < NETDEV_MAX_DEVICES := by
  obtain ⟨pid, hused, -⟩ := h
  exact lt_of_used hused

theorem not_inUse_of_free (hfree : m.used[i]? = some (-1)) : ¬ m.InUse i := by
  rintro ⟨pid, hused, hpid⟩
  exact hpid (Option.some.inj (hused.symm.trans hfree))

theorem free_of_not_inUse (hi : i < NETDEV_MAX_DEVICES) (h : ¬ m.InUse i) : m.used[i]? = some (-1) := by
  obtain ⟨pid, -, hused⟩ := @read_ok m i hi
  rw [hused]
  refine congrArg some (Classical.byContradiction fun hpid => ?_)
  exact h ⟨pid, hused, hpid⟩

/-- Every entry that the search passes is in use. -/
theorem search_first {n : Nat} {o : Option Nat} (h : m.search pid n i = .ok (o, m')) :
    (o = none → ∀ j, i ≤ j → j < i + n → m.InUse j) ∧
      ∀ k, o = some k → ∀ j, i ≤ j → j < k → m.InUse j := by
  induction n generalizing i with
  | zero =>
      obtain ⟨rfl, -⟩ := Prod.mk.inj (Except.ok.inj h)
      refine ⟨fun _ j hle hlt => ?_, fun k hk => (by cases hk)⟩
      exact absurd hlt (Nat.not_lt.mpr hle)
  | succ n ih =>
      cases hused : m.used[i]? with
      | none =>
          rw [search, read, hused] at h
          cases h
      | some owner =>
          rw [search_succ hused] at h
          by_cases hfree : owner = -1
          · rw [if_pos hfree] at h
            obtain ⟨m₁, -, hrest⟩ := Mem.bind_eq_ok h
            obtain ⟨rfl, -⟩ := Prod.mk.inj (Except.ok.inj hrest)
            refine ⟨fun hnone => (by cases hnone), fun k hk j hle hlt => ?_⟩
            obtain rfl := Option.some.inj hk
            exact absurd hlt (Nat.not_lt.mpr hle)
          · rw [if_neg hfree] at h
            obtain ⟨hnone, hsome⟩ := ih h
            refine ⟨fun ho j hle hlt => ?_, fun k hk j hle hlt => ?_⟩
            · rcases Nat.eq_or_lt_of_le hle with rfl | hgt
              · exact ⟨owner, hused, hfree⟩
              · exact hnone ho j hgt (by omega)
            · rcases Nat.eq_or_lt_of_le hle with rfl | hgt
              · exact ⟨owner, hused, hfree⟩
              · exact hsome k hk j hgt hlt

theorem get_first {o : Option Nat} (h : m.get pid = .ok (o, m')) :
    (o = none → ∀ j < m.max + 2, m.InUse j) ∧ ∀ k, o = some k → ∀ j < k, m.InUse j := by
  obtain ⟨⟨o₁, m₁⟩, hsearch, hrest⟩ := Mem.bind_eq_ok h
  obtain ⟨hnone, hsome⟩ := search_first hsearch
  cases o₁ with
  | none =>
      obtain ⟨rfl, -⟩ := Prod.mk.inj (Except.ok.inj hrest)
      refine ⟨fun _ j hlt => hnone rfl j (Nat.zero_le j) ?_, fun k hk => (by cases hk)⟩
      exact (Nat.zero_add (m.max + 2)).symm ▸ hlt
  | some k =>
      obtain ⟨rfl, -⟩ := Prod.mk.inj (Except.ok.inj hrest)
      exact ⟨fun hnone => (by cases hnone), fun k hk j hlt => hsome k hk j (Nat.zero_le j) hlt⟩

/-- A minor is taken with a pid that is not -1. -/
theorem inUse_of_taken (h : Taken m m' pid minor) (hpid : pid ≠ -1) :
    m'.InUse i ↔ i = minor ∨ m.InUse i := by
  unfold InUse
  rw [h.used, List.getElem?_set]
  by_cases heq : minor = i
  · subst heq
    have hlt : minor < m.used.length := (List.getElem?_eq_some_iff.mp h.free).1
    rw [if_pos rfl, if_pos hlt]
    exact iff_of_true ⟨pid, rfl, hpid⟩ (.inl rfl)
  · rw [if_neg heq]
    exact ⟨.inr, fun h => h.resolve_left (Ne.symm heq)⟩

/-- The loop of `ndmgm_put_minor` ends at the lowest minor in use, if there is one. -/
theorem lower_mark (h : m.lower i = .ok m') : m'.used = m.used ∧
    ((m'.max = m.max ∧ ∀ j, 0 < j → j ≤ i → ¬ m.InUse j) ∨
      (0 < m'.max ∧ m'.max ≤ i ∧ m.InUse m'.max ∧ ∀ j, 0 < j → j < m'.max → ¬ m.InUse j)) := by
  induction i generalizing m with
  | zero =>
      obtain rfl := Except.ok.inj h
      exact ⟨rfl, .inl ⟨rfl, fun j hpos hle => absurd hle (Nat.not_le.mpr hpos)⟩⟩
  | succ i ih =>
      unfold lower at h
      obtain ⟨owner, hread, hrest⟩ := Mem.bind_eq_ok h
      have hused : m.used[i + 1]? = some owner := by
        unfold read at hread
        cases hentry : m.used[i + 1]? with
        | none =>
            rw [hentry] at hread
            cases hread
        | some pid =>
            rw [hentry] at hread
            exact congrArg some (Except.ok.inj hread)
      by_cases howner : owner ≠ -1
      · rw [if_pos howner] at hrest
        -- the entry is in use; what the loop finds below it is in use in both tables
        obtain ⟨hsame, hrest⟩ := ih hrest
        refine ⟨hsame, ?_⟩
        rcases hrest with ⟨hmax, hfree⟩ | ⟨hpos, hle, huse, hfree⟩
        · have hmark : m'.max = i + 1 := hmax
          rw [hmark]
          refine .inr ⟨Nat.succ_pos i, Nat.le_refl _, ⟨owner, hused, howner⟩, fun j hpos hlt => ?_⟩
          exact hfree j hpos (Nat.lt_succ_iff.mp hlt)
        · exact .inr ⟨hpos, Nat.le_succ_of_le hle, huse, hfree⟩
      · rw [if_neg howner] at hrest
        have hfree_i : ¬ m.InUse (i + 1) := not_inUse_of_free (hused.trans (congrArg some (not_not.mp howner)))
        obtain ⟨hsame, hrest⟩ := ih hrest
        refine ⟨hsame, ?_⟩
        rcases hrest with ⟨hmax, hfree⟩ | ⟨hpos, hle, huse, hfree⟩
        · refine .inl ⟨hmax, fun j hpos hle => ?_⟩
          rcases Nat.le_succ_iff.mp hle with hle | rfl
          · exact hfree j hpos hle
          · exact hfree_i
        · exact .inr ⟨hpos, Nat.le_succ_of_le hle, huse, hfree⟩

/-- At most one minor is in use between 0 and the mark when the one at the mark is put. -/
def Lowers (m : Minors) (minor : Nat) : Prop :=
  minor = m.max → ∀ i j, 0 < i → i < j → j < minor → m.InUse i → ¬ m.InUse j

theorem inUse_of_put (hminor : minor < NETDEV_MAX_DEVICES) (hused : m'.used = m.used.set minor (-1)) :
    m'.InUse i ↔ m.InUse i ∧ i ≠ minor := by
  unfold InUse
  rw [hused, List.getElem?_set]
  by_cases heq : minor = i
  · subst heq
    have hlt : minor < m.used.length := m.length.symm ▸ hminor
    rw [if_pos rfl, if_pos hlt]
    refine iff_of_false ?_ fun h => h.2 rfl
    rintro ⟨pid, hpid, hne⟩
    exact hne (Option.some.inj hpid).symm
  · rw [if_neg heq]
    exact (and_iff_left (Ne.symm heq)).symm

/-- What `ndmgm_put_minor` makes of the mark. -/
theorem put_mark (hminor : minor < NETDEV_MAX_DEVICES) (h : m.put minor = .ok m') :
    m'.used = m.used.set minor (-1) ∧ (minor ≠ m.max → m'.max = m.max) ∧ (minor = m.max →
      (m'.max = m.max ∧ ∀ j, 0 < j → j ≤ minor → ¬ m'.InUse j) ∨
        (0 < m'.max ∧ m'.max ≤ minor ∧ m'.InUse m'.max ∧ ∀ j, 0 < j → j < m'.max → ¬ m'.InUse j)) := by
  obtain ⟨m₁, hwrite, hset, hmax⟩ := @write_ok m (-1) minor hminor
  unfold put at h
  rw [hwrite, Mem.bind_ok, hmax] at h
  by_cases hlast : minor = m.max
  · rw [if_pos hlast] at h
    obtain ⟨hsame, hmark⟩ := lower_mark h
    refine ⟨hsame.trans hset, fun hne => absurd hlast hne, fun _ => ?_⟩
    rw [hmax] at hmark
    unfold InUse at hmark ⊢
    rw [hsame]
    exact hmark
  · rw [if_neg hlast] at h
    obtain rfl := Except.ok.inj h
    exact ⟨hset, fun _ => hmax, fun heq => absurd heq hlast⟩

/-- After a put the mark covers the minors in use exactly when at most one of them was
between 0 and a mark that is put. -/
theorem put_covers (hcovers : m.Covers) (hminor : minor < NETDEV_MAX_DEVICES)
    (h : m.put minor = .ok m') : m'.Covers ↔ m.Lowers minor := by
  obtain ⟨hused, hkept, hlast⟩ := put_mark hminor h
  have huse : ∀ i, m'.InUse i ↔ m.InUse i ∧ i ≠ minor := fun i => inUse_of_put hminor hused
  by_cases heq : minor = m.max
  · have hbelow : ∀ i, m'.InUse i → i < minor := by
      intro i hi
      obtain ⟨hi, hne⟩ := (huse i).mp hi
      exact Nat.lt_of_le_of_ne (heq ▸ hcovers i hi) hne
    rcases hlast heq with ⟨hmax, hfree⟩ | ⟨hpos, hle, hmark, hfree⟩
    · refine iff_of_true (fun i hi => ?_) fun _ i j hi hij hj huse_i => ?_
      · rw [hmax, ← heq]
        exact Nat.le_of_lt (hbelow i hi)
      · intro huse_j
        exact hfree j (by omega) (by omega) ((huse j).mpr ⟨huse_j, by omega⟩)
    · have hlt := hbelow _ hmark
      constructor
      · intro hcov _ i j hi hij hj huse_i huse_j
        have hmark_le : m'.max ≤ i := Nat.le_of_not_lt fun hlt_i =>
          hfree i hi hlt_i ((huse i).mpr ⟨huse_i, by omega⟩)
        have hj_le := hcov j ((huse j).mpr ⟨huse_j, by omega⟩)
        omega
      · intro hlowers i hi
        refine Nat.le_of_not_lt fun hgt => ?_
        exact hlowers heq _ i hpos hgt (hbelow i hi) ((huse _).mp hmark).1 ((huse i).mp hi).1
  · refine iff_of_true (fun i hi => ?_) fun heq' => absurd heq' heq
    rw [hkept heq]
    exact hcovers i ((huse i).mp hi).1

end Minors

/-! ## Calls -/

/-- A call on the table of the minors; `free` is false when another thread has its lock. -/
inductive MinorCall where
  | getMinor (free : Bool) (pid : Int32)
  | putMinor (free : Bool) (minor : Nat)
  | findPid (free : Bool) (minor : Nat)

namespace MinorCall

/-- The call, with the minor that it hands out. -/
def run : MinorCall → Ker (Option Nat)
  | .getMinor free pid => ndmgmGetMinor free pid
  | .putMinor free minor => do
      ndmgmPutMinor free minor
      return none
  | .findPid free minor => do
      let _ ← ndmgmFindPid free minor
      return none

/-- Whether the trylock meets no other thread. -/
def free : MinorCall → Bool
  | .getMinor free _ => free
  | .putMinor free _ => free
  | .findPid free _ => free

/-- The minor that is put back. -/
def back : MinorCall → List Nat
  | .putMinor _ minor => [minor]
  | _ => []

/-- The index of `ndmgm_put_minor` and `ndmgm_find_pid`. -/
def index : MinorCall → Option Nat
  | .getMinor .. => none
  | .putMinor _ minor => some minor
  | .findPid _ minor => some minor

end MinorCall

/-- The minors that a call has handed out. -/
def handed : Except Halt (Option Nat) → List Nat
  | .ok (some minor) => [minor]
  | _ => []

/-- The registry with the minors that were ever handed out, and those of them that were
not put back since. -/
structure Desk where
  registry : Registry
  given : List Nat
  held : List Nat

namespace Desk

def after (desk : Desk) (call : MinorCall) : Desk :=
  let returned := Ker.call call.run desk.registry
  ⟨returned.2, handed returned.1 ++ desk.given, call.back.foldl List.erase (handed returned.1 ++ desk.held)⟩

/-- Only minors that were handed out are put and looked up. -/
def Gave (desk : Desk) (call : MinorCall) : Prop := ∀ minor, call.index = some minor → minor ∈ desk.given

/-- No other thread has the lock, the owners have positive pids, and only minors that are
held are put and looked up. -/
structure Holds (desk : Desk) (call : MinorCall) : Prop where
  free : call.free = true
  pid : ∀ free pid, call = .getMinor free pid → 0 < pid
  held : ∀ minor, call.index = some minor → minor ∈ desk.held

/-- A search for a minor that gets the lock ends inside the table. -/
def Fits (desk : Desk) : MinorCall → Prop
  | .getMinor free _ => free = true → Sem.minor ∉ desk.registry.stuck →
      ∀ m, desk.registry.minors = some m → m.Fits
  | _ => True

/-- A minor is taken while there is a free one, and the loop of `ndmgm_put_minor` meets at
most one minor in use. -/
structure Spares (desk : Desk) (call : MinorCall) : Prop where
  free : ∀ free pid, call = .getMinor free pid → desk.held.length < NETDEV_MAX_DEVICES
  lowers : ∀ m, desk.registry.minors = some m → ∀ minor ∈ call.back, m.Lowers minor

/-- The mark is not below a minor that is held. -/
def Covers (desk : Desk) : Prop := ∀ m, desk.registry.minors = some m → ∀ i ∈ desk.held, i ≤ m.max

end Desk

def minorCalls (hashMin : UInt32 → Fin 32) (reqs : Requests) : System Desk MinorCall where
  init desk := desk = ⟨.prepare hashMin reqs, [], []⟩
  step desk call desk' := desk' = desk.after call

/-- What a call hands out is a minor of the table, and it has not left the table. -/
def InRange : Except Halt (Option Nat) → Prop
  | .ok (some minor) => minor < NETDEV_MAX_DEVICES
  | .ok none => True
  | .error _ => False

/-! ## What a call does -/

section Calls
variable {reg : Registry} {m : Minors} {desk : Desk} {call : MinorCall}

/-- The registry with another table of the minors. -/
def Registry.setMinors (reg : Registry) (m : Minors) : Registry := { reg with minors := some m }

/-- The ends of the calls, by what they do to the table. -/
inductive MinorCall.Ends (reg : Registry) (m : Minors) : MinorCall → Except Halt (Option Nat) → Registry → Prop where
  | busy {call : MinorCall} (hbusy : ¬ (call.free = true ∧ Sem.minor ∉ reg.stuck)) : Ends reg m call (.ok none) reg
  | got {pid : Int32} {o : Option Nat} {m' : Minors} (hlock : Sem.minor ∉ reg.stuck)
      (hget : m.get pid = .ok (o, m')) : Ends reg m (.getMinor true pid) (.ok o) (reg.setMinors m')
  | outside {pid : Int32} (hlock : Sem.minor ∉ reg.stuck) (hget : ∀ r, m.get pid ≠ .ok r) :
      Ends reg m (.getMinor true pid) (.error .fault) reg
  | put {minor : Nat} {m' : Minors} (hlock : Sem.minor ∉ reg.stuck) (hput : m.put minor = .ok m') :
      Ends reg m (.putMinor true minor) (.ok none) (reg.setMinors m')
  | found {minor : Nat} (hlock : Sem.minor ∉ reg.stuck) : Ends reg m (.findPid true minor) (.ok none) reg

/-- The call ends in one of these ways. -/
def MinorCall.Returns (call : MinorCall) (reg : Registry) (m : Minors) : Prop :=
  Ends reg m call (Ker.call call.run reg).1 (Ker.call call.run reg).2

/-- What a call makes of the minors that were handed out. -/
theorem MinorCall.Returns.after (h : call.Returns desk.registry m) : ∃ r reg,
    Ends desk.registry m call r reg ∧ (Ker.call call.run desk.registry).1 = r ∧
      desk.after call = ⟨reg, handed r ++ desk.given, call.back.foldl List.erase (handed r ++ desk.held)⟩ :=
  ⟨_, _, h, rfl, rfl⟩

theorem getMinor_ends (hm : reg.minors = some m) (hmax : m.max ≠ NETDEV_MAX_DEVICES) (free : Bool) (pid : Int32) :
    (MinorCall.getMinor free pid).Returns reg m := by
  refine Ker.call_of_wp (P := MinorCall.Ends reg m _) ?_
  refine (ndmgmGetMinor_spec (c := ⟨reg, []⟩) free pid).mono fun r c' hgot => ?_
  cases hgot with
  | busy hbusy => exact .busy fun h => hbusy ⟨h.1, List.not_mem_nil, h.2⟩
  | limit hlock hm' hlimit =>
      obtain rfl := Option.some.inj (hm.symm.trans hm')
      exact absurd hlimit hmax
  | dead _ hnone => exact nomatch hm.symm.trans hnone
  | outside hlock hm' _ hget =>
      obtain ⟨rfl, -, hsem⟩ := hlock
      obtain rfl := Option.some.inj (hm.symm.trans hm')
      exact .outside hsem hget
  | got hlock hm' hget =>
      obtain ⟨rfl, -, hsem⟩ := hlock
      obtain rfl := Option.some.inj (hm.symm.trans hm')
      exact .got hsem hget

theorem putMinor_ends (hm : reg.minors = some m) (hbound : m.Bounded) {minor : Nat}
    (hminor : minor < NETDEV_MAX_DEVICES) (free : Bool) :
    (MinorCall.putMinor free minor).Returns reg m := by
  obtain ⟨m', hput, -⟩ := Minors.put_ok hminor hbound
  refine Ker.call_of_wp (P := MinorCall.Ends reg m _) ?_
  refine Exec.wp_bind (R := fun r c' => r = .ok () ∧ MinorCall.Ends reg m (.putMinor free minor)
    (.ok none) { c'.registry with stuck := c'.own ++ c'.registry.stuck }) ?_ ?_ fun e _ he => nomatch he.1
  · refine Ker.wp_downTrylock (fun hfree hsem => ?_) (fun hbusy => ⟨rfl, .busy fun h => ?_⟩)
    · obtain rfl := hfree
      refine Ker.wp_registry (Ker.wp_deref_live hm ?_)
      refine Ker.wp_ofMem_error (fun m₂ hput' => ?_) (fun e he => nomatch hput.symm.trans he)
      exact Ker.wp_modify ⟨rfl, .put hsem.2 hput'⟩
    · exact hbusy ⟨h.1, List.not_mem_nil, h.2⟩
  · rintro a c' ⟨-, hend⟩
    exact hend

theorem findPid_ends (hm : reg.minors = some m) {minor : Nat} (hminor : minor < NETDEV_MAX_DEVICES) (free : Bool) :
    (MinorCall.findPid free minor).Returns reg m := by
  obtain ⟨pid, hread, -⟩ := @Minors.read_ok m minor hminor
  refine Ker.call_of_wp (P := MinorCall.Ends reg m _) ?_
  refine Exec.wp_bind (R := fun r c' => (∃ pid, r = .ok pid) ∧ MinorCall.Ends reg m (.findPid free minor)
    (.ok none) { c'.registry with stuck := c'.own ++ c'.registry.stuck }) ?_ ?_ fun e _ he => nomatch he.1
  · refine Ker.wp_downTrylock (fun hfree hsem => ?_) (fun hbusy => ⟨⟨-1, rfl⟩, .busy fun h => ?_⟩)
    · obtain rfl := hfree
      refine Ker.wp_registry (Ker.wp_deref_live hm ?_)
      refine Ker.wp_ofMem_error (fun pid hpid => ?_) (fun e he => nomatch hread.symm.trans he)
      exact Ker.wp_up ⟨⟨pid, rfl⟩, .found hsem.2⟩
    · exact hbusy ⟨h.1, List.not_mem_nil, h.2⟩
  · rintro a c' ⟨-, hend⟩
    exact hend

end Calls

/-! ## Indices -/

/-- Without a free entry the search ends only where its range does. -/
theorem Minors.search_range {m : Minors} {pid : Int32} {n i : Nat} {r : Option Nat × Minors}
    (hfull : ¬ m.HasFree) (h : m.search pid n i = .ok r) : n = 0 ∨ i + n ≤ NETDEV_MAX_DEVICES := by
  induction n generalizing i with
  | zero => exact .inl rfl
  | succ n ih =>
      cases hused : m.used[i]? with
      | none =>
          rw [search, read, hused] at h
          cases h
      | some owner =>
          have howner : owner ≠ -1 := fun heq => hfull ⟨i, heq ▸ hused⟩
          rw [search_succ hused, if_neg howner] at h
          have hi := lt_of_used hused
          rcases ih h with rfl | hle
          · exact .inr hi
          · right
            omega

theorem Minors.get_ok_iff {m : Minors} {pid : Int32} : (∃ r, m.get pid = .ok r) ↔ m.Fits := by
  refine ⟨?_, get_ok⟩
  rintro ⟨r, hget⟩
  obtain ⟨r', hsearch, -⟩ := Mem.bind_eq_ok hget
  by_cases hfull : m.HasFree
  · exact .inl hfull
  · rcases search_range hfull hsearch with hzero | hle
    · cases hzero
    · exact .inr ((Nat.zero_add (m.max + 2)).symm ▸ hle)

theorem returns {reg : Registry} {m : Minors} {call : MinorCall} (hm : reg.minors = some m)
    (hbound : m.Bounded) (hindex : ∀ minor, call.index = some minor → minor < NETDEV_MAX_DEVICES) :
    call.Returns reg m := by
  cases call with
  | getMinor free pid => exact getMinor_ends hm (Nat.ne_of_lt hbound) free pid
  | putMinor free minor => exact putMinor_ends hm hbound (hindex minor rfl) free
  | findPid free minor => exact findPid_ends hm (hindex minor rfl) free

/-- A registration gets what its search finds. -/
theorem getMinor_got {reg : Registry} {m m' : Minors} {pid : Int32} {o : Option Nat}
    (hm : reg.minors = some m) (hbound : m.Bounded) (hlock : Sem.minor ∉ reg.stuck)
    (hget : m.get pid = .ok (o, m')) : (Ker.call (ndmgmGetMinor true pid) reg).1 = .ok o := by
  obtain ⟨r, reg', hends, hr, -⟩ :=
    @MinorCall.Returns.after m ⟨reg, [], []⟩ _ (getMinor_ends hm (Nat.ne_of_lt hbound) true pid)
  refine hr.trans ?_
  cases hends with
  | busy hbusy => exact absurd ⟨rfl, hlock⟩ hbusy
  | got _ hget' =>
      obtain ⟨rfl, -⟩ := Prod.mk.inj (Except.ok.inj (hget.symm.trans hget'))
      rfl
  | outside _ hget' => exact absurd hget (hget' _)

theorem putMinor_put {desk : Desk} {m m' : Minors} {minor : Nat} (hm : desk.registry.minors = some m)
    (hbound : m.Bounded) (hlock : Sem.minor ∉ desk.registry.stuck) (hminor : minor < NETDEV_MAX_DEVICES)
    (hput : m.put minor = .ok m') :
    (desk.after (.putMinor true minor)).registry.minors = some m' ∧
      (desk.after (.putMinor true minor)).held = desk.held.erase minor := by
  obtain ⟨r, reg, hends, -, hafter⟩ := @MinorCall.Returns.after m desk _ (putMinor_ends hm hbound hminor true)
  rw [hafter]
  cases hends with
  | busy hbusy => exact absurd ⟨rfl, hlock⟩ hbusy
  | put _ hput' =>
      obtain rfl := Except.ok.inj (hput.symm.trans hput')
      exact ⟨rfl, rfl⟩

/-- The table is there, and every minor that was handed out is in it. -/
structure Desk.Tabled (desk : Desk) (m : Minors) : Prop where
  minors : desk.registry.minors = some m
  bounded : m.Bounded
  given : ∀ i ∈ desk.given, i < NETDEV_MAX_DEVICES

section Indices
variable {hashMin : UInt32 → Fin 32} {reqs : Requests} {calls : List MinorCall} {desk : Desk}
  {call : MinorCall} {m : Minors}

theorem Desk.Tabled.returns (h : desk.Tabled m) (hgave : desk.Gave call) : call.Returns desk.registry m :=
  Kernel.returns h.minors h.bounded fun minor hindex => h.given minor (hgave minor hindex)

theorem Desk.Tabled.inRange (h : desk.Tabled m) (hgave : desk.Gave call) :
    InRange (Ker.call call.run desk.registry).1 ↔ desk.Fits call := by
  obtain ⟨r, reg, hends, hr, -⟩ := (h.returns hgave).after
  rw [hr]
  cases hends with
  | busy hbusy =>
      refine iff_of_true trivial ?_
      cases call with
      | getMinor free pid => exact fun hfree hsem => absurd ⟨hfree, hsem⟩ hbusy
      | putMinor free minor => trivial
      | findPid free minor => trivial
  | @got pid o m' hlock hget =>
      refine iff_of_true ?_ fun _ _ m₁ hm₁ => ?_
      · cases o with
        | none => trivial
        | some minor => exact Minors.lt_of_used ((Minors.get_eq hget).2 minor rfl).1.free
      · obtain rfl := Option.some.inj (h.minors.symm.trans hm₁)
        exact Minors.get_ok_iff.mp ⟨_, hget⟩
  | outside hlock hget =>
      refine iff_of_false (fun hfalse => hfalse) fun hfits => ?_
      obtain ⟨r, hr⟩ := Minors.get_ok_iff.mpr (hfits rfl hlock m h.minors)
      exact hget r hr
  | put hlock hput => exact iff_of_true trivial trivial
  | found hlock => exact iff_of_true trivial trivial

theorem Desk.Tabled.after (h : desk.Tabled m) (hgave : desk.Gave call) : ∃ m', (desk.after call).Tabled m' := by
  obtain ⟨r, reg, hends, -, hafter⟩ := (h.returns hgave).after
  rw [hafter]
  cases hends with
  | busy hbusy => exact ⟨m, h.minors, h.bounded, h.given⟩
  | @got pid o m' hlock hget =>
      refine ⟨m', rfl, Minors.get_bounded h.bounded hget, fun i hi => ?_⟩
      cases o with
      | none => exact h.given i hi
      | some minor =>
          rcases List.mem_cons.mp hi with rfl | hi
          · exact Minors.lt_of_used ((Minors.get_eq hget).2 i rfl).1.free
          · exact h.given i hi
  | outside hlock hget => exact ⟨m, h.minors, h.bounded, h.given⟩
  | @put minor m' hlock hput =>
      obtain ⟨m₁, hput₁, -, hbound⟩ := Minors.put_ok (h.given minor (hgave minor rfl)) h.bounded
      obtain rfl := Except.ok.inj (hput.symm.trans hput₁)
      exact ⟨m', rfl, hbound, h.given⟩
  | found hlock => exact ⟨m, h.minors, h.bounded, h.given⟩

theorem tabled_invariant (hashMin : UInt32 → Fin 32) (reqs : Requests) :
    ((minorCalls hashMin reqs).restrict Desk.Gave).Invariant fun desk => ∃ m, desk.Tabled m where
  init := by
    rintro desk rfl
    exact ⟨_, rfl, Minors.prepare_bounded, fun i hi => (List.not_mem_nil hi).elim⟩
  step := by
    rintro desk call desk' ⟨m, h⟩ ⟨rfl, hgave⟩
    exact h.after hgave

/-- The desk after so many registrations of one daemon. -/
def Desk.registered (n : Nat) : Desk :=
  (·.after (.getMinor true 7))^[n] ⟨.prepare Sample.hashMin Sample.requests, [], []⟩

theorem run_registered {C : Desk → MinorCall → Prop} (n : Nat) (hC : ∀ k < n, C (.registered k) (.getMinor true 7)) :
    ((minorCalls Sample.hashMin Sample.requests).restrict C).Run (List.replicate n (.getMinor true 7))
      (.registered n) := by
  induction n with
  | zero => exact .init rfl
  | succ n ih =>
      rw [List.replicate_succ', Desk.registered, Function.iterate_succ_apply']
      refine (ih fun k hk => hC k (Nat.lt_succ_of_lt hk)).step ⟨rfl, ?_⟩
      exact hC n (Nat.lt_succ_self n)

/-- In every run a call stays inside the table exactly when it is not a search of a full
table with the mark at its end. -/
theorem minor_in_range (hrun : ((minorCalls hashMin reqs).restrict Desk.Gave).Run calls desk)
    (hgave : desk.Gave call) : InRange (Ker.call call.run desk.registry).1 ↔ desk.Fits call := by
  obtain ⟨m, h⟩ := hrun.invariant (tabled_invariant hashMin reqs)
  exact h.inRange hgave

theorem minor_in_range_registered :
    InRange (Ker.call (MinorCall.putMinor true 0).run (Desk.registered 1).registry).1 ↔
      (Desk.registered 1).Fits (.putMinor true 0) := by
  have hrun := @run_registered Desk.Gave 1 fun k _ minor hindex => nomatch hindex
  refine @minor_in_range _ _ _ _ (.putMinor true 0) hrun fun minor hindex => ?_
  obtain rfl := Option.some.inj hindex
  exact List.mem_singleton.mpr rfl

theorem full_fault : (Ker.call (ndmgmGetMinor true 7) (Desk.registered 32).registry).1 = .error .fault := by
  decide +kernel

/-- The 33rd registration leaves the table. -/
theorem minor_out_of_range : ∃ calls desk call,
    ((minorCalls Sample.hashMin Sample.requests).restrict Desk.Gave).Run calls desk ∧
      desk.Gave call ∧ ¬ InRange (Ker.call call.run desk.registry).1 := by
  have hgave : ∀ desk, Desk.Gave desk (.getMinor true 7) := fun _ _ hindex => nomatch hindex
  refine ⟨_, _, .getMinor true 7, @run_registered Desk.Gave 32 fun k _ => hgave _, hgave _, ?_⟩
  unfold MinorCall.run
  rw [full_fault]
  exact fun hrange => hrange

end Indices

/-! ## Free minors -/

/-- The table of a run in which the mark was never lowered too far: the minors in use are
those that are held. -/
structure Desk.Kept (desk : Desk) (m : Minors) : Prop where
  minors : desk.registry.minors = some m
  free : Sem.minor ∉ desk.registry.stuck
  bounded : m.Bounded
  covers : m.Covers
  nodup : desk.held.Nodup
  held : ∀ i, i ∈ desk.held ↔ m.InUse i

section Free
variable {hashMin : UInt32 → Fin 32} {reqs : Requests} {calls : List MinorCall} {desk : Desk}
  {call : MinorCall} {m m' : Minors} {pid : Int32} {minor : Nat}

/-- Not all entries are in use when fewer minors are held. -/
theorem Desk.Kept.hasFree (h : desk.Kept m) (hlt : desk.held.length < NETDEV_MAX_DEVICES) : m.HasFree := by
  refine Classical.byContradiction fun hfull => ?_
  have hall : List.range NETDEV_MAX_DEVICES ⊆ desk.held := by
    intro i hi
    refine (h.held i).mpr (Classical.byContradiction fun hno => hfull ⟨i, ?_⟩)
    exact Minors.free_of_not_inUse (List.mem_range.mp hi) hno
  have hle := (List.subperm_of_subset List.nodup_range hall).length_le
  rw [List.length_range] at hle
  exact absurd hlt (Nat.not_lt.mpr hle)

/-- A registration gets the smallest minor that is not held. -/
theorem Desk.Kept.get (h : desk.Kept m) (hlt : desk.held.length < NETDEV_MAX_DEVICES) (pid : Int32) :
    ∃ minor m', m.get pid = .ok (some minor, m') ∧ minor ∉ desk.held ∧ ∀ i < minor, i ∈ desk.held := by
  obtain ⟨⟨o, m'⟩, hget⟩ := @Minors.get_ok m pid (.inl (h.hasFree hlt))
  obtain ⟨hnone, hsome⟩ := Minors.get_first hget
  cases o with
  | none =>
      have hle := h.covers (m.max + 1) (hnone rfl _ (Nat.lt_succ_self _))
      exact absurd hle (Nat.not_succ_le_self m.max)
  | some minor =>
      refine ⟨minor, m', hget, fun hheld => ?_, fun i hi => (h.held i).mpr (hsome minor rfl i hi)⟩
      exact Minors.not_inUse_of_free ((Minors.get_eq hget).2 minor rfl).1.free ((h.held minor).mp hheld)

theorem Desk.Kept.register (h : desk.Kept m) (hget : m.get pid = .ok (some minor, m')) (hpid : 0 < pid) :
    Desk.Kept ⟨desk.registry.setMinors m', minor :: desk.given, minor :: desk.held⟩ m' := by
  obtain ⟨htaken, hmax⟩ := (Minors.get_eq hget).2 minor rfl
  have hne : pid ≠ -1 := fun heq => absurd (heq ▸ hpid) (by decide)
  have huse : ∀ i, m'.InUse i ↔ i = minor ∨ m.InUse i := fun i => Minors.inUse_of_taken htaken hne
  refine ⟨rfl, h.free, Minors.get_bounded h.bounded hget, fun i hi => ?_, ?_, fun i => ?_⟩
  · rw [hmax]
    rcases (huse i).mp hi with rfl | hi
    · exact Nat.le_max_right ..
    · exact (h.covers i hi).trans (Nat.le_max_left ..)
  · refine List.nodup_cons.mpr ⟨fun hheld => ?_, h.nodup⟩
    exact Minors.not_inUse_of_free htaken.free ((h.held minor).mp hheld)
  · rw [List.mem_cons, h.held i, huse i]

/-- What putting a held minor leaves, apart from the mark. -/
theorem Desk.Kept.put (h : desk.Kept m) (hheld : minor ∈ desk.held) (hput : m.put minor = .ok m') :
    m'.Bounded ∧ (m'.Covers ↔ m.Lowers minor) ∧ (desk.held.erase minor).Nodup ∧
      ∀ i, i ∈ desk.held.erase minor ↔ m'.InUse i := by
  have hlt := ((h.held minor).mp hheld).lt
  obtain ⟨m₁, hput₁, hused, hbound⟩ := Minors.put_ok hlt h.bounded
  obtain rfl := Except.ok.inj (hput.symm.trans hput₁)
  refine ⟨hbound, Minors.put_covers h.covers hlt hput, h.nodup.erase minor, fun i => ?_⟩
  rw [h.nodup.mem_erase_iff, h.held i, Minors.inUse_of_put hlt hused]
  exact and_comm

/-- A call under the conditions keeps the mark. -/
theorem Desk.Kept.after (h : desk.Kept m) (hholds : desk.Holds call) (hspares : desk.Spares call) :
    ∃ m', (desk.after call).Kept m' := by
  obtain ⟨r, reg, hends, -, hafter⟩ := (returns h.minors h.bounded fun minor hminor =>
    ((h.held minor).mp (hholds.held minor hminor)).lt).after
  rw [hafter]
  cases hends with
  | busy hbusy => exact absurd ⟨hholds.free, h.free⟩ hbusy
  | @got pid o m' hlock hget =>
      obtain ⟨minor, m₁, hget₁, -⟩ := h.get (hspares.free true pid rfl) pid
      obtain ⟨rfl, rfl⟩ := Prod.mk.inj (Except.ok.inj (hget.symm.trans hget₁))
      exact ⟨m', h.register hget (hholds.pid true pid rfl)⟩
  | @outside pid hlock hget =>
      obtain ⟨minor, m₁, hget₁, -⟩ := h.get (hspares.free true pid rfl) pid
      exact absurd hget₁ (hget _)
  | @put minor m' hlock hput =>
      obtain ⟨hbound, hcovers, hnodup, hheld⟩ := h.put (hholds.held minor rfl) hput
      have hlowers := hspares.lowers m h.minors minor (List.mem_singleton.mpr rfl)
      exact ⟨m', rfl, h.free, hbound, hcovers.mpr hlowers, hnodup, hheld⟩
  | found hlock => exact ⟨m, h.minors, h.free, h.bounded, h.covers, h.nodup, h.held⟩

theorem kept_invariant (hashMin : UInt32 → Fin 32) (reqs : Requests) :
    (((minorCalls hashMin reqs).restrict Desk.Holds).restrict Desk.Spares).Invariant
      fun desk => ∃ m, desk.Kept m where
  init := by
    rintro desk rfl
    have hfree : ∀ i, ¬ Minors.prepare.InUse i := by
      rintro i ⟨pid, hused, hpid⟩
      exact hpid (List.eq_of_mem_replicate (List.mem_of_getElem? hused))
    refine ⟨_, rfl, List.not_mem_nil, Minors.prepare_bounded, fun i hi => (hfree i hi).elim,
      List.nodup_nil, fun i => iff_of_false List.not_mem_nil (hfree i)⟩
  step := by
    rintro desk call desk' ⟨m, h⟩ ⟨⟨rfl, hholds⟩, hspares⟩
    exact h.after hholds hspares

/-- As long as the loop of `ndmgm_put_minor` meets at most one minor in use, the mark covers
the minors that are held, and a registration gets the smallest other one. -/
theorem minor_found
    (hrun : (((minorCalls hashMin reqs).restrict Desk.Holds).restrict Desk.Spares).Run calls desk) :
    desk.Covers ∧
      (desk.held.length < NETDEV_MAX_DEVICES → ∀ pid, ∃ minor,
        (Ker.call (ndmgmGetMinor true pid) desk.registry).1 = .ok (some minor) ∧
          minor ∉ desk.held ∧ ∀ i < minor, i ∈ desk.held) ∧
      ∀ minor ∈ desk.held, (desk.after (.putMinor true minor)).Covers ↔
        ∀ m, desk.registry.minors = some m → m.Lowers minor := by
  obtain ⟨m, h⟩ := hrun.invariant (kept_invariant hashMin reqs)
  refine ⟨fun m' hm' i hi => ?_, fun hlt pid => ?_, fun minor hheld => ?_⟩
  · obtain rfl := Option.some.inj (h.minors.symm.trans hm')
    exact h.covers i ((h.held i).mp hi)
  · obtain ⟨minor, m', hget, hno, hbelow⟩ := h.get hlt pid
    exact ⟨minor, getMinor_got h.minors h.bounded h.free hget, hno, hbelow⟩
  · have hlt := ((h.held minor).mp hheld).lt
    obtain ⟨m', hput, -⟩ := Minors.put_ok hlt h.bounded
    obtain ⟨-, hcovers, -, hleft⟩ := h.put hheld hput
    obtain ⟨hminors, hheld'⟩ := putMinor_put h.minors h.bounded h.free hlt hput
    have hafter : (desk.after (.putMinor true minor)).Covers ↔ m'.Covers := by
      constructor
      · intro hcov i hi
        exact hcov m' hminors i (hheld' ▸ (hleft i).mpr hi)
      · intro hcov m₁ hm₁ i hi
        obtain rfl := Option.some.inj (hminors.symm.trans hm₁)
        exact hcov i ((hleft i).mp (hheld' ▸ hi))
    rw [hafter, hcovers]
    constructor
    · intro hlowers m₁ hm₁
      obtain rfl := Option.some.inj (h.minors.symm.trans hm₁)
      exact hlowers
    · intro hlowers
      exact hlowers m h.minors

theorem holds_registered (n : Nat) : (Desk.registered n).Holds (.getMinor true 7) where
  free := rfl
  pid free pid h := by
    obtain ⟨-, rfl⟩ := MinorCall.getMinor.inj h
    decide
  held minor hindex := nomatch hindex

theorem minor_found_registered :
    (Desk.registered 1).Covers ∧
      ((Desk.registered 1).held.length < NETDEV_MAX_DEVICES → ∀ pid, ∃ minor,
        (Ker.call (ndmgmGetMinor true pid) (Desk.registered 1).registry).1 = .ok (some minor) ∧
          minor ∉ (Desk.registered 1).held ∧ ∀ i < minor, i ∈ (Desk.registered 1).held) ∧
      ∀ minor ∈ (Desk.registered 1).held, ((Desk.registered 1).after (.putMinor true minor)).Covers ↔
        ∀ m, (Desk.registered 1).registry.minors = some m → m.Lowers minor := by
  refine @minor_found Sample.hashMin Sample.requests [.getMinor true 7] _ (.step (.init rfl) ⟨⟨rfl, ?_⟩, ?_⟩)
  · exact holds_registered 0
  · exact ⟨fun _ _ _ => (by decide), fun m hm minor hback => nomatch hback⟩

/-- Four minors are taken and the last one is put: the mark goes down to 1, and the next
registration fails. -/
theorem minor_lost : ∃ calls desk,
    ((minorCalls Sample.hashMin Sample.requests).restrict Desk.Holds).Run calls desk ∧
      desk.held.length < NETDEV_MAX_DEVICES ∧
      (Ker.call (ndmgmGetMinor true 7) desk.registry).1 = .ok none := by
  have hrun := @run_registered Desk.Holds 4 fun k _ => holds_registered k
  have hheld : (Desk.registered 4).held = [3, 2, 1, 0] := by decide +kernel
  refine ⟨_, _, hrun.step (l := .putMinor true 3) ⟨rfl, rfl, fun _ _ h => (by cases h), ?_⟩, ?_, ?_⟩
  · intro minor hindex
    obtain rfl := Option.some.inj hindex
    exact hheld ▸ List.mem_cons_self
  · decide +kernel
  · decide +kernel

end Free

end Netdev.Kernel
