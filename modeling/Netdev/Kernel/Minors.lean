-- SUMMARY: The table of minor numbers: `ndmgm_get_minor`, `ndmgm_put_minor` and `ndmgm_find_pid` inside their lock.
import Netdev.Base.Memory
import Netdev.Protocol

/-!
# Minor numbers

`netdev_minors_used` holds for each minor the pid of the daemon that owns it, or
-1, and `netdev_max_minor` is meant to be the largest minor in use. An index
outside the table is a fault.
-/

namespace Netdev.Kernel
open Base

structure Minors where
  used : List Int32
  length : used.length = NETDEV_MAX_DEVICES
  max : Nat

namespace Minors

/-- As `ndmgm_prepare` leaves them. -/
def prepare : Minors := ⟨List.replicate NETDEV_MAX_DEVICES (-1), List.length_replicate, 0⟩

def read (m : Minors) (i : Nat) : Mem Int32 :=
  match m.used[i]? with
  | some pid => .ok pid
  | none => .error .outOfBounds

def write (m : Minors) (i : Nat) (pid : Int32) : Mem Minors :=
  if i < m.used.length then
    .ok { m with used := m.used.set i pid, length := by rw [List.length_set, m.length] }
  else
    .error .outOfBounds

/-- The loop of `ndmgm_get_minor`, `n` turns from index `i`. -/
def search (m : Minors) (pid : Int32) : Nat → Nat → Mem (Option Nat × Minors)
  | 0, _ => return (none, m)
  | n + 1, i => do
      if (← m.read i) = -1 then
        return (some i, ← m.write i pid)
      else
        m.search pid n (i + 1)

/-- The locked part of `ndmgm_get_minor` for fewer than `NETDEV_MAX_DEVICES`
minors; `none` is -1. -/
def get (m : Minors) (pid : Int32) : Mem (Option Nat × Minors) := do
  match ← m.search pid (m.max + 2) 0 with
  | (none, m) => return (none, m)
  | (some minor, m) => return (some minor, { m with max := Nat.max m.max minor })

/-- The loop of `ndmgm_put_minor`, from index `i` down to 1; it does not stop at the
first minor in use. -/
def lower (m : Minors) : Nat → Mem Minors
  | 0 => return m
  | i + 1 => do
      if (← m.read (i + 1)) ≠ -1 then
        lower { m with max := i + 1 } i
      else
        m.lower i

/-- The locked part of `ndmgm_put_minor`. -/
def put (m : Minors) (minor : Nat) : Mem Minors := do
  let m ← m.write minor (-1)
  if minor = m.max then
    m.lower minor
  else
    return m

/-! ## What they do to the table -/

section Table
variable {m m' : Minors} {pid : Int32} {minor i : Nat}

/-- Every access stays inside the table. -/
def Bounded (m : Minors) : Prop := m.max < NETDEV_MAX_DEVICES

theorem prepare_bounded : prepare.Bounded := (by decide : 0 < NETDEV_MAX_DEVICES)

/-- An entry is free. -/
def HasFree (m : Minors) : Prop := ∃ i : Nat, m.used[i]? = some (-1)

theorem read_ok (hi : i < NETDEV_MAX_DEVICES) : ∃ pid, m.read i = .ok pid ∧ m.used[i]? = some pid := by
  have hlt : i < m.used.length := m.length.symm ▸ hi
  refine ⟨m.used[i], ?_, List.getElem?_eq_getElem hlt⟩
  rw [read, List.getElem?_eq_getElem hlt]

theorem write_ok (hi : i < NETDEV_MAX_DEVICES) : ∃ m', m.write i pid = .ok m' ∧
    m'.used = m.used.set i pid ∧ m'.max = m.max := by
  have hlt : i < m.used.length := m.length.symm ▸ hi
  refine ⟨{ m with used := m.used.set i pid, length := ?_ }, ?_, rfl, rfl⟩
  · rw [List.length_set, m.length]
  · rw [write, if_pos hlt]

theorem lt_of_used (hused : m.used[i]? = some pid) : i < NETDEV_MAX_DEVICES :=
  m.length ▸ (List.getElem?_eq_some_iff.mp hused).1

/-- A turn of the search. -/
theorem search_succ (hused : m.used[i]? = some pid) (owner : Int32) (n : Nat) :
    m.search owner (n + 1) i = if pid = -1 then m.write i owner >>= fun m' => .ok (some i, m')
      else m.search owner n (i + 1) := by
  have hread : m.read i = .ok pid := by
    rw [read, hused]
  rw [search, hread]
  rfl

/-- What the search finds was free and belongs to the new owner now. -/
structure Taken (m m' : Minors) (pid : Int32) (minor : Nat) : Prop where
  free : m.used[minor]? = some (-1)
  used : m'.used = m.used.set minor pid

theorem search_eq {n : Nat} {o : Option Nat} (h : m.search pid n i = .ok (o, m')) :
    m'.max = m.max ∧ (o = none → m'.used = m.used) ∧ ∀ minor, o = some minor → Taken m m' pid minor := by
  induction n generalizing i with
  | zero =>
      obtain ⟨rfl, rfl⟩ := Prod.mk.inj (Except.ok.inj h)
      exact ⟨rfl, fun _ => rfl, fun _ hsome => nomatch hsome⟩
  | succ n ih =>
      cases hused : m.used[i]? with
      | none =>
          rw [search, read, hused] at h
          cases h
      | some owner =>
          rw [search_succ hused] at h
          by_cases hfree : owner = -1
          · obtain ⟨m₁, hwrite, hset, hmax⟩ := @write_ok m pid i (lt_of_used hused)
            rw [if_pos hfree, hwrite] at h
            obtain ⟨rfl, rfl⟩ := Prod.mk.inj (Except.ok.inj h)
            refine ⟨hmax, fun hnone => (by cases hnone), fun minor hsome => ?_⟩
            obtain rfl := Option.some.inj hsome
            exact ⟨hfree ▸ hused, hset⟩
          · rw [if_neg hfree] at h
            exact ih h

/-- The search stays in the table as long as it meets a free entry or the end of its
range first. -/
theorem search_ok {n : Nat} (h : i + n ≤ NETDEV_MAX_DEVICES ∨
    ∃ j, i ≤ j ∧ m.used[j]? = some (-1)) : ∃ r, m.search pid n i = .ok r := by
  induction n generalizing i with
  | zero => exact ⟨_, rfl⟩
  | succ n ih =>
      have hi : i < NETDEV_MAX_DEVICES := by
        rcases h with hle | ⟨j, hij, hj⟩
        · omega
        · exact hij.trans_lt (lt_of_used hj)
      obtain ⟨owner, -, hused⟩ := @read_ok m i hi
      rw [search_succ hused]
      by_cases hfree : owner = -1
      · obtain ⟨m₁, hwrite, -⟩ := @write_ok m pid i hi
        rw [if_pos hfree, hwrite]
        exact ⟨_, rfl⟩
      · rw [if_neg hfree]
        apply ih
        rcases h with hle | ⟨j, hij, hj⟩
        · left
          omega
        · right
          refine ⟨j, Nat.lt_of_le_of_ne hij fun heq => hfree ?_, hj⟩
          rw [← heq, hused] at hj
          exact Option.some.inj hj

/-- `ndmgm_get_minor` takes a free entry or nothing. -/
theorem get_eq {o : Option Nat} (h : m.get pid = .ok (o, m')) :
    (o = none → m' = m) ∧ ∀ minor, o = some minor → Taken m m' pid minor ∧
      m'.max = Nat.max m.max minor := by
  obtain ⟨⟨o₁, m₁⟩, hsearch, hrest⟩ := Mem.bind_eq_ok h
  obtain ⟨hmax, hnone, hsome⟩ := search_eq hsearch
  cases o₁ with
  | none =>
      obtain ⟨rfl, rfl⟩ := Prod.mk.inj (Except.ok.inj hrest)
      refine ⟨fun _ => ?_, fun _ hc => (by cases hc)⟩
      obtain ⟨used, length, max⟩ := m
      obtain ⟨used₁, length₁, max₁⟩ := m₁
      obtain rfl : used₁ = used := hnone rfl
      obtain rfl : max₁ = max := hmax
      rfl
  | some j =>
      obtain ⟨rfl, rfl⟩ := Prod.mk.inj (Except.ok.inj hrest)
      refine ⟨fun hc => (by cases hc), fun minor hminor => ?_⟩
      obtain rfl := Option.some.inj hminor
      have htaken := hsome j rfl
      refine ⟨⟨htaken.free, htaken.used⟩, ?_⟩
      change Nat.max m₁.max j = _
      rw [hmax]

/-- The search of `ndmgm_get_minor` ends inside the table: it meets a free entry, or its
range ends before. -/
def Fits (m : Minors) : Prop := m.HasFree ∨ m.max + 2 ≤ NETDEV_MAX_DEVICES

theorem get_ok (hfits : m.Fits) : ∃ r, m.get pid = .ok r := by
  have hrange : 0 + (m.max + 2) ≤ NETDEV_MAX_DEVICES ∨ ∃ j : Nat, 0 ≤ j ∧ m.used[j]? = some (-1) := by
    rcases hfits with ⟨j, hj⟩ | hle
    · exact .inr ⟨j, Nat.zero_le _, hj⟩
    · left
      omega
  obtain ⟨⟨o, m₁⟩, hsearch⟩ := @search_ok m pid 0 (m.max + 2) hrange
  unfold get
  rw [hsearch]
  cases o with
  | none => exact ⟨_, rfl⟩
  | some minor => exact ⟨_, rfl⟩

theorem get_bounded {o : Option Nat} (hbound : m.Bounded) (h : m.get pid = .ok (o, m')) : m'.Bounded := by
  obtain ⟨hnone, hsome⟩ := get_eq h
  cases o with
  | none => exact (hnone rfl) ▸ hbound
  | some minor =>
      obtain ⟨htaken, hmax⟩ := hsome minor rfl
      rw [Bounded, hmax]
      exact Nat.max_lt.mpr ⟨hbound, lt_of_used htaken.free⟩

/-- Entries that are not free stay when a free one is taken. -/
theorem used_of_taken {owner : Int32} (h : Taken m m' pid minor) (hused : m.used[i]? = some owner)
    (howner : owner ≠ -1) : i ≠ minor ∧ m'.used[i]? = some owner := by
  have hne : i ≠ minor := by
    rintro rfl
    exact howner (Option.some.inj (hused.symm.trans h.free))
  refine ⟨hne, ?_⟩
  rw [h.used, List.getElem?_set_ne hne.symm]
  exact hused

/-- The loop of `ndmgm_put_minor` changes only the mark. -/
theorem lower_ok (hi : i < NETDEV_MAX_DEVICES) (hbound : m.Bounded) :
    ∃ m', m.lower i = .ok m' ∧ m'.used = m.used ∧ m'.Bounded := by
  induction i generalizing m with
  | zero => exact ⟨m, rfl, rfl, hbound⟩
  | succ i ih =>
      obtain ⟨owner, hread, -⟩ := @read_ok m (i + 1) hi
      have hlt : i < NETDEV_MAX_DEVICES := Nat.lt_of_succ_lt hi
      unfold lower
      rw [hread]
      by_cases hused : owner ≠ -1
      · obtain ⟨m', hlower, hsame, hb⟩ := @ih { m with max := i + 1 } hlt hi
        exact ⟨m', (if_pos hused).trans hlower, hsame, hb⟩
      · obtain ⟨m', hlower, hsame, hb⟩ := ih hlt hbound
        exact ⟨m', (if_neg hused).trans hlower, hsame, hb⟩

/-- `ndmgm_put_minor` frees the entry. -/
theorem put_ok (hminor : minor < NETDEV_MAX_DEVICES) (hbound : m.Bounded) :
    ∃ m', m.put minor = .ok m' ∧ m'.used = m.used.set minor (-1) ∧ m'.Bounded := by
  obtain ⟨m₁, hwrite, hset, hmax⟩ := @write_ok m (-1) minor hminor
  have hbound₁ : m₁.Bounded := by
    rw [Bounded, hmax]
    exact hbound
  unfold put
  rw [hwrite, Mem.bind_ok]
  by_cases hlast : minor = m₁.max
  · obtain ⟨m', hlower, hsame, hb⟩ := lower_ok hminor hbound₁
    exact ⟨m', (if_pos hlast).trans hlower, hsame.trans hset, hb⟩
  · exact ⟨m₁, if_neg hlast, hset, hbound₁⟩

end Table

end Minors

end Netdev.Kernel
