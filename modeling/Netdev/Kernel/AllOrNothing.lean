-- SUMMARY: A creation that fails after it has got a minor keeps the minor, and may keep a buffer.
import Netdev.Kernel.Creation
import Netdev.Kernel.MinorRuns

/-!
# Failed creations

Each place where a creation can fail, and what is left behind there. `ndmgm_create_dummy`
never calls `ndmgm_put_minor`; when `cdev` cannot be allocated `ndmgm_alloc_data` does not
free `devname`. `ndmgm_create_server` unwinds everything.
-/

namespace Netdev.Kernel
open Base Registry

/-! ## A minor -/

/-- One of the first entries is free. -/
def Minors.FreeBelow (m : Minors) (n : Nat) : Prop := ∃ i : Nat, i < n ∧ m.used[i]? = some (-1)

theorem Minors.search_lt {m m' : Minors} {pid : Int32} {n i minor : Nat}
    (h : m.search pid n i = .ok (some minor, m')) : minor < i + n := by
  induction n generalizing i with
  | zero => exact nomatch congrArg Prod.fst (Except.ok.inj h)
  | succ n ih =>
      cases hused : m.used[i]? with
      | none =>
          rw [search, read, hused] at h
          cases h
      | some owner =>
          rw [search_succ hused] at h
          by_cases hfree : owner = -1
          · rw [if_pos hfree] at h
            obtain ⟨m₁, -, hrest⟩ := Mem.bind_eq_ok h
            obtain rfl := Option.some.inj (congrArg Prod.fst (Except.ok.inj hrest))
            exact Nat.lt_add_of_pos_right n.succ_pos
          · rw [if_neg hfree] at h
            have hlt := ih h
            omega

/-- `ndmgm_get_minor` finds a minor when one of the entries up to that after the mark is
free, and the mark stays when it is not that one. -/
theorem Minors.get_free {m m' : Minors} {pid : Int32} {o : Option Nat} (h : m.get pid = .ok (o, m')) :
    (o = none ↔ ¬ m.FreeBelow (m.max + 2)) ∧
    ∀ minor, o = some minor → (minor ≤ m.max ↔ m.FreeBelow (m.max + 1)) := by
  obtain ⟨hnone, hsome⟩ := get_first h
  have htaken := (get_eq h).2
  refine ⟨⟨fun ho ⟨j, hj, hfree⟩ => not_inUse_of_free hfree (hnone ho j hj), fun hno => ?_⟩, fun minor ho => ?_⟩
  · cases o with
    | none => rfl
    | some minor =>
        obtain ⟨⟨o₁, m₁⟩, hsearch, hrest⟩ := Mem.bind_eq_ok h
        obtain rfl : o₁ = some minor := by
          cases o₁ with
          | none => exact nomatch congrArg Prod.fst (Except.ok.inj hrest)
          | some minor' => exact congrArg Prod.fst (Except.ok.inj hrest)
        have hlt := search_lt hsearch
        exact absurd ⟨minor, by omega, (htaken minor rfl).1.free⟩ hno
  · refine ⟨fun hle => ⟨minor, Nat.lt_succ_of_le hle, (htaken minor ho).1.free⟩, ?_⟩
    rintro ⟨j, hj, hfree⟩
    by_contra hgt
    exact not_inUse_of_free hfree (hsome minor ho j (by omega))

/-- `ndmgm_get_minor` has no minor to give: its lock is busy, the limit is reached, or
all entries up to that after the mark are in use. -/
def NoMinor (reg : Registry) (free : Bool) : Prop :=
  free = false ∨ Sem.minor ∈ reg.stuck ∨
    ∃ m, reg.minors = some m ∧ (m.max = NETDEV_MAX_DEVICES ∨ ¬ m.FreeBelow (m.max + 2))

/-- The minor goes to pid -1, which is the mark of a free one, and `netdev_max_minor` stays. -/
def MinorUnchanged (reg : Registry) (nlpid : Int32) : Prop :=
  nlpid = -1 ∧ ∃ m, reg.minors = some m ∧ m.FreeBelow (m.max + 1)

/-- The ends of `ndmgm_get_minor`. -/
inductive MinorEnd (reg : Registry) (free : Bool) (nlpid : Int32) :
    Except Halt (Option Nat) → Registry → Prop where
  | halt {e : Halt} {reg' : Registry} : MinorEnd reg free nlpid (.error e) reg'
  | none (hno : NoMinor reg free) : MinorEnd reg free nlpid (.ok none) reg
  | some {minors : Minors} {minor : Nat} (hno : ¬ NoMinor reg free)
      (hminors : some minors = reg.minors ↔ MinorUnchanged reg nlpid) :
      MinorEnd reg free nlpid (.ok (some minor)) { reg with minors := some minors }

theorem Minors.eq_iff {m m' : Minors} : m' = m ↔ m'.used = m.used ∧ m'.max = m.max := by
  refine ⟨fun h => h ▸ ⟨rfl, rfl⟩, fun ⟨hused, hmax⟩ => ?_⟩
  obtain ⟨used, length, max⟩ := m
  obtain ⟨used', length', max'⟩ := m'
  subst hused hmax
  rfl

/-- The table and the mark stay as they are when the new owner is -1, up to the mark. -/
theorem Minors.get_same {m m' : Minors} {nlpid : Int32} {minor : Nat}
    (hget : m.get nlpid = .ok (some minor, m')) : m' = m ↔ nlpid = -1 ∧ m.FreeBelow (m.max + 1) := by
  obtain ⟨htaken, hmax⟩ := (Minors.get_eq hget).2 minor rfl
  have hlt : minor < m.used.length := (List.getElem?_eq_some_iff.mp htaken.free).1
  have hused : m'.used = m.used ↔ nlpid = -1 := by
    rw [htaken.used]
    refine ⟨fun heq => ?_, fun heq => ?_⟩
    · have hself : (m.used.set minor nlpid)[minor]? = some nlpid := List.getElem?_set_self hlt
      rw [heq, htaken.free] at hself
      exact (Option.some.inj hself).symm
    · rw [heq]
      exact List.ext_getElem? fun i => by
        by_cases hi : minor = i
        · rw [← hi, List.getElem?_set_self hlt, htaken.free]
        · rw [List.getElem?_set_ne hi]
  rw [Minors.eq_iff, hused, hmax, ← (Minors.get_free hget).2 minor rfl]
  exact and_congr_right fun _ => max_eq_left_iff

theorem ndmgmGetMinor_ends (reg : Registry) (free : Bool) (nlpid : Int32) :
    Exec.wp (ndmgmGetMinor free nlpid) (fun r c => MinorEnd reg free nlpid r c.registry) ⟨reg, []⟩ := by
  refine Ker.wp_downTrylock (fun hfree hsem => ?_) (fun hbusy => .none ?_)
  · refine Ker.wp_registry (Ker.wp_deref (fun m hm => ?_) (fun _ => .halt))
    have hno : NoMinor reg free ↔ m.max = NETDEV_MAX_DEVICES ∨ ¬ m.FreeBelow (m.max + 2) := by
      refine ⟨fun h => ?_, fun h => .inr (.inr ⟨m, hm, h⟩)⟩
      rcases h with hbusy | hstuck | ⟨m', hm', h⟩
      · exact nomatch hfree.symm.trans hbusy
      · exact absurd hstuck hsem.2
      · obtain rfl := Option.some.inj (hm.symm.trans hm')
        exact h
    refine Exec.wp_ite (fun hmax => .none (hno.mpr (.inl hmax))) (fun hmax => ?_)
    cases hget : m.get nlpid with
    | error e => exact Ker.wp_up .halt
    | ok got =>
        obtain ⟨o, m'⟩ := got
        refine Ker.wp_modify (Ker.wp_up ?_)
        obtain ⟨hnone, -⟩ := Minors.get_free hget
        cases o with
        | none =>
            have hsame : ({ reg with minors := some m' } : Registry) = reg := by
              rw [(Minors.get_eq hget).1 rfl, ← hm]
            rw [hsame]
            exact .none (hno.mpr (.inr (hnone.mp rfl)))
        | some minor =>
            refine .some (fun h => ?_) ?_
            · rcases hno.mp h with hlimit | hfull
              · exact hmax hlimit
              · exact nomatch hnone.mpr hfull
            · rw [hm, Option.some_inj, Minors.get_same hget]
              refine and_congr_right fun _ => ⟨fun h => ⟨m, hm, h⟩, fun ⟨m₁, hm₁, h⟩ => ?_⟩
              obtain rfl := Option.some.inj (hm.symm.trans hm₁)
              exact h
  · by_contra hno
    obtain ⟨hfree, hstuck⟩ := not_or.mp hno
    refine hbusy ⟨Bool.eq_true_of_not_eq_false hfree, List.not_mem_nil, fun hmem => ?_⟩
    exact hstuck (.inl hmem)

/-! ## Steps of a creation -/

namespace Make

/-- The allocation of `cdev` is the first that fails. -/
def AllocEnv.leaks (env : AllocEnv) : Bool := env.nddata && env.devname && !env.cdev

section Rules
variable {α β : Type} {s : Making} {Q : Except Halt β → Making → Prop}

theorem wp_ker {m : Ker α} {f : α → Make β} {R : Except Halt α → Call → Prop} (h : Exec.wp m R s.call)
    (hok : ∀ a c, R (.ok a) c → Exec.wp (f a) Q { s with call := c })
    (herror : ∀ e c, R (.error e) c → Q (.error e) { s with call := c }) : Exec.wp (ker m >>= f) Q s := by
  refine Exec.wp_bind (R := fun r s' => s' = { s with call := s'.call } ∧ R r s'.call) ⟨rfl, h⟩ ?_ ?_
  · rintro a s' ⟨heq, hr⟩
    rw [heq]
    exact hok a s'.call hr
  · rintro e s' ⟨heq, hr⟩
    rw [heq]
    exact herror e s'.call hr

theorem wp_acquire {kind : ResourceKind} {ok : Bool} {f : Option Resource → Make β}
    (hok : ok = true → Exec.wp (f (some ⟨kind, s.ledger.length⟩)) Q
      { s with ledger := s.ledger ++ [.acquire ⟨kind, s.ledger.length⟩] })
    (hno : ok = false → Exec.wp (f none) Q s) : Exec.wp (acquire kind ok >>= f) Q s := by
  cases ok with
  | false => exact hno rfl
  | true => exact hok rfl

theorem wp_write {size : Nat} {text : Bytes} {f : Unit → Make β}
    (h : Exec.wp (f ()) Q { s with writes := s.writes ++ [⟨size, text ++ [0]⟩] }) :
    Exec.wp (write size text >>= f) Q s := h

/-- What is known of the outcome alone. -/
theorem wp_ker_any {m : Ker α} {f : α → Make β} (hok : ∀ a c, Exec.wp (f a) Q { s with call := c })
    (herror : ∀ e c, Q (.error e) { s with call := c }) : Exec.wp (ker m >>= f) Q s :=
  wp_ker (R := fun _ _ => True) trivial (fun a c _ => hok a c) (fun e c _ => herror e c)

end Rules

/-! ## Allocations -/

section Allocations
variable {env : AllocEnv} {nlpid : Int32} {name : Bytes} {minor : Nat} {c : Call} {ws : List Write}

/-- The pointers of a new device. -/
def pointers (d : DevId) : Pointers :=
  ⟨d, some ⟨.memory, 0⟩, some ⟨.memory, 1⟩, some ⟨.memory, 2⟩, some ⟨.cache, 3⟩⟩

/-- The ledger of a new device. -/
def allocated : Ledger Resource :=
  [.acquire ⟨.memory, 0⟩, .acquire ⟨.memory, 1⟩, .acquire ⟨.memory, 2⟩, .acquire ⟨.cache, 3⟩]

/-- What `ndmgm_free_data` adds to it. -/
def freed : Ledger Resource :=
  [.release ⟨.cache, 3⟩, .release ⟨.memory, 2⟩, .release ⟨.memory, 1⟩, .release ⟨.memory, 0⟩]

/-- The ends of `ndmgm_alloc_data`. -/
inductive Allocated (c : Call) (env : AllocEnv) (nlpid : Int32) (minor : Nat) :
    Except Halt (Option Pointers) → Making → Prop where
  | failed {s : Making} (halloc : env.succeeds = false) (hcall : s.call = c)
      (hledger : s.ledger.Settled ↔ env.leaks = false) : Allocated c env nlpid minor (.ok none) s
  | done {ws : List Write} (halloc : env.succeeds = true) :
      Allocated c env nlpid minor (.ok (some (pointers c.registry.nextDev)))
        ⟨(newDev nlpid true minor c).2, allocated, ws⟩

theorem ndmgmAllocData_spec :
    Exec.wp (ndmgmAllocData env nlpid name minor) (Allocated c env nlpid minor) ⟨c, [], ws⟩ := by
  obtain ⟨nddata, devname, cdev, queuePool⟩ := env
  cases nddata with
  | false => exact .failed rfl rfl (iff_of_true Ledger.settled_nil rfl)
  | true =>
      cases devname with
      | false => exact .failed rfl rfl (iff_of_true (Ledger.settled_singleton _) rfl)
      | true =>
          cases cdev with
          | false =>
              -- `devname` is never released
              have hleaked : ¬ Ledger.Settled [Use.acquire ⟨.memory, 0⟩, .acquire ⟨.memory, 1⟩,
                  .release (⟨.memory, 0⟩ : Resource)] := by decide
              exact .failed rfl rfl (iff_of_false hleaked Bool.noConfusion)
          | true =>
              cases queuePool with
              | false =>
                  have hsettled : Ledger.Settled [Use.acquire ⟨.memory, 0⟩, .acquire ⟨.memory, 1⟩,
                      .acquire ⟨.memory, 2⟩, .release ⟨.memory, 2⟩, .release ⟨.memory, 1⟩,
                      .release (⟨.memory, 0⟩ : Resource)] := by decide
                  exact .failed rfl rfl (iff_of_true hsettled rfl)
              | true => exact .done rfl

end Allocations

/-! ## The ends of the two functions -/

section Creations
variable {reg : Registry} {nlpid : Int32} {name : Bytes}

/-- The ends of `ndmgm_create_dummy`. -/
inductive DummyMade (reg : Registry) (env : DummyEnv) (nlpid : Int32) :
    Except Halt Int32 → Making → Prop where
  | noMinor {s : Making} (hminor : MinorEnd reg env.minor nlpid (.ok none) s.call.registry)
      (hledger : s.ledger = []) : DummyMade reg env nlpid (.ok 1) s
  | halt {s : Making} {e : Halt} : DummyMade reg env nlpid (.error e) s
  | failed {s : Making} {reg' : Registry} {minor : Nat} {n : Int32}
      (hminor : MinorEnd reg env.minor nlpid (.ok (some minor)) reg')
      (hminors : s.call.registry.minors = reg'.minors)
      (htable : s.call.registry.netdevHtable = reg'.netdevHtable)
      (hledger : s.ledger.Settled ↔ env.alloc.leaks = false) : DummyMade reg env nlpid (.ok n) s
  | made {s : Making} : DummyMade reg env nlpid (.ok 0) s

theorem leaks_of_succeeds {env : AllocEnv} (h : env.succeeds = true) : env.leaks = false := by
  obtain ⟨nddata, devname, cdev, queuePool⟩ := env
  revert nddata devname cdev queuePool
  decide

theorem ndmgmCreateDummy_spec (env : DummyEnv) :
    Exec.wp (ndmgmCreateDummy env nlpid name) (DummyMade reg env nlpid) (.start reg) := by
  refine wp_ker (ndmgmGetMinor_ends reg env.minor nlpid) ?_ (fun _ _ _ => .halt)
  intro minor c hminor
  cases minor with
  | none => exact .noMinor hminor rfl
  | some minor =>
      refine Exec.wp_bind ndmgmAllocData_spec ?_ (fun e s hs => nomatch hs)
      intro p s hs
      cases hs with
      | failed halloc hcall hledger =>
          subst hcall
          exact .failed hminor rfl rfl hledger
      | @done ws halloc =>
          have hleaks := leaks_of_succeeds halloc
          refine wp_acquire (fun hcdev => ?_) (fun hcdev => ?_)
          · refine Exec.wp_ite (fun hne => absurd (of_decide_eq_true hcdev) hne) (fun _ => ?_)
            refine wp_acquire (fun hdevice => ?_) (fun hdevice => ?_)
            · refine Exec.wp_ite (fun hne => absurd (of_decide_eq_true hdevice) hne) (fun _ => ?_)
              exact wp_ker_any (fun _ _ => .made) (fun _ _ => .halt)
            · refine Exec.wp_ite (fun hne => ?_) (fun heq => absurd (not_not.mp heq) (of_decide_eq_false hdevice))
              have hsettled : Ledger.Settled (allocated ++ [.acquire ⟨.cdev, 4⟩, .release ⟨.cdev, 4⟩] ++ freed) := by
                decide
              exact .failed hminor rfl rfl (iff_of_true hsettled hleaks)
          · refine Exec.wp_ite (fun hne => ?_) (fun heq => absurd (not_not.mp heq) (of_decide_eq_false hcdev))
            have hsettled : Ledger.Settled (allocated ++ freed) := by decide
            exact .failed hminor rfl rfl (iff_of_true hsettled hleaks)

/-- The ends of `ndmgm_create_server`. -/
inductive ServerMade (reg : Registry) : Except Halt Int32 → Making → Prop where
  | halt {s : Making} {e : Halt} : ServerMade reg (.error e) s
  | failed {s : Making} {n : Int32} (hcall : s.call = ⟨reg, []⟩) (hledger : s.ledger.Settled) :
      ServerMade reg (.ok n) s
  | made {s : Making} : ServerMade reg (.ok 0) s

theorem ndmgmCreateServer_spec (env : ServerEnv) :
    Exec.wp (ndmgmCreateServer env nlpid name) (ServerMade reg) (.start reg) := by
  refine wp_write (wp_acquire (fun _ => ?_) (fun _ => ?_))
  · refine wp_acquire (fun _ => ?_) (fun _ => ?_)
    · refine wp_acquire (fun _ => ?_) (fun _ => ?_)
      · exact wp_write (wp_ker_any (fun _ _ => wp_ker_any (fun _ _ => .made) (fun _ _ => .halt))
          (fun _ _ => .halt))
      · have hsettled : Ledger.Settled [Use.acquire ⟨.memory, 0⟩, .acquire ⟨.memory, 1⟩,
            .release ⟨.memory, 1⟩, .release (⟨.memory, 0⟩ : Resource)] := by decide
        exact .failed rfl hsettled
    · exact .failed rfl (Ledger.settled_singleton _)
  · exact .failed rfl Ledger.settled_nil

end Creations

end Make

/-! ## Creation is not all or nothing -/

/-- After a failed call the minors and the table are as before, and all that the call
acquired has been released exactly once. -/
structure AllOrNothing (reg : Registry) (s : Making) : Prop where
  minors : s.call.registry.minors = reg.minors
  table : s.call.registry.netdevHtable = reg.netdevHtable
  released : s.ledger.Settled

/-- In every state of the registry, and wherever they fail, `ndmgm_create_server` leaves
nothing behind, and `ndmgm_create_dummy` when it has got no minor, or one that shows no
change and no buffer. -/
theorem creation_fails_iff (reg : Registry) (nlpid : Int32) (name : Bytes) :
    (∀ env n s, Make.ndmgmCreateDummy env nlpid name (.start reg) = (.ok n, s) → n ≠ 0 →
      (AllOrNothing reg s ↔ NoMinor reg env.minor ∨ MinorUnchanged reg nlpid ∧ env.alloc.leaks = false)) ∧
    ∀ env n s, Make.ndmgmCreateServer env nlpid name (.start reg) = (.ok n, s) → n ≠ 0 →
      AllOrNothing reg s := by
  refine ⟨fun env n s hcall hn => ?_, fun env n s hcall hn => ?_⟩
  · have hends := @Make.ndmgmCreateDummy_spec reg nlpid name env
    rw [Exec.wp, hcall] at hends
    generalize hr : (Except.ok n, s).1 = r at hends
    cases hends with
    | halt => cases hr
    | made => exact absurd (Except.ok.inj hr) hn
    | noMinor hminor hledger =>
        generalize hreg : (Except.ok n, s).2.call.registry = reg' at hminor
        cases hminor with
        | none hno =>
            refine iff_of_true ⟨?_, ?_, ?_⟩ (.inl hno)
            · exact congrArg Registry.minors hreg
            · exact congrArg Registry.netdevHtable hreg
            · exact hledger ▸ Ledger.settled_nil
    | failed hminor hminors htable hledger =>
        cases hminor with
        | some hno hsame =>
            refine ⟨fun h => .inr ⟨hsame.mp ?_, hledger.mp h.released⟩, fun h => ?_⟩
            · exact hminors.symm.trans h.minors
            · obtain ⟨hunchanged, hleaks⟩ := h.resolve_left hno
              exact ⟨hminors.trans (hsame.mpr hunchanged), htable, hledger.mpr hleaks⟩
  · have hends := @Make.ndmgmCreateServer_spec reg nlpid name env
    rw [Exec.wp, hcall] at hends
    generalize hr : (Except.ok n, s).1 = r at hends
    cases hends with
    | halt => cases hr
    | made => exact absurd (Except.ok.inj hr) hn
    | failed hsame hsettled =>
        refine ⟨?_, ?_, hsettled⟩
        · rw [hsame]
        · rw [hsame]

/-- `device_create` fails for the first device of the daemon 7. -/
theorem creation_fails_iff_device : ∃ s,
    Make.ndmgmCreateDummy ⟨true, .all, 0, -12⟩ 7 [110] (.start (.prepare Sample.hashMin Sample.requests)) =
      (.ok (-12), s) ∧
    (AllOrNothing (.prepare Sample.hashMin Sample.requests) s ↔
      NoMinor (.prepare Sample.hashMin Sample.requests) true ∨
        MinorUnchanged (.prepare Sample.hashMin Sample.requests) 7 ∧ Make.AllocEnv.all.leaks = false) :=
  ⟨_, rfl, (creation_fails_iff _ 7 [110]).1 ⟨true, .all, 0, -12⟩ (-12) _ rfl (by decide)⟩

/-- The allocation of `cdev` fails: the daemon 7 owns minor 0, and the buffer of the name
is lost. -/
theorem creation_leaks : ∃ s,
    Make.ndmgmCreateDummy ⟨true, { Make.AllocEnv.all with cdev := false }, 0, 0⟩ 7 [110]
      (.start (.prepare Sample.hashMin Sample.requests)) = (.ok 1, s) ∧
    s.call.registry.minors ≠ (Registry.prepare Sample.hashMin Sample.requests).minors ∧
    ¬ s.ledger.Settled ∧ ¬ AllOrNothing (.prepare Sample.hashMin Sample.requests) s := by
  have hleaked : ¬ Ledger.Settled [Use.acquire ⟨.memory, 0⟩, .acquire ⟨.memory, 1⟩,
    .release (⟨.memory, 0⟩ : Resource)] := by decide
  refine ⟨_, rfl, fun h => ?_, hleaked, fun h => hleaked h.released⟩
  have hfirst := congrArg (Option.map fun m => m.used[0]?) h
  exact absurd hfirst (by decide)

end Netdev.Kernel
