-- SUMMARY: Well-formed registries, and what each change of the registry does to the balance between counters and references.
import Mathlib.Algebra.Group.Pi.Lemmas
import Netdev.Kernel.Registry

/-!
# Counting references

The counter of a device should be the number of its references: one for the table
of devices, one for each open file, one for each thread that took one. `surplus` is
the counter less the first two. A change of the registry is balanced by `δ` when it
adds `δ d` to the surplus of every device `d` that it leaves alive.
-/

namespace Netdev.Kernel
open Base

namespace Registry

/-! ## Well-formed registries -/

/-- Tables without duplicates, whose entries are exactly the open files that exist. -/
structure Wf (reg : Registry) : Prop where
  devs_lt : ∀ d, reg.devs d ≠ none → d < reg.nextDev
  table_lt : ∀ d ∈ reg.netdevHtable.values, d < reg.nextDev
  table_nodup : reg.netdevHtable.values.Nodup
  accs_lt : ∀ a, reg.accs a ≠ none → a.id < reg.nextAcc ∧ a.nddata < reg.nextDev
  files_nodup : ∀ d nddata, reg.devs d = some nddata → nddata.foaccHtable.values.Nodup
  mem_files : ∀ d nddata, reg.devs d = some nddata → ∀ a,
    a ∈ nddata.foaccHtable.values ↔ a.nddata = d ∧ reg.accs a ≠ none
  queued : ∀ a data, reg.accs a = some data → ∃ ps, data.queue.Queued ps

theorem prepare_wf (hashMin : UInt32 → Fin 32) (reqs : Requests) : (prepare hashMin reqs).Wf where
  devs_lt _ h := absurd rfl h
  table_lt _ h := (List.not_mem_nil h).elim
  table_nodup := List.nodup_nil
  accs_lt _ h := absurd rfl h
  files_nodup _ _ h := nomatch h
  mem_files _ _ h := nomatch h
  queued _ _ h := nomatch h

/-! ## The balance -/

/-- The references that a registry knows of. -/
def references (reg : Registry) (d : DevId) (nddata : NetdevData) : Int :=
  (if d ∈ reg.netdevHtable.values then 1 else 0) + nddata.foaccHtable.values.length

def surplus (reg : Registry) (d : DevId) (nddata : NetdevData) : Int :=
  nddata.users - reg.references d nddata

/-- From `reg` to `reg'` the surplus of each device changes by `δ`; devices may go,
and new ones come with the surplus that `δ` says. -/
structure Balanced (reg reg' : Registry) (δ : DevId → Int) : Prop where
  wf : reg'.Wf
  nextDev : reg.nextDev ≤ reg'.nextDev
  surplus : ∀ d nddata', reg'.devs d = some nddata' →
    (∃ nddata, reg.devs d = some nddata ∧ reg'.surplus d nddata' = reg.surplus d nddata + δ d) ∨
      (reg.nextDev ≤ d ∧ reg'.surplus d nddata' = δ d)
  delta_lt : ∀ d, δ d ≠ 0 → d < reg'.nextDev

namespace Balanced
variable {reg reg' reg'' : Registry} {δ ε : DevId → Int}

theorem trans (h : Balanced reg reg' δ) (h' : Balanced reg' reg'' ε) :
    Balanced reg reg'' (δ + ε) where
  wf := h'.wf
  nextDev := h.nextDev.trans h'.nextDev
  surplus := by
    intro d nddata'' hd''
    rcases h'.surplus d nddata'' hd'' with ⟨nddata', hd', hs'⟩ | ⟨hnew, hs'⟩
    · rcases h.surplus d nddata' hd' with ⟨nddata, hd, hs⟩ | ⟨hnew, hs⟩
      · refine .inl ⟨nddata, hd, ?_⟩
        rw [hs', hs, Pi.add_apply, add_assoc]
      · refine .inr ⟨hnew, ?_⟩
        rw [hs', hs, Pi.add_apply]
    · have hzero : δ d = 0 := by
        by_contra hne
        exact absurd (h.delta_lt d hne) (Nat.not_lt.mpr hnew)
      refine .inr ⟨h.nextDev.trans hnew, ?_⟩
      rw [hs', Pi.add_apply, hzero, zero_add]
  delta_lt := by
    intro d hne
    by_cases hδ : δ d = 0
    · exact h'.delta_lt d fun hε => hne (by rw [Pi.add_apply, hδ, hε, add_zero])
    · exact (h.delta_lt d hδ).trans_le h'.nextDev

theorem trans_zero (h : Balanced reg reg' δ) (h' : Balanced reg' reg'' 0) :
    Balanced reg reg'' δ := by
  have htrans := h.trans h'
  rwa [add_zero] at htrans

theorem zero_trans (h : Balanced reg reg' 0) (h' : Balanced reg' reg'' δ) :
    Balanced reg reg'' δ := by
  have htrans := h.trans h'
  rwa [zero_add] at htrans

/-- Two changes of the surplus of one device. -/
theorem trans_single {d : DevId} {m n z : Int} (h : Balanced reg reg' (Pi.single d m))
    (h' : Balanced reg' reg'' (Pi.single d n)) (hz : m + n = z) :
    Balanced reg reg'' (Pi.single d z) := by
  have htrans := h.trans h'
  rwa [← Pi.single_add, hz] at htrans

/-- A device that is gone has no surplus. -/
theorem single_dead {d : DevId} {z : Int} (h : Balanced reg reg' (Pi.single d z))
    (hd : reg'.devs d = none) : Balanced reg reg' 0 where
  wf := h.wf
  nextDev := h.nextDev
  surplus := by
    intro e nddata' he
    have hne : e ≠ d := by
      rintro rfl
      exact nomatch hd.symm.trans he
    have hsurplus := h.surplus e nddata' he
    rwa [Pi.single_eq_of_ne hne] at hsurplus
  delta_lt _ hne := absurd rfl hne

/-- Changes that touch neither devices nor open files nor the table. -/
theorem of_eq (h : reg.Wf) (hdevs : reg'.devs = reg.devs) (haccs : reg'.accs = reg.accs)
    (htable : reg'.netdevHtable = reg.netdevHtable) (hdev : reg'.nextDev = reg.nextDev)
    (hacc : reg'.nextAcc = reg.nextAcc) : Balanced reg reg' 0 where
  wf :=
    { devs_lt := by rw [hdevs, hdev]; exact h.devs_lt
      table_lt := by rw [htable, hdev]; exact h.table_lt
      table_nodup := by rw [htable]; exact h.table_nodup
      accs_lt := by rw [haccs, hacc, hdev]; exact h.accs_lt
      files_nodup := by rw [hdevs]; exact h.files_nodup
      mem_files := by rw [hdevs, haccs]; exact h.mem_files
      queued := by rw [haccs]; exact h.queued }
  nextDev := hdev.ge
  surplus := by
    intro d nddata hd
    refine .inl ⟨nddata, hdevs ▸ hd, ?_⟩
    rw [Registry.surplus, Registry.surplus, references, references, htable, Pi.zero_apply, add_zero]
  delta_lt _ hne := absurd rfl hne

theorem refl (h : reg.Wf) : Balanced reg reg 0 := of_eq h rfl rfl rfl rfl rfl

end Balanced

/-! ## The changes -/

variable {reg : Registry} {d : DevId} {nddata : NetdevData}

/-- New values for the fields of a device other than its table of open files. -/
theorem balanced_setDev (h : reg.Wf) (hd : reg.devs d = some nddata) {nddata' : NetdevData} {z : Int}
    (hfiles : nddata'.foaccHtable = nddata.foaccHtable) (husers : nddata'.users = nddata.users + z) :
    Balanced reg (reg.setDev d nddata') (Pi.single d z) := by
  have hlt : d < reg.nextDev := h.devs_lt d (by rw [hd]; exact Option.some_ne_none _)
  have hold : ∀ e nddata'', (reg.setDev d nddata').devs e = some nddata'' →
      ∃ old, reg.devs e = some old ∧ nddata''.foaccHtable = old.foaccHtable ∧
        nddata''.users = old.users + (Pi.single d z : DevId → Int) e := by
    intro e nddata'' he
    by_cases heq : e = d
    · subst heq
      rw [setDev_self] at he
      obtain rfl := Option.some.inj he
      exact ⟨nddata, hd, hfiles, by rw [husers, Pi.single_eq_same]⟩
    · rw [setDev_of_ne _ _ heq] at he
      exact ⟨nddata'', he, rfl, by rw [Pi.single_eq_of_ne heq, add_zero]⟩
  refine ⟨⟨fun e he => ?_, h.table_lt, h.table_nodup, h.accs_lt, fun e nddata'' he => ?_,
    fun e nddata'' he => ?_, h.queued⟩, le_rfl, fun e nddata'' he => .inl ?_, fun e hne => ?_⟩
  · obtain ⟨nddata'', he'⟩ := Option.ne_none_iff_exists'.mp he
    obtain ⟨old, hold, -, -⟩ := hold e nddata'' he'
    exact h.devs_lt e (by rw [hold]; exact Option.some_ne_none _)
  · obtain ⟨old, hold, hsame, -⟩ := hold e nddata'' he
    exact hsame ▸ h.files_nodup e old hold
  · obtain ⟨old, hold, hsame, -⟩ := hold e nddata'' he
    exact hsame ▸ h.mem_files e old hold
  · obtain ⟨old, hold, hsame, husers⟩ := hold e nddata'' he
    refine ⟨old, hold, ?_⟩
    change nddata''.users - ((if e ∈ reg.netdevHtable.values then 1 else 0) + _) = _
    rw [hsame, husers, surplus, references]
    omega
  · by_cases heq : e = d
    · exact heq ▸ hlt
    · exact absurd (Pi.single_eq_of_ne heq _) hne

/-- `active` and `curseq`. -/
theorem balanced_setDev_users (h : reg.Wf) (hd : reg.devs d = some nddata) {nddata' : NetdevData}
    (hfiles : nddata'.foaccHtable = nddata.foaccHtable) (husers : nddata'.users = nddata.users) :
    Balanced reg (reg.setDev d nddata') 0 := by
  have hset := balanced_setDev h hd hfiles (husers.trans (add_zero _).symm)
  rwa [Pi.single_zero] at hset

/-- The table loses its reference without a change of the counter. -/
theorem balanced_unhash (h : reg.Wf) (d : DevId) :
    Balanced reg (reg.unhash d) (if d ∈ reg.netdevHtable.values then (Pi.single d 1 : DevId → Int) else 0) := by
  have hmem : ∀ e, e ∈ (reg.unhash d).netdevHtable.values ↔ e ∈ reg.netdevHtable.values ∧ e ≠ d :=
    fun e => Hashtable.mem_values_del
  refine ⟨⟨h.devs_lt, fun e he => h.table_lt e ((hmem e).mp he).1, ?_, h.accs_lt, h.files_nodup,
    h.mem_files, h.queued⟩, le_rfl, fun e nddata he => .inl ⟨nddata, he, ?_⟩, fun e hne => ?_⟩
  · rw [unhash, Hashtable.values_del]
    exact h.table_nodup.filter _
  · rw [surplus, surplus, references, references]
    by_cases heq : e = d
    · subst heq
      have hout : e ∉ (reg.unhash e).netdevHtable.values := fun he => ((hmem e).mp he).2 rfl
      by_cases hin : e ∈ reg.netdevHtable.values
      · rw [if_neg hout, if_pos hin, if_pos hin, Pi.single_eq_same]
        omega
      · rw [if_neg hout, if_neg hin, if_neg hin, Pi.zero_apply]
        omega
    · have hsame : (if e ∈ (reg.unhash d).netdevHtable.values then (1 : Int) else 0)
          = if e ∈ reg.netdevHtable.values then 1 else 0 :=
        if_congr ((hmem e).trans (and_iff_left heq)) rfl rfl
      have hzero : (if d ∈ reg.netdevHtable.values then (Pi.single d 1 : DevId → Int) else 0) e = 0 := by
        by_cases hin : d ∈ reg.netdevHtable.values
        · rw [if_pos hin, Pi.single_eq_of_ne heq]
        · rw [if_neg hin, Pi.zero_apply]
      rw [hsame, hzero, add_zero]
  · by_cases hin : d ∈ reg.netdevHtable.values
    · rw [if_pos hin] at hne
      by_cases heq : e = d
      · exact heq ▸ h.table_lt d hin
      · exact absurd (Pi.single_eq_of_ne heq _) hne
    · rw [if_neg hin] at hne
      exact absurd rfl hne

/-- A freed device has no balance any more. -/
theorem balanced_freeDev (h : reg.Wf) (d : DevId) : Balanced reg (reg.freeDev d) 0 := by
  have hold : ∀ {e nddata}, (reg.freeDev d).devs e = some nddata → reg.devs e = some nddata := by
    intro e nddata he
    by_cases heq : e = d
    · subst heq
      rw [freeDev_self] at he
      exact nomatch he
    · rwa [freeDev_of_ne _ heq] at he
  refine ⟨⟨fun e he => ?_, h.table_lt, h.table_nodup, h.accs_lt,
    fun e nddata he => h.files_nodup e nddata (hold he),
    fun e nddata he => h.mem_files e nddata (hold he), h.queued⟩, le_rfl,
    fun e nddata he => .inl ⟨nddata, hold he, (add_zero _).symm⟩, fun _ hne => absurd rfl hne⟩
  obtain ⟨nddata, he'⟩ := Option.ne_none_iff_exists'.mp he
  exact h.devs_lt e (by rw [hold he']; exact Option.some_ne_none _)

/-- New content of an open file. -/
theorem balanced_setAcc (h : reg.Wf) {a : AccRef} (ha : reg.accs a ≠ none) {data : Acc}
    {ps : List Addr} (hqueued : data.queue.Queued ps) : Balanced reg (reg.setAcc a data) 0 := by
  have hsame : ∀ b, (reg.setAcc a data).accs b ≠ none ↔ reg.accs b ≠ none := by
    intro b
    by_cases heq : b = a
    · subst heq
      rw [setAcc_self]
      exact iff_of_true (Option.some_ne_none _) ha
    · rw [setAcc_of_ne _ _ heq]
  refine ⟨⟨h.devs_lt, h.table_lt, h.table_nodup, fun b hb => h.accs_lt b ((hsame b).mp hb),
    h.files_nodup, fun e nddata he b => ?_, fun b data' hb => ?_⟩, le_rfl,
    fun e nddata he => .inl ⟨nddata, he, (add_zero _).symm⟩, fun _ hne => absurd rfl hne⟩
  · rw [h.mem_files e nddata he b, hsame b]
  · by_cases heq : b = a
    · subst heq
      rw [setAcc_self] at hb
      obtain rfl := Option.some.inj hb
      exact ⟨ps, hqueued⟩
    · rw [setAcc_of_ne _ _ heq] at hb
      exact h.queued b data' hb

/-! ## Open files -/

@[simp] theorem setDev_setDev (reg : Registry) (d : DevId) (nddata nddata' : NetdevData) :
    (reg.setDev d nddata).setDev d nddata' = reg.setDev d nddata' := by
  simp only [setDev, Function.update_idem]

/-- The devices after `d` and its open files have changed. -/
theorem devs_of_setDev {reg' : Registry} {nddata' : NetdevData}
    (hdevs : reg'.devs = (reg.setDev d nddata').devs) {e : DevId} {x : NetdevData}
    (he : reg'.devs e = some x) : (e = d ∧ x = nddata') ∨ (e ≠ d ∧ reg.devs e = some x) := by
  rw [hdevs] at he
  by_cases heq : e = d
  · subst heq
    rw [setDev_self] at he
    exact .inl ⟨rfl, (Option.some.inj he).symm⟩
  · rw [setDev_of_ne _ _ heq] at he
    exact .inr ⟨heq, he⟩

/-- A change of a device together with its table of open files and the open files
that exist. -/
theorem balanced_files (h : reg.Wf) (hd : reg.devs d = some nddata) {reg' : Registry}
    {nddata' : NetdevData} {z : Int} (hdevs : reg'.devs = (reg.setDev d nddata').devs)
    (htable : reg'.netdevHtable = reg.netdevHtable) (hdev : reg'.nextDev = reg.nextDev)
    (haccs : ∀ a, reg'.accs a ≠ none → a.id < reg'.nextAcc ∧ a.nddata < reg.nextDev)
    (hothers : ∀ a, a.nddata ≠ d → (reg'.accs a ≠ none ↔ reg.accs a ≠ none))
    (hqueued : ∀ a data, reg'.accs a = some data → ∃ ps, data.queue.Queued ps)
    (hnodup : nddata'.foaccHtable.values.Nodup)
    (hfiles : ∀ a, a ∈ nddata'.foaccHtable.values ↔ a.nddata = d ∧ reg'.accs a ≠ none)
    (hcount : nddata'.users - nddata'.foaccHtable.values.length
      = nddata.users - nddata.foaccHtable.values.length + z) :
    Balanced reg reg' (Pi.single d z) := by
  have hlt : d < reg.nextDev := h.devs_lt d (by rw [hd]; exact Option.some_ne_none _)
  refine ⟨⟨fun e he => ?_, ?_, ?_, ?_, fun e x he => ?_, fun e x he a => ?_, hqueued⟩, hdev.ge,
    fun e x he => .inl ?_, fun e hne => ?_⟩
  · obtain ⟨x, hx⟩ := Option.ne_none_iff_exists'.mp he
    rw [hdev]
    rcases devs_of_setDev hdevs hx with ⟨rfl, -⟩ | ⟨-, hold⟩
    · exact hlt
    · exact h.devs_lt e (by rw [hold]; exact Option.some_ne_none _)
  · rw [htable, hdev]
    exact h.table_lt
  · rw [htable]
    exact h.table_nodup
  · rw [hdev]
    exact haccs
  · rcases devs_of_setDev hdevs he with ⟨-, rfl⟩ | ⟨-, hold⟩
    · exact hnodup
    · exact h.files_nodup e x hold
  · rcases devs_of_setDev hdevs he with ⟨rfl, rfl⟩ | ⟨hne, hold⟩
    · exact hfiles a
    · rw [h.mem_files e x hold a]
      refine and_congr_right fun hae => (hothers a ?_).symm
      rw [hae]
      exact hne
  · rcases devs_of_setDev hdevs he with ⟨rfl, rfl⟩ | ⟨hne, hold⟩
    · refine ⟨nddata, hd, ?_⟩
      rw [surplus, surplus, references, references, htable, Pi.single_eq_same]
      omega
    · refine ⟨x, hold, ?_⟩
      rw [surplus, surplus, references, references, htable, Pi.single_eq_of_ne hne, add_zero]
  · by_cases heq : e = d
    · rw [heq, hdev]
      exact hlt
    · exact absurd (Pi.single_eq_of_ne heq _) hne

/-- A new open file of a live device. -/
theorem balanced_startAcc (h : reg.Wf) (hd : reg.devs d = some nddata) {key : UInt32} {data : Acc}
    {ps : List Addr} (hqueued : data.queue.Queued ps) :
    Balanced reg
      ((({ reg with nextAcc := reg.nextAcc + 1 } : Registry).setAcc ⟨reg.nextAcc, d⟩ data).setDev d
        { nddata with foaccHtable := nddata.foaccHtable.add key ⟨reg.nextAcc, d⟩ })
      (Pi.single d (-1)) := by
  have hlt : d < reg.nextDev := h.devs_lt d (by rw [hd]; exact Option.some_ne_none _)
  have hfresh : reg.accs ⟨reg.nextAcc, d⟩ = none := by
    by_contra hne
    exact absurd (h.accs_lt _ hne).1 (Nat.lt_irrefl _)
  have hnew : (⟨reg.nextAcc, d⟩ : AccRef) ∉ nddata.foaccHtable.values := fun hmem =>
    ((h.mem_files d nddata hd _).mp hmem).2 hfresh
  have hold : ∀ b : AccRef, b ≠ ⟨reg.nextAcc, d⟩ →
      Function.update reg.accs ⟨reg.nextAcc, d⟩ (some data) b = reg.accs b := fun b hb =>
    Function.update_of_ne hb ..
  have hself : Function.update reg.accs ⟨reg.nextAcc, d⟩ (some data) ⟨reg.nextAcc, d⟩ = some data :=
    Function.update_self ..
  refine balanced_files h hd rfl rfl rfl (fun b hb => ?_) (fun b hb => ?_) (fun b x hb => ?_) ?_
    (fun b => ?_) ?_
  · by_cases heq : b = ⟨reg.nextAcc, d⟩
    · subst heq
      exact ⟨Nat.lt_succ_self _, hlt⟩
    · have hb' := h.accs_lt b ((hold b heq).symm.trans_ne hb)
      exact ⟨Nat.lt_succ_of_lt hb'.1, hb'.2⟩
  · have hne : b ≠ ⟨reg.nextAcc, d⟩ := fun heq => hb (by rw [heq])
    exact iff_of_eq (congrArg (· ≠ none) (hold b hne))
  · by_cases heq : b = ⟨reg.nextAcc, d⟩
    · subst heq
      obtain rfl := Option.some.inj (hself.symm.trans hb)
      exact ⟨ps, hqueued⟩
    · exact h.queued b x ((hold b heq).symm.trans hb)
  · rw [Hashtable.values_add]
    exact List.nodup_cons.mpr ⟨hnew, h.files_nodup d nddata hd⟩
  · rw [Hashtable.values_add, List.mem_cons]
    change _ ↔ b.nddata = d ∧ Function.update reg.accs ⟨reg.nextAcc, d⟩ (some data) b ≠ none
    by_cases heq : b = ⟨reg.nextAcc, d⟩
    · subst heq
      rw [hself]
      exact iff_of_true (.inl rfl) ⟨rfl, Option.some_ne_none _⟩
    · rw [hold b heq, h.mem_files d nddata hd b]
      exact or_iff_right heq
  · rw [Hashtable.values_add, List.length_cons]
    push_cast
    omega

/-- An open file that is closed. -/
theorem balanced_destroyAcc (h : reg.Wf) {a : AccRef} (ha : reg.accs a ≠ none)
    (hd : reg.devs a.nddata = some nddata) {nddata' : NetdevData} {z : Int}
    (hfiles : nddata'.foaccHtable = nddata.foaccHtable.del a)
    (husers : nddata'.users + 1 = nddata.users + z) :
    Balanced reg ((reg.setDev a.nddata nddata').freeAcc a) (Pi.single a.nddata z) := by
  have hmem : a ∈ nddata.foaccHtable.values := (h.mem_files _ nddata hd a).mpr ⟨rfl, ha⟩
  have hnodup := h.files_nodup _ nddata hd
  have hold : ∀ b : AccRef, b ≠ a → Function.update reg.accs a none b = reg.accs b := fun b hb =>
    Function.update_of_ne hb ..
  have hself : Function.update reg.accs a none a = none := Function.update_self ..
  have hlive : ∀ b, Function.update reg.accs a none b ≠ none ↔ b ≠ a ∧ reg.accs b ≠ none := by
    intro b
    by_cases heq : b = a
    · subst heq
      rw [hself]
      exact iff_of_false (fun hne => hne rfl) (fun hne => hne.1 rfl)
    · rw [hold b heq]
      exact (and_iff_right heq).symm
  refine balanced_files h hd rfl rfl rfl (fun b hb => h.accs_lt b ((hlive b).mp hb).2)
    (fun b hb => ?_) (fun b x hb => ?_) ?_ (fun b => ?_) ?_
  · exact (hlive b).trans (and_iff_right fun heq => hb (by rw [heq]))
  · have hne : b ≠ a := fun heq => by
      subst heq
      exact nomatch hself.symm.trans hb
    exact h.queued b x ((hold b hne).symm.trans hb)
  · rw [hfiles, Hashtable.values_del]
    exact hnodup.filter _
  · rw [hfiles, Hashtable.mem_values_del, h.mem_files _ nddata hd b]
    exact ⟨fun hb => ⟨hb.1.1, (hlive b).mpr ⟨hb.2, hb.1.2⟩⟩,
      fun hb => ⟨⟨hb.1, ((hlive b).mp hb.2).2⟩, ((hlive b).mp hb.2).1⟩⟩
  · have hlen := Hashtable.length_values_del hnodup hmem
    rw [hfiles]
    omega

/-! ## New devices -/

/-- Memory for a new device, without open files and in no table. -/
theorem balanced_newDev (h : reg.Wf) (hfiles : nddata.foaccHtable = .empty)
    (husers : nddata.users = 0) :
    Balanced reg (({ reg with nextDev := reg.nextDev + 1 } : Registry).setDev reg.nextDev nddata)
      0 := by
  have hdev : ∀ {e x}, (({ reg with nextDev := reg.nextDev + 1 } : Registry).setDev reg.nextDev
      nddata).devs e = some x → (e = reg.nextDev ∧ x = nddata) ∨ (e ≠ reg.nextDev ∧ reg.devs e = some x) :=
    fun he => devs_of_setDev rfl he
  have hout : reg.nextDev ∉ reg.netdevHtable.values := fun hmem =>
    Nat.lt_irrefl _ (h.table_lt _ hmem)
  refine ⟨⟨fun e he => ?_, fun e he => Nat.lt_succ_of_lt (h.table_lt e he), h.table_nodup,
    fun a ha => ?_, fun e x he => ?_, fun e x he a => ?_, h.queued⟩, Nat.le_succ _, fun e x he => ?_,
    fun _ hne => absurd rfl hne⟩
  · obtain ⟨x, hx⟩ := Option.ne_none_iff_exists'.mp he
    rcases hdev hx with ⟨rfl, -⟩ | ⟨-, hold⟩
    · exact Nat.lt_succ_self _
    · exact Nat.lt_succ_of_lt (h.devs_lt e (by rw [hold]; exact Option.some_ne_none _))
  · exact ⟨(h.accs_lt a ha).1, Nat.lt_succ_of_lt (h.accs_lt a ha).2⟩
  · rcases hdev he with ⟨-, rfl⟩ | ⟨-, hold⟩
    · rw [hfiles]
      exact List.nodup_nil
    · exact h.files_nodup e x hold
  · rcases hdev he with ⟨rfl, rfl⟩ | ⟨-, hold⟩
    · rw [hfiles]
      refine iff_of_false List.not_mem_nil fun ha => ?_
      exact Nat.lt_irrefl _ (ha.1 ▸ (h.accs_lt a ha.2).2)
    · exact h.mem_files e x hold a
  · rcases hdev he with ⟨rfl, rfl⟩ | ⟨-, hold⟩
    · refine .inr ⟨le_rfl, ?_⟩
      change x.users - ((if reg.nextDev ∈ reg.netdevHtable.values then 1 else 0) +
        (x.foaccHtable.values.length : Int)) = 0
      rw [husers, hfiles, if_neg hout]
      rfl
    · exact .inl ⟨x, hold, (add_zero _).symm⟩

theorem balanced_hash (h : reg.Wf) (hd : d < reg.nextDev) (hnew : d ∉ reg.netdevHtable.values)
    (key : UInt32) :
    Balanced reg { reg with netdevHtable := reg.netdevHtable.add key d } (Pi.single d (-1)) := by
  refine ⟨⟨h.devs_lt, fun e he => ?_, List.nodup_cons.mpr ⟨hnew, h.table_nodup⟩, h.accs_lt,
    h.files_nodup, h.mem_files, h.queued⟩, le_rfl, fun e x he => .inl ⟨x, he, ?_⟩, fun e hne => ?_⟩
  · rcases List.mem_cons.mp he with rfl | he
    · exact hd
    · exact h.table_lt e he
  · rw [surplus, surplus, references, references, Hashtable.values_add]
    by_cases heq : e = d
    · subst heq
      rw [if_pos List.mem_cons_self, if_neg hnew, Pi.single_eq_same]
      omega
    · rw [if_congr (List.mem_cons.trans (or_iff_right heq)) rfl rfl, Pi.single_eq_of_ne heq, add_zero]
  · by_cases heq : e = d
    · exact heq ▸ hd
    · exact absurd (Pi.single_eq_of_ne heq _) hne

end Registry

end Netdev.Kernel
