-- SUMMARY: The strings of a configuration entry in all the buffers that they are written to, from `sscanf` to the kernel.
import Netdev.Daemon.Config
import Netdev.Kernel.AllOrNothing

/-!
# Device names and their buffers

`sscanf` stores up to twenty characters and a null in a buffer of twenty bytes. The kernel puts
a prefix before the names of its pools, and another one before the name of a dummy device, for
which its buffer has no room.
-/

namespace Netdev.Kernel
open Base

namespace Make

/-! ## Calls that write no string -/

/-- `m` writes no string. -/
def Quiet {α : Type} (m : Make α) : Prop := ∀ s, (m s).2.writes = s.writes

namespace Quiet
variable {α β : Type} {m m' : Make α} {f : α → Make β}

theorem pure (a : α) : Quiet (Pure.pure a) := fun _ => rfl

theorem ker (k : Ker α) : Quiet (Make.ker k) := fun _ => rfl

theorem acquire (kind : ResourceKind) (ok : Bool) : Quiet (Make.acquire kind ok) := by
  cases ok with
  | false => exact fun _ => rfl
  | true => exact fun _ => rfl

theorem release (r : Option Resource) : Quiet (Make.release r) := by
  cases r with
  | none => exact fun _ => rfl
  | some r => exact fun _ => rfl

/-- Nothing is written after `m`. -/
theorem after (hf : ∀ a, Quiet (f a)) (s : Making) : ((m >>= f) s).2.writes = (m s).2.writes := by
  cases hm : m s with
  | mk r s' =>
      cases r with
      | ok a =>
          rw [Exec.bind_ok hm]
          exact hf a s'
      | error e => rw [Exec.bind_error hm]

theorem bind (hm : Quiet m) (hf : ∀ a, Quiet (f a)) : Quiet (m >>= f) := by
  intro s
  rw [after hf]
  exact hm s

theorem ite {p : Prop} [Decidable p] (h : Quiet m) (h' : Quiet m') : Quiet (if p then m else m') := by
  split
  · exact h
  · exact h'

theorem freeData (p : Pointers) : Quiet (ndmgmFreeData p) :=
  bind (release _) fun _ => bind (release _) fun _ => bind (release _) fun _ => bind (release _) fun _ => ker _

end Quiet

/-! ## The strings of a creation -/

/-- The name of the pool of a dummy device. -/
def dummyPool (name : Bytes) (minor : Nat) : Write :=
  ⟨30, NETDEV_REQ_POOL_NAME ++ 58 :: name ++ decimal minor ++ [0]⟩

/-- `devname` of a dummy device. -/
def dummyName (name : Bytes) : Write := ⟨name.length + 1, [47, 100, 101, 118, 47] ++ name ++ [0]⟩

/-- The name of the pool of a server device. -/
def serverPool (name : Bytes) : Write := ⟨30, NETDEV_REQ_POOL_NAME ++ 58 :: name ++ [0]⟩

/-- `devname` of a server device. -/
def serverName (name : Bytes) : Write := ⟨name.length + 1, name ++ [0]⟩

section
variable {nlpid : Int32} {name : Bytes} {minor : Nat} {reg : Registry}

theorem ndmgmAllocData_writes (env : AllocEnv) (s : Making) :
    (ndmgmAllocData env nlpid name minor s).2.writes =
      s.writes ++ dummyPool name minor :: if env.succeeds then [dummyName name] else [] := by
  obtain ⟨nddata, devname, cdev, queuePool⟩ := env
  cases nddata with
  | false => rfl
  | true =>
      cases devname with
      | false => rfl
      | true =>
          cases cdev with
          | false => rfl
          | true =>
              cases queuePool with
              | false => rfl
              | true => exact List.append_assoc ..

/-- A call that gets this minor. -/
theorem ndmgmCreateDummy_writes {env : DummyEnv}
    (hminor : (ndmgmGetMinor env.minor nlpid ⟨reg, []⟩).1 = .ok (some minor)) :
    (ndmgmCreateDummy env nlpid name (.start reg)).2.writes =
      dummyPool name minor :: if env.alloc.succeeds then [dummyName name] else [] := by
  have hker : ker (ndmgmGetMinor env.minor nlpid) (.start reg) =
      (.ok (some minor), { Making.start reg with call := (ndmgmGetMinor env.minor nlpid ⟨reg, []⟩).2 }) := by
    rw [← hminor]
    rfl
  rw [ndmgmCreateDummy, Exec.bind_ok hker]
  refine (Quiet.after (fun p => ?_) _).trans (ndmgmAllocData_writes ..)
  cases p with
  | none => exact .pure 1
  | some p =>
      refine .bind (.acquire _ _) fun cdev => .ite (.bind (.freeData p) fun _ => .pure _) ?_
      refine .bind (.acquire _ _) fun _ => .ite ?_ (.bind (.ker _) fun _ => .pure 0)
      exact .bind (.release cdev) fun _ => .bind (.freeData p) fun _ => .pure _

theorem ndmgmCreateServer_writes (env : ServerEnv) :
    Exec.wp (ndmgmCreateServer env nlpid name) (fun _ s => s.writes =
      serverPool name :: if env.nddata && env.devname && env.queuePool then [serverName name] else [])
      (.start reg) := by
  obtain ⟨nddata, devname, queuePool⟩ := env
  cases nddata with
  | false => exact rfl
  | true =>
      cases devname with
      | false => exact rfl
      | true =>
          cases queuePool with
          | false => exact rfl
          | true =>
              have htail (d : DevId) : Quiet (do ker (hashDev d nlpid); return (0 : Int32)) :=
                .bind (.ker _) fun _ => .pure 0
              exact wp_write (wp_acquire (fun _ => wp_acquire (fun _ => wp_acquire (fun _ =>
                wp_write ((Quiet.bind (.ker _) htail) _)) nofun) nofun) nofun)

end

/-! ## Which of them fit -/

section
variable {name : Bytes} {minor : Nat}

/-- A minor has one digit or two. -/
theorem decimal_length (h : minor < NETDEV_MAX_DEVICES) :
    (decimal minor).length = if minor < 10 then 1 else 2 := by
  have hall : ∀ i < NETDEV_MAX_DEVICES, (decimal i).length = if i < 10 then 1 else 2 := by decide
  exact hall minor h

theorem dummyPool_fits (h : minor < NETDEV_MAX_DEVICES) :
    (dummyPool name minor).Fits ↔ name.length ≤ if minor < 10 then 12 else 11 := by
  have hdigits := decimal_length h
  have hpool : NETDEV_REQ_POOL_NAME.length = 15 := rfl
  simp only [Write.Fits, dummyPool, List.length_append, List.length_cons, List.length_nil, hdigits, hpool]
  split
  · omega
  · omega

theorem not_dummyName_fits : ¬ (dummyName name).Fits := by
  simp [Write.Fits, dummyName]
  omega

theorem serverPool_fits : (serverPool name).Fits ↔ name.length ≤ 13 := by
  have hpool : NETDEV_REQ_POOL_NAME.length = 15 := rfl
  simp only [Write.Fits, serverPool, List.length_append, List.length_cons, List.length_nil, hpool]
  omega

theorem serverName_fits : (serverName name).Fits := by
  simp [Write.Fits, serverName]

end

end Make

/-- `ndmgm_get_minor` returns an index of the table. -/
theorem ndmgmGetMinor_lt {reg : Registry} {free : Bool} {nlpid : Int32} {minor : Nat}
    (h : (ndmgmGetMinor free nlpid ⟨reg, []⟩).1 = .ok (some minor)) : minor < NETDEV_MAX_DEVICES := by
  have hends : Exec.wp (ndmgmGetMinor free nlpid)
      (fun r _ => r = .ok (some minor) → minor < NETDEV_MAX_DEVICES) ⟨reg, []⟩ := by
    refine Ker.wp_downTrylock (fun _ _ => ?_) (fun _ hr => nomatch hr)
    refine Ker.wp_registry (Ker.wp_deref (fun m _ => ?_) (fun _ hr => nomatch hr))
    refine Exec.wp_ite (fun _ hr => nomatch hr) (fun _ => ?_)
    cases hget : m.get nlpid with
    | error e => exact Ker.wp_up fun hr => nomatch hr
    | ok got =>
        obtain ⟨o, m'⟩ := got
        refine Ker.wp_modify (Ker.wp_up fun hr => ?_)
        obtain rfl := Except.ok.inj hr
        exact Minors.lt_of_used ((Minors.get_eq hget).2 minor rfl).1.free
  exact hends h

end Netdev.Kernel

namespace Netdev.Daemon
open Base Kernel

namespace ProxyDev

/-- What `sscanf` writes for an entry: each string, with its null, to its own buffer. -/
def writes (pdev : ProxyDev) : List Write := pdev.strings.map fun s => ⟨NETDEV_MAX_STRING, s ++ [0]⟩

/-- Every string of the entry stays inside its buffer: in the daemon, in the kernel that creates
the dummy device, and in the kernel that creates the server device. -/
structure Fits (pdev : ProxyDev) (dummy server : Making) : Prop where
  scanned : ∀ w ∈ pdev.writes, w.Fits
  dummy : ∀ w ∈ dummy.writes, w.Fits
  server : ∀ w ∈ server.writes, w.Fits

theorem writes_fit {pdev : ProxyDev} (h : ∀ s ∈ pdev.strings, Scanned s) :
    (∀ w ∈ pdev.writes, w.Fits) ↔ ∀ s ∈ pdev.strings, s.length ≠ 20 := by
  simp only [writes, List.forall_mem_map, Write.Fits, NETDEV_MAX_STRING, List.length_append, List.length_singleton]
  refine forall₂_congr fun s hs => ?_
  have hwidth := (h s hs).width
  omega

/-- For every file and every entry that is accepted, in every state of the two kernels and for
every minor that the first one gives, all strings fit exactly when they are short enough and
the dummy device cannot be allocated. -/
theorem fits_iff {file : Bytes} {pdev : ProxyDev} (hpdev : Accepts file pdev) {reg : Registry} {env : Make.DummyEnv}
    {nlpid : Int32} {minor : Nat} (hminor : (ndmgmGetMinor env.minor nlpid ⟨reg, []⟩).1 = .ok (some minor))
    (remote : Registry) (server : Make.ServerEnv) (remotePid : Int32) :
    pdev.Fits (Make.ndmgmCreateDummy env nlpid pdev.dummyDevName (.start reg)).2
        (Make.ndmgmCreateServer server remotePid pdev.remoteDevName (.start remote)).2 ↔
      pdev.rmIpaddr.length ≠ 20 ∧ pdev.remoteDevName.length ≤ 13 ∧
        pdev.dummyDevName.length ≤ (if minor < 10 then 12 else 11) ∧ env.alloc.succeeds = false := by
  have hstrings := writes_fit hpdev.scanned
  have hlt := ndmgmGetMinor_lt hminor
  have hserver := @Make.ndmgmCreateServer_writes remotePid pdev.remoteDevName remote server
  constructor
  · intro ⟨hscanned, hdummy, hremote⟩
    rw [Make.ndmgmCreateDummy_writes hminor, List.forall_mem_cons, Make.dummyPool_fits hlt] at hdummy
    rw [hserver, List.forall_mem_cons, Make.serverPool_fits] at hremote
    refine ⟨hstrings.mp hscanned _ (by simp [strings]), hremote.1, hdummy.1, ?_⟩
    cases halloc : env.alloc.succeeds with
    | false => rfl
    | true =>
        rw [halloc] at hdummy
        exact absurd (hdummy.2 _ (.head _)) Make.not_dummyName_fits
  · intro ⟨hip, hremote, hdummy, halloc⟩
    have hshort : pdev.dummyDevName.length ≤ 12 := by
      split at hdummy
      · exact hdummy
      · exact hdummy.trans (by decide)
    constructor
    · apply hstrings.mpr
      simp only [strings, List.forall_mem_cons]
      exact ⟨by omega, by omega, hip, nofun⟩
    · rw [Make.ndmgmCreateDummy_writes hminor, halloc, List.forall_mem_cons, Make.dummyPool_fits hlt]
      exact ⟨hdummy, nofun⟩
    · rw [hserver, List.forall_mem_cons, Make.serverPool_fits]
      refine ⟨hremote, ?_⟩
      split
      · simp [Make.serverName_fits]
      · exact nofun

/-- `sda;sdb;10.0.0.1;9999`. -/
def sampleFile : Bytes :=
  [115, 100, 97, 59, 115, 100, 98, 59, 49, 48, 46, 48, 46, 48, 46, 49, 59, 57, 57, 57, 57, 10]

def sample : ProxyDev := ⟨[115, 100, 97], [115, 100, 98], [49, 48, 46, 48, 46, 48, 46, 49], 9999⟩

theorem sample_accepts : Accepts sampleFile sample := by
  have hinit : (readConfig sampleFile).Run [] ⟨sampleFile, [], []⟩ := .init rfl
  have hturn : (readConfig sampleFile).step ⟨sampleFile, [], []⟩ () ⟨[], sampleFile, [sample]⟩ := rfl
  exact ⟨[()], _, .step hinit hturn, rfl, .head _⟩

/-- The kernel has no memory for the pool of the dummy device. -/
theorem sample_fits :
    sample.Fits
      (Make.ndmgmCreateDummy ⟨true, { Make.AllocEnv.all with queuePool := false }, 0, 0⟩ 7 sample.dummyDevName
        (.start (.prepare Sample.hashMin Sample.requests))).2
      (Make.ndmgmCreateServer .all 9 sample.remoteDevName (.start (.prepare Sample.hashMin Sample.requests))).2 :=
  (fits_iff sample_accepts rfl _ _ 9).mpr (by decide)

/-- When nothing fails `/dev/sdb` is written to a buffer of four bytes. -/
theorem sample_overflows :
    Accepts sampleFile sample ∧
      (ndmgmGetMinor true 7 ⟨.prepare Sample.hashMin Sample.requests, []⟩).1 = .ok (some 0) ∧
      ¬ sample.Fits
        (Make.ndmgmCreateDummy .all 7 sample.dummyDevName (.start (.prepare Sample.hashMin Sample.requests))).2
        (Make.ndmgmCreateServer .all 9 sample.remoteDevName
          (.start (.prepare Sample.hashMin Sample.requests))).2 := by
  refine ⟨sample_accepts, rfl, fun h => ?_⟩
  have hname : Make.dummyName sample.dummyDevName ∈ (Make.ndmgmCreateDummy .all 7 sample.dummyDevName
      (.start (.prepare Sample.hashMin Sample.requests))).2.writes := .tail _ (.head _)
  exact Make.not_dummyName_fits (h.dummy _ hname)

end ProxyDev

end Netdev.Daemon
