-- SUMMARY: When `fo_execute` stays inside what it received: the payload, the args struct of its handler, and the written data.
import Mathlib.Data.List.Forall2
import Netdev.Kernel.FoExecute
import Netdev.Kernel.FoSizes

/-!
# Bounds of an execution

A handler casts the args of a request to its own struct, and a write gives the device as
many bytes as the struct says. How many bytes of the args a handler touches depends on what
the device can do.
-/

namespace Netdev.Kernel
open Base

/-! ## What handlers touch -/

/-- The device is open and has the operation. -/
def ServerAccess.has {α : Type} (acc : ServerAccess) (op : FileOperations → Option α) : Bool :=
  match acc.fOp with
  | .ok ops => (op ops).isSome
  | .error _ => false

/-- `args->size` of a read or write. -/
def argsSize (args : Bytes) : UInt64 := peek UInt64 SFoRead.sizeField.off args

/-- `args->offset` of a read or write. -/
def argsOffset (args : Bytes) : Int64 := peek Int64 SFoRead.offsetField.off args

/-- What a handler touches: so many bytes of the args, and whether it hands `args->size`
bytes of the data to the device. -/
structure Reach where
  args : HandlerEnv → ServerAccess → Bytes → Nat
  data : ServerAccess → Bool

namespace Reach

def nothing : Reach := ⟨fun _ _ _ => 0, fun _ => false⟩

/-- The operation is tested before the args are used. -/
def tested {α : Type} (op : FileOperations → Option α) (size : Nat) : Reach :=
  ⟨fun _ acc _ => if acc.has op then size else 0, fun _ => false⟩

/-- The arguments of the call are the first 16 bytes, and the call is made whether the
operation is there or not. -/
def called {α : Type} (op : FileOperations → Option α) (size : Nat) : Reach where
  args _ acc _ := if acc.has op then size else if acc.has some then 16 else 0
  data _ := false

def llseek : Reach := tested (·.llseek) (sizeof SFoLlseek)

/-- The device comes back from the buffer, or from the null pointer. -/
def readReturns (env : HandlerEnv) (acc : ServerAccess) (args : Bytes) : Bool :=
  env.dataOk || acc.has (·.nullRead (argsSize args) (argsOffset args))

/-- The size is read first, and the results are stored when the device comes back. -/
def read : Reach where
  args env acc args :=
    if acc.has (·.read) then (if readReturns env acc args then sizeof SFoRead else 24) else 16
  data _ := false

def write : Reach := { called (·.write) (sizeof SFoWrite) with data := fun acc => acc.has (·.write) }

def unlockedIoctl : Reach := called (·.unlockedIoctl) (sizeof SFoUnlockedIoctl)

def compatIoctl : Reach := called (·.compatIoctl) (sizeof SFoCompatIoctl)

/-- The padding at the end of the struct is not touched. -/
def «open» : Reach where
  args env _ _ :=
    match env.filpOpen with
    | .ok filp => if filp.fOp.isSome then 12 else 0
    | .error _ => 0
  data _ := false

def flush : Reach := tested (·.flush) (sizeof SFoFlush)

def release : Reach := ⟨fun _ acc _ => if acc.filp.isSome then sizeof SFoRelease else 0, fun _ => false⟩

end Reach

/-- In the order of `netdev_recv_fops`. -/
def reaches : List Reach :=
  [ .llseek, .read, .write, .nothing, .nothing, .nothing, .nothing, .unlockedIoctl, .compatIoctl, .nothing, .open,
    .flush, .release, .nothing, .nothing, .nothing, .nothing, .nothing, .nothing, .nothing, .nothing, .nothing,
    .nothing, .nothing, .nothing, .nothing ]

/-- A handler stays inside the args and the data exactly when they hold what it touches. -/
def Reach.Bounds (r : Reach) (fofun : FoHandler) : Prop :=
  ∀ env acc req args data, req.args = some args → req.data = some data →
    ((fofun env acc req).Inside ↔ r.args env acc args ≤ args.length ∧
      (r.data acc = true → (argsSize args).toNat ≤ data.length))

theorem fOp_error {acc : ServerAccess} {e : Fault} (h : acc.fOp = .error e) : e = .nullDeref := by
  unfold ServerAccess.fOp at h
  cases hfilp : acc.filp with
  | none =>
      rw [hfilp] at h
      exact (Except.error.inj h).symm
  | some filp =>
      cases hfop : filp.fOp with
      | none =>
          simp [hfilp, hfop, follow] at h
          exact h.symm
      | some ops => simp [hfilp, hfop, follow] at h

/-- The three ways a handler can find its operation. -/
theorem ServerAccess.has_cases {α : Type} (acc : ServerAccess) (op : FileOperations → Option α) :
    (acc.has op = false ∧ acc.has some = false ∧ acc.fOp = .error .nullDeref) ∨
    (acc.has op = false ∧ acc.has some = true ∧ ∃ ops, acc.fOp = .ok ops ∧ op ops = none) ∨
    (acc.has op = true ∧ ∃ ops f, acc.fOp = .ok ops ∧ op ops = some f) := by
  unfold ServerAccess.has
  cases hops : acc.fOp with
  | error e =>
      obtain rfl := fOp_error hops
      simp
  | ok ops => cases hop : op ops <;> simp [hop]

section Bounds

/-- A handler that tests its operation, from what it does with one that is there. -/
theorem Reach.tested_bounds {α : Type} {op : FileOperations → Option α} {size : Nat} {fofun : FoHandler}
    (hnull : ∀ env acc req, acc.fOp = .error .nullDeref → fofun env acc req = .error .nullDeref)
    (hnone : ∀ env acc req ops, acc.fOp = .ok ops → op ops = none → fofun env acc req = .ok (-1, acc, req))
    (hsome : ∀ env acc req ops f args, acc.fOp = .ok ops → op ops = some f → req.args = some args →
      ((fofun env acc req).Inside ↔ size ≤ args.length)) : (Reach.tested op size).Bounds fofun := by
  intro env acc req args data hargs hdata
  obtain ⟨hhas, -, hfop⟩ | ⟨hhas, -, ops, hops, hop⟩ | ⟨hhas, ops, f, hops, hop⟩ := acc.has_cases op
  · simp [Reach.tested, hhas, hnull _ _ _ hfop]
  · simp [Reach.tested, hhas, hnone _ _ _ _ hops hop]
  · simp [Reach.tested, hhas, hsome _ _ _ _ _ _ hops hop hargs]

theorem llseek_bounds : Reach.llseek.Bounds ndfoRecvLlseek := by
  apply Reach.tested_bounds
  · intro env acc req hnull
    simp [ndfoRecvLlseek, hnull]
  · intro env acc req ops hops hop
    simp [ndfoRecvLlseek, hops, hop]
  · intro env acc req ops llseek args hops hop hargs
    have hsize : sizeof SFoLlseek = 24 := rfl
    have hoffset : SFoLlseek.offsetField.off + sizeof Int64 = 8 := rfl
    have hwhence : SFoLlseek.whenceField.off + sizeof Int32 = 12 := rfl
    have hrvalue : SFoLlseek.rvalueField.off + sizeof Int64 = 24 := rfl
    simp only [ndfoRecvLlseek, hops, hop, hargs, deref_some, Mem.bind_ok, Field.inside_load]
    rw [Field.inside_store (P := True) fun _ _ => by simp]
    simp
    omega

theorem flush_bounds : Reach.flush.Bounds ndfoRecvFlush := by
  apply Reach.tested_bounds
  · intro env acc req hnull
    simp [ndfoRecvFlush, hnull]
  · intro env acc req ops hops hop
    simp [ndfoRecvFlush, hops, hop]
  · intro env acc req ops rvalue args hops hop hargs
    have hrvalue : SFoRelease.rvalueField.off + sizeof Int32 = sizeof SFoFlush := rfl
    simp only [ndfoRecvFlush, hops, hop, hargs, deref_some, Mem.bind_ok]
    rw [Field.inside_store (P := True) fun _ _ => by simp, hrvalue]
    simp

/-- The results of a read or write are stored. -/
theorem inside_results {args : Bytes} {offset rvalue : Int64} {k : Bytes → Mem HandlerResult}
    (hk : ∀ args, (k args).Inside) :
    (SFoRead.offsetField.store args offset >>= fun args => SFoRead.rvalueField.store args rvalue >>= k).Inside ↔
      sizeof SFoRead ≤ args.length := by
  have hsizeof : sizeof SFoRead = 32 := rfl
  have hoffset : SFoRead.offsetField.off + sizeof Int64 = 24 := rfl
  have hrvalue : SFoRead.rvalueField.off + sizeof Int64 = 32 := rfl
  rw [Field.inside_store (P := 32 ≤ args.length)]
  · omega
  · intro out hout
    rw [Field.inside_store (P := True) fun _ _ => by simp [hk], hout, hrvalue]
    simp

theorem read_bounds : Reach.read.Bounds ndfoRecvRead := by
  intro env acc req args data hargs hdata
  have hsizeof : sizeof SFoRead = 32 := rfl
  have hsize : SFoRead.sizeField.off + sizeof UInt64 = 16 := rfl
  have hoffset : SFoRead.offsetField.off + sizeof Int64 = 24 := rfl
  obtain ⟨hhas, -, hnull⟩ | ⟨hhas, -, ops, hops, hop⟩ | ⟨hhas, ops, read, hops, hop⟩ := acc.has_cases (·.read)
  · simp [ndfoRecvRead, Reach.read, hhas, hnull, hargs, Field.inside_load, hsize]
  · simp [ndfoRecvRead, Reach.read, hhas, hops, hop, hargs, Field.inside_load, hsize, follow]
  · simp only [ndfoRecvRead, Reach.read, hhas, hops, hop, hargs, deref_some, Mem.bind_ok, Field.inside_load,
      follow_some]
    cases hok : env.dataOk with
    | true =>
        simp only [zalloc_true, readInto, Mem.bind_ok, Reach.readReturns, hok, Bool.true_or]
        rw [inside_results (by simp)]
        simp
        omega
    | false =>
        have hreturns : Reach.readReturns env acc args
            = (ops.nullRead (argsSize args) (argsOffset args)).isSome := by
          simp [Reach.readReturns, ServerAccess.has, hok, hops]
        rw [hreturns]
        change (16 ≤ args.length ∧ 24 ≤ args.length ∧
          ((follow (ops.nullRead (argsSize args) (argsOffset args)) >>= fun r => .ok (r.1, r.2, none)) >>=
            fun r => SFoRead.offsetField.store args r.2.1 >>= fun args => SFoRead.rvalueField.store args r.1 >>= _).Inside)
          ↔ _
        cases hread : ops.nullRead (argsSize args) (argsOffset args) with
        | none =>
            simp [follow]
            omega
        | some result =>
            simp only [follow_some, Mem.bind_ok]
            rw [inside_results (by simp)]
            simp
            omega

theorem inside_region {β : Type} {data : Bytes} {size : UInt64} {k : Bytes → Mem β} {P : Prop}
    (hk : ∀ buf, (k buf).Inside ↔ P) :
    (region (some data) size >>= k).Inside ↔ size.toNat ≤ data.length ∧ P := by
  unfold region
  by_cases h : size.toNat ≤ data.length
  · simp [h, hk]
  · simp [h]

theorem write_bounds : Reach.write.Bounds ndfoRecvWrite := by
  intro env acc req args data hargs hdata
  have hsizeof : sizeof SFoWrite = 32 := rfl
  have hsize : SFoRead.sizeField.off + sizeof UInt64 = 16 := rfl
  have hoffset : SFoRead.offsetField.off + sizeof Int64 = 24 := rfl
  obtain ⟨hhas, hopen, hnull⟩ | ⟨hhas, hopen, ops, hops, hop⟩ | ⟨hhas, ops, write, hops, hop⟩ :=
    acc.has_cases (·.write)
  · simp [ndfoRecvWrite, Reach.write, Reach.called, hhas, hopen, hnull, hargs]
  · simp [ndfoRecvWrite, Reach.write, Reach.called, hhas, hopen, hops, hop, hargs, Field.inside_load, hsize, follow]
  · simp only [ndfoRecvWrite, Reach.write, Reach.called, hhas, hops, hop, hargs, hdata, deref_some, Mem.bind_ok,
      Field.inside_load, follow_some]
    rw [inside_region (P := 32 ≤ args.length)]
    · simp [argsSize]
      omega
    · intro buf
      exact inside_results (by simp)

/-- The part that the two ioctl handlers share. -/
theorem ioctl_bounds {op : FileOperations → Option (UInt32 → UInt64 → Int64)} {fofun : FoHandler} {rvalue : Int32}
    (hfofun : ∀ env acc req, fofun env acc req = deref req.args >>= fun args => acc.fOp >>= fun ops =>
      SFoUnlockedIoctl.cmdField.load args >>= fun cmd => SFoUnlockedIoctl.argField.load args >>= fun arg =>
        follow (op ops) >>= fun ioctl => SFoUnlockedIoctl.rvalueField.store args (ioctl cmd arg) >>= fun args =>
          .ok (rvalue, acc, { req with args := some args })) :
    (Reach.called op (sizeof SFoUnlockedIoctl)).Bounds fofun := by
  intro env acc req args data hargs hdata
  have hsize : sizeof SFoUnlockedIoctl = 24 := rfl
  have hcmd : SFoUnlockedIoctl.cmdField.off + sizeof UInt32 = 4 := rfl
  have harg : SFoUnlockedIoctl.argField.off + sizeof UInt64 = 16 := rfl
  have hrvalue : SFoUnlockedIoctl.rvalueField.off + sizeof Int64 = 24 := rfl
  rw [hfofun, hargs, deref_some, Mem.bind_ok]
  obtain ⟨hhas, hopen, hnull⟩ | ⟨hhas, hopen, ops, hops, hop⟩ | ⟨hhas, ops, ioctl, hops, hop⟩ := acc.has_cases op
  · simp [Reach.called, hhas, hopen, hnull]
  · simp [Reach.called, hhas, hopen, hops, hop, Field.inside_load, follow]
    omega
  · simp only [Reach.called, hhas, hops, hop, Mem.bind_ok, Field.inside_load, follow_some]
    rw [Field.inside_store (P := True) fun _ _ => by simp]
    simp
    omega

theorem unlockedIoctl_bounds : Reach.unlockedIoctl.Bounds ndfoRecvUnlockedIoctl :=
  ioctl_bounds fun _ _ _ => rfl

theorem compatIoctl_bounds : Reach.compatIoctl.Bounds ndfoRecvCompatIoctl :=
  ioctl_bounds fun _ _ _ => rfl

theorem open_bounds : Reach.open.Bounds ndfoRecvOpen := by
  intro env acc req args data hargs hdata
  have hrvalue : SFoOpen.rvalueField.off + sizeof Int32 = 12 := rfl
  cases hopen : env.filpOpen with
  | error err => simp [ndfoRecvOpen, Reach.open, hopen]
  | ok filp =>
      cases hfop : filp.fOp with
      | none => simp [ndfoRecvOpen, Reach.open, hopen, hfop]
      | some ops =>
          simp only [ndfoRecvOpen, Reach.open, hopen, hfop, hargs, deref_some, Mem.bind_ok]
          simp only [Option.isNone_some, Bool.false_eq_true, if_false]
          rw [Field.inside_store (P := True) fun _ _ => by simp, hrvalue]
          simp

theorem release_bounds : Reach.release.Bounds ndfoRecvRelease := by
  intro env acc req args data hargs hdata
  cases hfilp : acc.filp with
  | none => simp [ndfoRecvRelease, Reach.release, hfilp, follow]
  | some filp =>
      have hrvalue : SFoRelease.rvalueField.off + sizeof Int32 = sizeof SFoRelease := rfl
      simp only [ndfoRecvRelease, Reach.release, hfilp, hargs, follow_some, deref_some, Mem.bind_ok]
      rw [Field.inside_store (P := True) fun _ _ => by simp, hrvalue]
      simp

theorem nothing_bounds : Reach.nothing.Bounds refuse := by
  intro env acc req args data hargs hdata
  simp [refuse, Reach.nothing]

end Bounds

/-! ## The table -/

theorem reaches_bounds : List.Forall₂ (fun fofun r => ∀ f, fofun = some f → Reach.Bounds r f)
    netdevRecvFops reaches := by
  have hsome : ∀ {f r}, Reach.Bounds r f → ∀ f', some f = some f' → Reach.Bounds r f' := by
    intro f r h f' hf
    obtain rfl := Option.some.inj hf
    exact h
  have hnone : ∀ {r : Reach} (f' : FoHandler), none = some f' → Reach.Bounds r f' := nofun
  unfold netdevRecvFops reaches
  refine .cons (hsome llseek_bounds) (.cons (hsome read_bounds) (.cons (hsome write_bounds) ?_))
  refine .cons hnone (.cons hnone (.cons hnone (.cons (hsome nothing_bounds) ?_)))
  refine .cons (hsome unlockedIoctl_bounds) (.cons (hsome compatIoctl_bounds) (.cons hnone ?_))
  refine .cons (hsome open_bounds) (.cons (hsome flush_bounds) (.cons (hsome release_bounds) ?_))
  refine .cons (hsome nothing_bounds) (.cons hnone (.cons (hsome nothing_bounds) (.cons hnone ?_)))
  refine .cons hnone (.cons hnone (.cons (hsome nothing_bounds) (.cons (hsome nothing_bounds) ?_)))
  refine .cons hnone (.cons hnone (.cons (hsome nothing_bounds) ?_))
  exact .cons (hsome nothing_bounds) (.cons (hsome nothing_bounds) .nil)

/-- What the handler of a message type touches. -/
def reach (msgtype : Int32) : Reach := reaches.getD (msgtype - (MSGT_FO_START + 1)).toNatClampNeg .nothing

theorem reach_bounds {msgtype : Int32} {fofun : FoHandler} (h : foHandler msgtype = .ok (some fofun)) :
    (reach msgtype).Bounds fofun := by
  unfold foHandler at h
  cases hfops : netdevRecvFops[(msgtype - (MSGT_FO_START + 1)).toNatClampNeg]? with
  | none =>
      rw [hfops] at h
      cases h
  | some f =>
      rw [hfops] at h
      obtain ⟨hlt, hget⟩ := List.getElem?_eq_some_iff.mp hfops
      have hlt' : (msgtype - (MSGT_FO_START + 1)).toNatClampNeg < reaches.length := hlt
      have hbounds := reaches_bounds.get hlt hlt'
      unfold reach
      rw [List.getD_eq_getElem?_getD, List.getElem?_eq_getElem hlt']
      exact hbounds fofun (hget.trans (Except.ok.inj h))

theorem index_of_msgtype {msgtype : Int32} (h : (msgtype - (MSGT_FO_START + 1)).toNatClampNeg = 2) :
    msgtype = MSGT_FO_WRITE := by
  have hint : (msgtype - (MSGT_FO_START + 1)).toInt = 2 := by
    have hclamp : (msgtype - (MSGT_FO_START + 1)).toInt.toNat = 2 := h
    omega
  have hsub : msgtype - (MSGT_FO_START + 1) = 2 := Int32.toInt_inj.mp hint
  rw [← Int32.sub_add_cancel msgtype (MSGT_FO_START + 1), hsub]
  rfl

/-- Only a write hands data to the device. -/
theorem reach_data_iff {msgtype : Int32} {acc : ServerAccess} :
    (reach msgtype).data acc = true ↔ msgtype = MSGT_FO_WRITE ∧ acc.has (·.write) = true := by
  have hothers : ∀ r ∈ reaches.eraseIdx 2, r.data acc = false := by
    simp [reaches, Reach.llseek, Reach.tested, Reach.read, Reach.nothing, Reach.unlockedIoctl, Reach.compatIoctl,
      Reach.called, Reach.open, Reach.flush, Reach.release]
  constructor
  · intro hdata
    have hwrite : msgtype = MSGT_FO_WRITE := by
      by_contra hother
      have hindex : (msgtype - (MSGT_FO_START + 1)).toNatClampNeg ≠ 2 := fun h => hother (index_of_msgtype h)
      unfold reach at hdata
      cases hr : reaches[(msgtype - (MSGT_FO_START + 1)).toNatClampNeg]? with
      | none =>
          rw [List.getD_eq_getElem?_getD, hr] at hdata
          cases hdata
      | some r =>
          rw [List.getD_eq_getElem?_getD, hr] at hdata
          have hfalse := hothers r (List.mem_eraseIdx_iff_getElem?.mpr ⟨_, hindex, hr⟩)
          exact nomatch hfalse.symm.trans hdata
    subst hwrite
    exact ⟨rfl, hdata⟩
  · rintro ⟨rfl, hhas⟩
    exact hhas

/-! ## Decoding into fresh buffers -/

/-- The allocations that the payload asks for succeed. -/
def Decodes (alloc : ExecAlloc) (data : Bytes) : Prop :=
  alloc.req = true ∧
    (wireSize data = 0 ∨ alloc.args = true ∧ (wireDataSize data = 0 ∨ alloc.data = true))

/-- A request that was decoded: its args and its data are those of the payload. -/
structure Received (data : Bytes) (req : FoReq) : Prop where
  args : req.args.getD [] = wireArgs data
  args_length : (wireArgs data).length = (wireSize data).toNat
  dataSize : req.dataSize = wireDataSize data
  data_length : wireSize data ≠ 0 → (req.data.getD []).length = (wireDataSize data).toNat

section Fresh
variable {argsOk dataOk : Bool} {fresh : FoReq} {data : Bytes}

/-- Without buffers of its own the request gets some that fit. -/
theorem inBounds_fresh_iff : InBounds argsOk dataOk { fresh with args := none, data := none } data ↔
    FoReq.headerSize ≤ data.length ∧
    (wireSize data ≠ 0 → argsOk = true → FoReq.headerSize + (wireSize data).toNat ≤ data.length) ∧
    (wireSize data ≠ 0 → argsOk = true → wireDataSize data ≠ 0 → dataOk = true →
      FoReq.headerSize + (wireSize data).toNat + (wireDataSize data).toNat ≤ data.length) := by
  constructor
  · intro h
    refine ⟨h.header, ?_, ?_⟩
    · rintro hsize rfl
      exact (h.args hsize _ rfl).1
    · rintro hsize rfl hdata rfl
      exact (h.data hsize (by simp [FoReq.argsBuffer]) hdata _ rfl).1
  · intro ⟨hheader, hargs, hdata⟩
    refine ⟨hheader, ?_, ?_⟩
    · intro hsize args hbuffer
      cases argsOk with
      | false => cases hbuffer
      | true =>
          cases hbuffer
          exact ⟨hargs hsize rfl, by simp⟩
    · intro hsize hbuffer hne buf hbuf
      cases argsOk with
      | false => exact absurd rfl hbuffer
      | true =>
          cases dataOk with
          | false => cases hbuf
          | true =>
              cases hbuf
              exact ⟨hdata hsize rfl hne rfl, by simp⟩

theorem not_noBuffer_fresh_iff : ¬ NoBuffer argsOk dataOk { fresh with args := none, data := none } data ↔
    wireSize data = 0 ∨ argsOk = true ∧ (wireDataSize data = 0 ∨ dataOk = true) := by
  have hargs : FoReq.argsBuffer { fresh with args := none, data := none } argsOk data = none ↔ argsOk = false :=
    zalloc_eq_none
  have hdata : FoReq.dataBuffer { fresh with args := none, data := none } dataOk data = none ↔ dataOk = false :=
    zalloc_eq_none
  rw [noBuffer_iff, hargs, hdata]
  simp only [ne_eq, not_and_or, not_or, not_not, Bool.not_eq_false]

theorem zalloc_some {ok : Bool} {n : Nat} {buf : Bytes} (h : none.or (zalloc ok n) = some buf) : buf.length = n := by
  cases ok with
  | false => cases h
  | true =>
      cases h
      simp

theorem Decoded.received {r : FoReq}
    (hin : InBounds argsOk dataOk { fresh with args := none, data := none } data)
    (h : Decoded argsOk dataOk { fresh with args := none, data := none } data true r) : Received data r where
  args := by
    by_cases hsize : wireSize data = 0
    · rw [h.noArgs hsize, wireArgs, hsize]
      rfl
    · obtain ⟨args, hbuffer, hargs⟩ := h.args rfl hsize
      rw [hargs, List.drop_of_length_le (zalloc_some hbuffer).le]
      simp
  args_length := by
    unfold wireArgs
    by_cases hsize : wireSize data = 0
    · simp [hsize]
    · obtain ⟨args, hbuffer, -⟩ := h.args rfl hsize
      have hfits := (hin.args hsize args hbuffer).1
      rw [List.length_take, List.length_drop]
      omega
  dataSize := h.dataSize
  data_length := by
    intro hsize
    by_cases hdata : wireDataSize data = 0
    · rw [h.noData hdata, hdata]
      rfl
    · obtain ⟨buf, payload, hbuffer, hpayload, hlen⟩ := h.data rfl hsize hdata
      rw [hpayload, Option.getD_some, hlen]
      exact zalloc_some hbuffer

/-- What `fo_deserialize` returns, in terms of `fo_deserialize_toreq`. -/
theorem foDeserialize_some_iff {r : FoReq} : foDeserialize true argsOk dataOk fresh data = .ok (some r) ↔
    foDeserializeToreq argsOk dataOk { fresh with args := none, data := none } data = .ok (true, r) := by
  rw [foDeserialize_eq]
  cases foDeserializeToreq argsOk dataOk { fresh with args := none, data := none } data with
  | error e => simp
  | ok result => cases result with | mk ok r' => cases ok <;> simp

end Fresh

/-! ## The whole -/

/-- A null pointer as a buffer that holds nothing. -/
def FoReq.buffers (req : FoReq) : FoReq :=
  { req with args := some (req.args.getD []), data := some (req.data.getD []) }

/-- `fo_execute` stays inside what was received: `fo_deserialize` inside the payload, the
handler inside the args and the data, and a write gives the device no more data than came. -/
structure Bounded (alloc : ExecAlloc) (env : HandlerEnv) (fresh : FoReq) (acc : ServerAccess)
    (nlh : NlMessage) (fofun : FoHandler) : Prop where
  payload : ∃ r, foDeserialize alloc.req alloc.args alloc.data fresh nlh.payload = .ok r
  buffers : ∀ req, foDeserialize alloc.req alloc.args alloc.data fresh nlh.payload = .ok (some req) →
    (fofun env acc req.buffers).Inside
  written : ∀ req, foDeserialize alloc.req alloc.args alloc.data fresh nlh.payload = .ok (some req) →
    nlh.msgtype = MSGT_FO_WRITE → acc.has (·.write) = true →
    (argsSize (req.args.getD [])).toNat ≤ req.dataSize.toNat

/-- The lengths in a message agree: the payload holds what its header speaks of, as far as
that is decoded, the args are as large as what the handler touches, and the size in the args
of a write is not larger than its data. -/
structure Agrees (alloc : ExecAlloc) (env : HandlerEnv) (acc : ServerAccess) (nlh : NlMessage) : Prop where
  header : alloc.req = true → FoReq.headerSize ≤ nlh.payload.length
  args : alloc.req = true → wireSize nlh.payload ≠ 0 → alloc.args = true →
    FoReq.headerSize + (wireSize nlh.payload).toNat ≤ nlh.payload.length
  data : alloc.req = true → wireSize nlh.payload ≠ 0 → alloc.args = true → wireDataSize nlh.payload ≠ 0 →
    alloc.data = true →
    FoReq.headerSize + (wireSize nlh.payload).toNat + (wireDataSize nlh.payload).toNat ≤ nlh.payload.length
  touched : Decodes alloc nlh.payload → (reach nlh.msgtype).args env acc (wireArgs nlh.payload) ≤ (wireSize nlh.payload).toNat
  written : Decodes alloc nlh.payload → nlh.msgtype = MSGT_FO_WRITE → acc.has (·.write) = true →
    (argsSize (wireArgs nlh.payload)).toNat ≤ (wireDataSize nlh.payload).toNat

section Execute
variable {alloc : ExecAlloc} {env : HandlerEnv} {fresh : FoReq} {acc : ServerAccess} {nlh : NlMessage}
  {fofun : FoHandler}

theorem reach_write (hhas : acc.has (·.write) = true) (args : Bytes) :
    (reach MSGT_FO_WRITE).args env acc args = sizeof SFoWrite := if_pos hhas

/-- The handler of a decoded request. -/
theorem inside_received (hfofun : foHandler nlh.msgtype = .ok (some fofun)) {req : FoReq}
    (h : Received nlh.payload req) : (fofun env acc req.buffers).Inside ↔
      (reach nlh.msgtype).args env acc (wireArgs nlh.payload) ≤ (wireSize nlh.payload).toNat ∧
      (nlh.msgtype = MSGT_FO_WRITE → acc.has (·.write) = true →
        (argsSize (wireArgs nlh.payload)).toNat ≤ (wireDataSize nlh.payload).toNat) := by
  have hbounds := reach_bounds hfofun env acc req.buffers _ _ rfl rfl
  rw [h.args, h.args_length, reach_data_iff, and_imp] at hbounds
  rw [hbounds]
  refine and_congr_right fun htouched => forall_congr' fun hwrite => forall_congr' fun hhas => ?_
  rw [hwrite, reach_write hhas _] at htouched
  rw [h.data_length]
  intro hzero
  rw [hzero] at htouched
  exact absurd htouched (by decide)

/-- A decoded request, and that it is one. -/
theorem received_of_decodes (hreq : alloc.req = true)
    (hin : InBounds alloc.args alloc.data { fresh with args := none, data := none } nlh.payload)
    (hdecodes : Decodes alloc nlh.payload) :
    ∃ req, foDeserialize alloc.req alloc.args alloc.data fresh nlh.payload = .ok (some req) ∧
      Received nlh.payload req := by
  obtain ⟨ok, r, htoreq, hdecoded⟩ := foDeserializeToreq_inBounds hin
  cases ok with
  | false => exact absurd (hdecoded.fails.mp rfl) (not_noBuffer_fresh_iff.mpr hdecodes.2)
  | true =>
      rw [hreq]
      exact ⟨r, foDeserialize_some_iff.mpr htoreq, hdecoded.received hin⟩

theorem decodes_of_some (hreq : alloc.req = true) {req : FoReq}
    (h : foDeserialize alloc.req alloc.args alloc.data fresh nlh.payload = .ok (some req)) :
    Decodes alloc nlh.payload ∧ Received nlh.payload req := by
  rw [hreq] at h
  have htoreq := foDeserialize_some_iff.mp h
  have hin := inBounds_of_ok htoreq
  obtain ⟨ok, r, htoreq', hdecoded⟩ := foDeserializeToreq_inBounds hin
  obtain ⟨rfl, rfl⟩ := Prod.mk.inj (Except.ok.inj (htoreq.symm.trans htoreq'))
  have hbuffers : ¬ NoBuffer alloc.args alloc.data { fresh with args := none, data := none } nlh.payload :=
    fun hno => nomatch hdecoded.fails.mpr hno
  exact ⟨⟨hreq, not_noBuffer_fresh_iff.mp hbuffers⟩, hdecoded.received hin⟩

theorem inBounds_iff (hreq : alloc.req = true) :
    (∃ r, foDeserialize alloc.req alloc.args alloc.data fresh nlh.payload = .ok r) ↔
      InBounds alloc.args alloc.data { fresh with args := none, data := none } nlh.payload := by
  rw [hreq, foDeserialize_eq]
  constructor
  · intro ⟨r, hr⟩
    obtain ⟨result, htoreq, -⟩ := Mem.bind_eq_ok hr
    exact inBounds_of_ok htoreq
  · intro hin
    obtain ⟨ok, r, htoreq, -⟩ := foDeserializeToreq_inBounds hin
    exact ⟨_, by rw [htoreq, Mem.bind_ok]⟩

end Execute

/-- For every payload, device and allocator, and every message type with a handler:
`fo_execute` stays inside what it received exactly when the lengths agree. -/
theorem foExecute_bounded_iff (alloc : ExecAlloc) (env : HandlerEnv) (fresh : FoReq) (acc : ServerAccess)
    (nlh : NlMessage) (fofun : FoHandler) (hfofun : foHandler nlh.msgtype = .ok (some fofun)) :
    Bounded alloc env fresh acc nlh fofun ↔ Agrees alloc env acc nlh := by
  cases hreq : alloc.req with
  | false =>
      have hnone : foDeserialize alloc.req alloc.args alloc.data fresh nlh.payload = .ok none := by
        rw [hreq]
        rfl
      have hnever : ¬ alloc.req = true := by simp [hreq]
      refine iff_of_true ⟨⟨none, hnone⟩, ?_, ?_⟩ ⟨?_, ?_, ?_, ?_, ?_⟩
      · exact fun req h => nomatch hnone.symm.trans h
      · exact fun req h => nomatch hnone.symm.trans h
      · exact fun h => absurd h hnever
      · exact fun h => absurd h hnever
      · exact fun h => absurd h hnever
      · exact fun h => absurd h.1 hnever
      · exact fun h => absurd h.1 hnever
  | true =>
      constructor
      · intro h
        have hin := (inBounds_iff hreq).mp h.payload
        obtain ⟨hheader, hargs, hdata⟩ := inBounds_fresh_iff.mp hin
        refine ⟨fun _ => hheader, fun _ => hargs, fun _ => hdata, ?_, ?_⟩
        · intro hdecodes
          obtain ⟨req, hreq', hreceived⟩ := received_of_decodes hreq hin hdecodes
          exact ((inside_received hfofun hreceived).mp (h.buffers req hreq')).1
        · intro hdecodes
          obtain ⟨req, hreq', hreceived⟩ := received_of_decodes hreq hin hdecodes
          exact ((inside_received hfofun hreceived).mp (h.buffers req hreq')).2
      · intro h
        have hin := (@inBounds_fresh_iff alloc.args alloc.data fresh nlh.payload).mpr
          ⟨h.header hreq, h.args hreq, h.data hreq⟩
        refine ⟨(inBounds_iff hreq).mpr hin, ?_, ?_⟩
        · intro req hreq'
          obtain ⟨hdecodes, hreceived⟩ := decodes_of_some hreq hreq'
          exact (inside_received hfofun hreceived).mpr ⟨h.touched hdecodes, h.written hdecodes⟩
        · intro req hreq' hwrite hhas
          obtain ⟨hdecodes, hreceived⟩ := decodes_of_some hreq hreq'
          rw [hreceived.args, hreceived.dataSize]
          exact h.written hdecodes hwrite hhas

namespace Sample

/-- A write of one byte, of which the args say that it is `size` bytes long. -/
def writeRequest (size : UInt64) : NlMessage :=
  .build 7 MSGT_FO_WRITE 0 (toBytes (3 : Int32) ++ toBytes (-1 : Int32) ++ toBytes (32 : UInt64) ++
    toBytes (1 : UInt64) ++ toBytes ({ data := 0, size, offset := 0, rvalue := 0 } : SFoWrite) ++ [65])

end Sample

/-- Its args say one byte. -/
theorem foExecute_bounded_one :
    Bounded .all Sample.closed Sample.freshReq Sample.writable (Sample.writeRequest 1) ndfoRecvWrite :=
  (foExecute_bounded_iff .all Sample.closed Sample.freshReq Sample.writable (Sample.writeRequest 1) ndfoRecvWrite
    rfl).mpr
    { header := fun _ => by decide +kernel
      args := fun _ _ _ => by decide +kernel
      data := fun _ _ _ _ _ => by decide +kernel
      touched := fun _ => by decide +kernel
      written := fun _ _ _ => by decide +kernel }

/-- Its args say 100 bytes: the device is to write 99 bytes of the kernel's memory. -/
theorem foExecute_overreads_write : foHandler (Sample.writeRequest 100).msgtype = .ok (some ndfoRecvWrite) ∧
    ¬ Bounded .all Sample.closed Sample.freshReq Sample.writable (Sample.writeRequest 100) ndfoRecvWrite := by
  refine ⟨rfl, ?_⟩
  intro h
  have hdecoded : foDeserialize true true true Sample.freshReq (Sample.writeRequest 100).payload = .ok (some
      { Sample.freshReq with accessId := 3, rvalue := -1, size := 32, dataSize := 1, data := some [65]
                             args := some (wireArgs (Sample.writeRequest 100).payload) }) := by decide +kernel
  have hsize : argsSize (wireArgs (Sample.writeRequest 100).payload) = 100 := by decide +kernel
  have hle := h.written _ hdecoded rfl rfl
  rw [Option.getD_some, hsize] at hle
  exact absurd hle (by decide)

end Netdev.Kernel
