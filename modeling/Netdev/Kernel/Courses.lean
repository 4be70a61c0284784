-- SUMMARY: For every handler, when it comes back, whether it fails then, and what it leaves in its request.
import Netdev.Kernel.ReplySize

/-!
# Courses of handlers

What a handler touches says how long its args must be. Whether it comes back depends also on
the pointers that it follows without a test: the file, its operations, and the buffer of a read.
-/

namespace Netdev.Kernel
open Base

/-! ## Courses -/

/-- `served` says that the pointers that the handler follows are there and that the device
comes back, `fails` that it returns -1 then. Otherwise the data of the request has the size
`dataSize` afterwards, and is there when `keeps` says so. -/
structure Course extends Reach where
  served : HandlerEnv → ServerAccess → Bytes → Bool
  fails : HandlerEnv → ServerAccess → Bool
  dataSize : Bytes → UInt64 → UInt64 := fun _ n => n
  keeps : HandlerEnv → Bool := fun _ => true

namespace Course

/-- An operation that is missing is a failure. -/
def tested {α : Type} (op : FileOperations → Option α) (size : Nat) : Course :=
  { Reach.tested op size with
    served := fun _ acc _ => acc.has some
    fails := fun _ acc => !acc.has op }

/-- An operation that is missing is called. -/
def called {α : Type} (op : FileOperations → Option α) (size : Nat) (fails : Bool) : Course :=
  { Reach.called op size with
    served := fun _ acc _ => acc.has op
    fails := fun _ _ => fails }

def llseek : Course := tested (·.llseek) (sizeof SFoLlseek)

/-- The data of the request is what `kzalloc` has returned. -/
def read : Course :=
  { Reach.read with
    served := fun env acc args => acc.has (·.read) && Reach.readReturns env acc args
    fails := fun _ _ => false
    dataSize := fun args _ => argsSize args
    keeps := fun env => env.dataOk }

def write : Course :=
  { Reach.write with
    served := fun _ acc _ => acc.has (·.write)
    fails := fun _ _ => false
    dataSize := fun _ _ => 0 }

def unlockedIoctl : Course := called (·.unlockedIoctl) (sizeof SFoUnlockedIoctl) true

def compatIoctl : Course := called (·.compatIoctl) (sizeof SFoCompatIoctl) false

def «open» : Course :=
  { Reach.open with
    served := fun _ _ _ => true
    fails := fun env _ =>
      match env.filpOpen with
      | .ok filp => filp.fOp.isNone
      | .error _ => true }

def flush : Course := tested (·.flush) (sizeof SFoFlush)

def release : Course :=
  { Reach.release with
    served := fun _ acc _ => acc.filp.isSome
    fails := fun _ _ => false }

/-- Also what `fo_execute` does without a handler. -/
def refuse : Course :=
  { Reach.nothing with
    served := fun _ _ _ => true
    fails := fun _ _ => true }

end Course

/-- In the order of `netdev_recv_fops`. -/
def courses : List Course :=
  [ .llseek, .read, .write, .refuse, .refuse, .refuse, .refuse, .unlockedIoctl, .compatIoctl, .refuse, .open,
    .flush, .release, .refuse, .refuse, .refuse, .refuse, .refuse, .refuse, .refuse, .refuse, .refuse,
    .refuse, .refuse, .refuse, .refuse ]

/-! ## Handlers and their courses -/

/-- Data of the size that the request says. -/
def FoReq.Stocked (req : FoReq) : Prop :=
  req.dataSize ≠ 0 → ∃ buf, req.data = some buf ∧ buf.length = req.dataSize.toNat

namespace Course

/-- What it leaves. -/
structure Ends (c : Course) (env : HandlerEnv) (acc : ServerAccess) (req : FoReq) (rvalue : Int32) (result : FoReq) :
    Prop where
  rvalue : rvalue = if c.fails env acc = true then -1 else 0
  pointer : c.fails env acc = false → 0 < (req.args.getD []).length ∧
    ∃ args, result.args = some args ∧ args.length = (req.args.getD []).length
  size : result.size = req.size
  dataSize : result.dataSize = c.dataSize (req.args.getD []) req.dataSize
  missing : c.keeps env = false → result.data = none
  present : c.keeps env = true → req.Stocked → result.Stocked

end Course

section Accesses
variable {σ α : Type} [Layout σ] [Layout α] {f : Field σ α} {buf out : Bytes} {a : α}

end Accesses

namespace Course
section Handlers
variable {env : HandlerEnv} {acc : ServerAccess} {req : FoReq}

section Reading
variable {env : HandlerEnv} {acc : ServerAccess} {args : Bytes} {ops : FileOperations}
  {read : (buf : Bytes) → Int64 → ReadResult buf.length}

end Reading

end Handlers
end Course

/-! ## The table -/

/-- The course of the handler of a message type. -/
def course (msgtype : Int32) : Course := courses.getD (msgtype - (MSGT_FO_START + 1)).toNatClampNeg .refuse

end Netdev.Kernel
