-- SUMMARY: The args structs of the file operations as they lie in memory, with their fields.
import Netdev.Base.Memory
import Netdev.Protocol

/-!
# Arguments of file operations

The structs of `include/fo_struct.h` that a sender fills and a handler reads and
updates in place. They travel as raw bytes, pointers and padding included.
-/

namespace Netdev.Kernel
open Base

/-! ## llseek -/

structure SFoLlseek where
  offset : Int64
  whence : Int32
  pad : UInt32
  rvalue : Int64
  deriving DecidableEq

namespace SFoLlseek

def equiv : SFoLlseek ≃ Int64 × (Int32 × UInt32) × Int64 where
  toFun a := (a.offset, (a.whence, a.pad), a.rvalue)
  invFun p := ⟨p.1, p.2.1.1, p.2.1.2, p.2.2⟩
  left_inv _ := rfl
  right_inv _ := rfl

instance : Layout SFoLlseek := .ofEquiv equiv

def offsetField : Field SFoLlseek Int64 := .ofEquiv equiv (.inFst .whole)
def whenceField : Field SFoLlseek Int32 := .ofEquiv equiv (.inSnd (.inFst (.inFst .whole)))
def rvalueField : Field SFoLlseek Int64 := .ofEquiv equiv (.inSnd (.inSnd .whole))

end SFoLlseek

/-! ## read and write -/

/-- `data` is a pointer in the sender's address space. -/
structure SFoRead where
  data : UInt64
  size : UInt64
  offset : Int64
  rvalue : Int64
  deriving DecidableEq

namespace SFoRead

def equiv : SFoRead ≃ UInt64 × UInt64 × Int64 × Int64 where
  toFun a := (a.data, a.size, a.offset, a.rvalue)
  invFun p := ⟨p.1, p.2.1, p.2.2.1, p.2.2.2⟩
  left_inv _ := rfl
  right_inv _ := rfl

instance : Layout SFoRead := .ofEquiv equiv

def dataField : Field SFoRead UInt64 := .ofEquiv equiv (.inFst .whole)
def sizeField : Field SFoRead UInt64 := .ofEquiv equiv (.inSnd (.inFst .whole))
def offsetField : Field SFoRead Int64 := .ofEquiv equiv (.inSnd (.inSnd (.inFst .whole)))
def rvalueField : Field SFoRead Int64 := .ofEquiv equiv (.inSnd (.inSnd (.inSnd .whole)))

end SFoRead

/-- `struct s_fo_write` has the fields of `struct s_fo_read`. -/
abbrev SFoWrite := SFoRead

/-! ## ioctl -/

structure SFoUnlockedIoctl where
  cmd : UInt32
  pad : UInt32
  arg : UInt64
  rvalue : Int64
  deriving DecidableEq

namespace SFoUnlockedIoctl

def equiv : SFoUnlockedIoctl ≃ (UInt32 × UInt32) × UInt64 × Int64 where
  toFun a := ((a.cmd, a.pad), a.arg, a.rvalue)
  invFun p := ⟨p.1.1, p.1.2, p.2.1, p.2.2⟩
  left_inv _ := rfl
  right_inv _ := rfl

instance : Layout SFoUnlockedIoctl := .ofEquiv equiv

def cmdField : Field SFoUnlockedIoctl UInt32 := .ofEquiv equiv (.inFst (.inFst .whole))
def argField : Field SFoUnlockedIoctl UInt64 := .ofEquiv equiv (.inSnd (.inFst .whole))
def rvalueField : Field SFoUnlockedIoctl Int64 := .ofEquiv equiv (.inSnd (.inSnd .whole))

end SFoUnlockedIoctl

/-- `struct s_fo_compat_ioctl` has the same fields. -/
abbrev SFoCompatIoctl := SFoUnlockedIoctl

/-! ## open, flush and release -/

structure SFoOpen where
  inode : UInt64
  rvalue : Int32
  pad : UInt32
  deriving DecidableEq

namespace SFoOpen

def equiv : SFoOpen ≃ UInt64 × Int32 × UInt32 where
  toFun a := (a.inode, a.rvalue, a.pad)
  invFun p := ⟨p.1, p.2.1, p.2.2⟩
  left_inv _ := rfl
  right_inv _ := rfl

instance : Layout SFoOpen := .ofEquiv equiv

def rvalueField : Field SFoOpen Int32 := .ofEquiv equiv (.inSnd (.inFst .whole))

end SFoOpen

/-- `struct s_fo_flush` and `struct s_fo_release` hold only the return value. -/
structure SFoRelease where
  rvalue : Int32
  deriving DecidableEq

namespace SFoRelease

def equiv : SFoRelease ≃ Int32 where
  toFun a := a.rvalue
  invFun r := ⟨r⟩
  left_inv _ := rfl
  right_inv _ := rfl

instance : Layout SFoRelease := .ofEquiv equiv

def rvalueField : Field SFoRelease Int32 := .ofEquiv equiv .whole

end SFoRelease

abbrev SFoFlush := SFoRelease

end Netdev.Kernel
