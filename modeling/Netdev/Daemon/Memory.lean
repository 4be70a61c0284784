-- SUMMARY: The daemon's functions with the blocks that they allocate, use and free.
import Netdev.Base.Heap
import Netdev.Daemon.Config
import Netdev.Daemon.Conn
import Netdev.Netlink

/-!
# The memory of the daemon

The functions of `daemon/netlink.c`, `daemon/conn.c` and `daemon/proxy.c` once more, with
every block that they allocate, every pointer that they follow and every call of `free`.
What a received buffer holds decides which way they go; what is sent is left out, and so is
whether an access of these functions stays inside its block.
-/

namespace Netdev.Daemon.Memory
open Base

/-! ## Calls -/

inductive Fd where
  | nl
  | rm
  deriving DecidableEq

/-- What `select` reports. -/
structure Ready where
  us : Bool
  nl : Bool
  rm : Bool

inductive Syscall where
  | socketpair
  | socket
  | bind (addr : Pointer)
  | connect (addr : Pointer)
  | getpeername (addr : Pointer)
  | getsockopt
  | select
  | strlen (s : Pointer)
  /-- With `MSG_PEEK` or without. -/
  | recvall (fd : Fd) (peek : Bool) (buf : Pointer) (size : Nat)
  | sendall (fd : Fd) (buf : Pointer)
  /-- Read `n` bytes behind the end of a block. -/
  | overread (n : Nat)

abbrev Syscall.Res : Syscall → Type
  | .socketpair | .socket | .bind _ | .connect _ | .getpeername _ | .getsockopt => Bool
  | .select => Option Ready
  | .strlen _ => Nat
  | .recvall .. => Option Bytes
  | .sendall _ _ => Bool
  | .overread n => { buf : Bytes // buf.length = n }

abbrev SyscallI : Interface := ⟨Syscall, Syscall.Res⟩

def Syscall.buffer : Syscall → Pointer
  | .bind addr | .connect addr | .getpeername addr => addr
  | .strlen s => s
  | .recvall _ _ buf _ => buf
  | .sendall _ buf => buf
  | _ => .null

/-- The kernel stores nothing behind the null pointer, and `recvall` of nothing fails. Where it
succeeds its buffer is full: the answer is what lies from the beginning of the buffer to its end,
or to the last byte that was stored behind it. -/
def Syscall.Answers : Event SyscallI → Prop
  | ⟨.getpeername addr, ok⟩ => addr = .null → ok = false
  | ⟨.recvall _ _ buf size, r⟩ => ∀ bytes, r = some bytes → buf ≠ .null ∧ 0 < size ∧ size ≤ bytes.length
  | _ => True

/-- `recvall` has stored nothing behind its buffer: no call of `recvmsg` handed out a piece
that runs past its end. -/
def Syscall.Inside : Event SyscallI → Prop
  | ⟨.recvall _ _ _ size, r⟩ => ∀ bytes, r = some bytes → bytes.length ≤ size
  | _ => True

/-- Runs in which `recvall` stores behind its buffer are left out: any block may be there. -/
abbrev calls : Calls := ⟨SyscallI, Syscall.buffer, fun e => Syscall.Answers e ∧ Syscall.Inside e⟩

abbrev MemoryM := HeapM calls

/-- One call. -/
abbrev sys (op : Syscall) : MemoryM op.Res := heap (C := calls) (.call op)

abbrev malloc (n : Nat) : MemoryM Pointer := heap (C := calls) (.malloc n)
abbrev realloc (p : Pointer) (n : Nat) : MemoryM Pointer := heap (C := calls) (.realloc p n)
abbrev free (p : Pointer) : MemoryM Unit := heap (C := calls) (.free p)

/-- Follow a pointer. -/
abbrev use (p : Pointer) : MemoryM Unit := heap (C := calls) (.use p)

/-- The first `n` bytes at a pointer to a block that holds `buf`. -/
def readBuf (p : Pointer) (buf : Bytes) (n : Nat) : MemoryM Bytes := do
  use p
  if n ≤ buf.length then
    return buf.take n
  else
    let rest ← sys (.overread (n - buf.length))
    return buf ++ rest.val

/-! ## Data -/

/-- The pointers of a `struct proxy_dev`, and that to it. -/
structure Pdev where
  self : Pointer
  nlSrcAddr : Pointer
  nlDstAddr : Pointer
  rmAddr : Pointer
  usAddr : Pointer
  rmIpaddr : Pointer
  remoteDevName : Pointer
  dummyDevName : Pointer
  deriving DecidableEq

/-- A `struct netdev_header` on the heap, with what its payload holds. -/
structure Ndhead where
  self : Pointer
  msgtype : Int32
  size : UInt64
  payload : Pointer
  buf : Bytes

def Ndhead.null : Ndhead := ⟨.null, 0, 0, .null, []⟩

/-- A `struct nlmsghdr` on the heap, with what its block holds. -/
structure Nlh where
  self : Pointer
  buf : Bytes

def Nlh.null : Nlh := ⟨.null, []⟩

/-- `sizeof(struct proxy_dev)`. -/
def sizeofProxyDev : Nat := 88
/-- `sizeof(struct sockaddr_nl)`. -/
def sizeofSockaddrNl : Nat := 12
/-- `sizeof(struct sockaddr_in)`. -/
def sizeofSockaddrIn : Nat := 16

/-! ## `netlink.c` -/

def netlinkSetup (pdev : Pdev) : MemoryM (Int32 × Pdev) := do
  use pdev.self
  if !(← sys .socket) then
    return (-1, pdev)
  let nlSrcAddr ← malloc sizeofSockaddrNl
  let nlDstAddr ← malloc sizeofSockaddrNl
  let pdev := { pdev with nlSrcAddr, nlDstAddr }
  use nlSrcAddr
  use nlDstAddr
  if !(← sys (.bind nlSrcAddr)) then
    return (-1, pdev)
  return (0, pdev)

def netlinkSend (pdev : Pdev) (nlh : Pointer) : MemoryM Int32 := do
  if nlh = .null then
    return -1
  use nlh
  use pdev.self
  let _ ← sys (.sendall .nl nlh)
  return 0

/-- A `realloc` that fails is taken for the block it has not moved. -/
def netlinkRecv (pdev : Pdev) : MemoryM Nlh := do
  let buffer ← malloc (sizeof Nlmsghdr)
  use pdev.self
  match ← sys (.recvall .nl true buffer (sizeof Nlmsghdr)) with
  | none =>
      free buffer
      return .null
  | some head =>
      use buffer
      let bufflen := (NlMessage.read head).header.nlmsgLen.toNat
      let buffer ← realloc buffer bufflen
      match ← sys (.recvall .nl false buffer bufflen) with
      | none =>
          free buffer
          return .null
      | some buf => return ⟨buffer, buf⟩

/-- The block of `nlh` is left to the caller, that of the confirmation is freed. -/
def netlinkSendNlh (pdev : Pdev) (nlh : Pointer) : MemoryM Int32 := do
  use pdev.self
  use nlh
  if (← netlinkSend pdev nlh) = -1 then
    return -1
  let nlh ← netlinkRecv pdev
  if nlh.self = .null then
    return -1
  let m := NlMessage.read (← readBuf nlh.self nlh.buf (sizeof Nlmsghdr + sizeof Int32))
  let rvalue : Int32 := if m.msgtype = NLMSG_ERROR ∧ m.error = 0 then 0 else -1
  free nlh.self
  return rvalue

/-- When sending fails the message is not freed. -/
def netlinkSendMsg (pdev : Pdev) (buff : Pointer) (bsize : Nat) : MemoryM Int32 := do
  let nlh ← malloc (nlmsgSpace bsize)
  if nlh = .null then
    return -1
  use nlh
  use pdev.self
  if buff ≠ .null then
    use buff
  if (← netlinkSendNlh pdev nlh) = -1 then
    return -1
  free nlh
  return 0

/-- `netlink_send_msg` of a name and its terminating null. -/
def sendName (pdev : Pdev) (name : Pointer) : MemoryM Int32 := do
  use pdev.self
  let len ← sys (.strlen name)
  netlinkSendMsg pdev name (len + 1)

def netlinkRegDummyDev (pdev : Pdev) : MemoryM Int32 := sendName pdev pdev.dummyDevName

def netlinkRegRemoteDev (pdev : Pdev) : MemoryM Int32 := sendName pdev pdev.remoteDevName

def netlinkUnregisterDev (pdev : Pdev) : MemoryM Int32 := netlinkSendMsg pdev .null 0

/-! ## `conn.c` -/

def connSend (pdev : Pdev) (ndhead : Ndhead) : MemoryM Int32 := do
  use ndhead.self
  let buff ← malloc (UInt64.ofNat (sizeof NetdevHeader) + ndhead.size).toNat
  if buff = .null then
    return -1
  use ndhead.self
  use ndhead.payload
  use pdev.self
  if !(← sys (.sendall .rm buff)) then
    free buff
    return -1
  free buff
  return 0

/-- No allocation is checked, and on failure the header or the payload is forgotten. -/
def connRecv (pdev : Pdev) : MemoryM Ndhead := do
  let ndhead ← malloc (sizeof NetdevHeader)
  use pdev.self
  match ← sys (.recvall .rm false ndhead (sizeof NetdevHeader)) with
  | none => return .null
  | some head =>
      use ndhead
      let header : NetdevHeader := ofBytes head
      let payload ← malloc header.size.toNat
      match ← sys (.recvall .rm false payload header.size.toNat) with
      | none =>
          free ndhead
          return .null
      | some buf => return ⟨ndhead, header.msgtype, header.size, payload, buf⟩

/-- `free(ndhead->payload); free(ndhead);` -/
def freeMessage (ndhead : Ndhead) : MemoryM Unit := do
  use ndhead.self
  free ndhead.payload
  free ndhead.self

def connServer (version : Int32) (pdev : Pdev) : MemoryM (Int32 × Pdev) := do
  use pdev.self
  if !(← sys .socket) then
    return (-1, pdev)
  let rmAddr ← malloc sizeofSockaddrIn
  let pdev := { pdev with rmAddr }
  if rmAddr = .null then
    return (-1, pdev)
  use rmAddr
  use pdev.rmIpaddr
  if !(← sys (.connect rmAddr)) then
    return (-1, pdev)
  let self ← malloc (sizeof NetdevHeader)
  if self = .null then
    return (-1, pdev)
  use self
  let payload ← malloc (sizeof Int32)
  use payload
  let ndhead : Ndhead := ⟨self, MSGT_CONTROL_VERSION, UInt64.ofNat (sizeof Int32), payload, toBytes version⟩
  if (← connSend pdev ndhead) = -1 then
    freeMessage ndhead
    return (0, pdev)
  freeMessage ndhead
  -- a null pointer is followed at the end, too
  let ndhead ← connRecv pdev
  if ndhead.self = .null then
    freeMessage ndhead
    return (0, pdev)
  use ndhead.self
  if ndhead.size ≠ UInt64.ofNat (sizeof Int32) then
    freeMessage ndhead
    return (0, pdev)
  use ndhead.payload
  freeMessage ndhead
  return (0, pdev)

def connClient (version : Int32) (pdev : Pdev) : MemoryM Int32 := do
  let ndhead ← connRecv pdev
  use ndhead.self
  if ndhead.size ≠ UInt64.ofNat (sizeof Int32) then
    return -1
  let received := asInt (← readBuf ndhead.payload ndhead.buf (sizeof Int32))
  let reply := if received ≠ version then version else NETDEV_PROTOCOL_SUCCESS
  let ndhead := { ndhead with buf := toBytes reply }
  if (← connSend pdev ndhead) = -1 then
    freeMessage ndhead
    return -1
  freeMessage ndhead
  return reply

def connSendDevReg (pdev : Pdev) : MemoryM Int32 := do
  let self ← malloc (sizeof NetdevHeader)
  if self = .null then
    return -1
  use self
  use pdev.self
  let len ← sys (.strlen pdev.remoteDevName)
  let ndhead : Ndhead := ⟨self, MSGT_CONTROL_REG_SERVER, UInt64.ofNat (len + 1), pdev.remoteDevName, []⟩
  if (← connSend pdev ndhead) = -1 then
    free self
    return -1
  free self
  -- the reply is never freed
  let ndhead ← connRecv pdev
  if ndhead.self = .null then
    return -1
  use ndhead.self
  let rvalue := asInt (← readBuf ndhead.payload ndhead.buf (sizeof Int32))
  if rvalue ≠ NETDEV_PROTOCOL_SUCCESS then
    return -1
  if (← netlinkRegDummyDev pdev) = -1 then
    return -1
  return 0

def connRecvDevReg (pdev : Pdev) : MemoryM (Int32 × Pdev) := do
  let ndhead ← connRecv pdev
  use ndhead.self
  if ndhead.msgtype ≠ MSGT_CONTROL_REG_SERVER then
    return (-1, pdev)
  let remoteDevName ← malloc ndhead.size.toNat
  use pdev.self
  let pdev := { pdev with remoteDevName }
  if remoteDevName = .null then
    return (-1, pdev)
  use remoteDevName
  use ndhead.payload
  if (← netlinkRegRemoteDev pdev) = -1 then
    return (-1, pdev)
  -- the request's payload is forgotten for that of the reply
  let payload ← malloc (sizeof Int32)
  use payload
  let ndhead := { ndhead with payload, buf := toBytes NETDEV_PROTOCOL_SUCCESS }
  if (← connSend pdev ndhead) = -1 then
    return (-1, pdev)
  free payload
  return (0, pdev)

/-! ## `proxy.c` -/

def proxyHandleNetlink (pdev : Pdev) : MemoryM Int32 := do
  let nlh ← netlinkRecv pdev
  if nlh.self = .null then
    free nlh.self
    return -1
  let header := (NlMessage.read (← readBuf nlh.self nlh.buf (sizeof Nlmsghdr)))
  if isFileOperation header.msgtype then
    let self ← malloc (sizeof NetdevHeader)
    if self = .null then
      free nlh.self
      return -1
    use self
    let _ ← connSend pdev ⟨self, header.msgtype, header.header.nlmsgLen.toUInt64, nlh.self, nlh.buf⟩
    free self
    free nlh.self
    return 0
  else
    free nlh.self
    return -1

def proxyHandleRemote (pdev : Pdev) : MemoryM Int32 := do
  use pdev.self
  if !(← sys .getsockopt) then
    return -1
  let ndhead ← connRecv pdev
  if ndhead.self = .null then
    return -1
  use ndhead.self
  if isFileOperation ndhead.msgtype then
    let _ ← netlinkSendNlh pdev ndhead.payload
    freeMessage ndhead
    return 0
  else
    -- the payload is not freed
    free ndhead.self
    return -1

/-- At most so many turns; `none` when the loop goes on. -/
def proxyLoop (pdev : Pdev) : Nat → MemoryM (Option Int32)
  | 0 => return none
  | turns + 1 => do
      use pdev.self
      match ← sys .select with
      | none => return some (-1)
      | some ready =>
          -- `proxy_control` always fails
          if ready.us then
            return some (-1)
          if ready.nl then
            if (← proxyHandleNetlink pdev) = -1 then
              return some (-1)
          if ready.rm then
            if (← proxyHandleRemote pdev) = -1 then
              return some (-1)
          proxyLoop pdev turns

/-- What `read_config` allocates for a line; it stores the names through the pointers. -/
def allocPdev : MemoryM Pdev := do
  let self ← malloc sizeofProxyDev
  use self
  let remoteDevName ← malloc NETDEV_MAX_STRING
  let dummyDevName ← malloc NETDEV_MAX_STRING
  let rmIpaddr ← malloc NETDEV_MAX_STRING
  use remoteDevName
  use dummyDevName
  use rmIpaddr
  return ⟨self, .null, .null, .null, .null, rmIpaddr, remoteDevName, dummyDevName⟩

/-- No pointer but `rm_addr` is set. -/
def proxyAllocDev : MemoryM Pdev := do
  let self ← malloc sizeofProxyDev
  let pdev : Pdev := ⟨self, .unset, .unset, .unset, .unset, .unset, .unset, .unset⟩
  if self = .null then
    return pdev
  let rmAddr ← malloc sizeofSockaddrIn
  let pdev := { pdev with rmAddr }
  if !(← sys (.getpeername rmAddr)) then
    return { pdev with self := .null }
  use self
  return pdev

def proxyDestroy (pdev : Pdev) : MemoryM Unit := do
  use pdev.self
  free pdev.nlSrcAddr
  free pdev.nlDstAddr
  free pdev.rmAddr
  free pdev.usAddr
  free pdev.rmIpaddr
  free pdev.remoteDevName
  free pdev.dummyDevName
  free pdev.self

/-- `proxy_client` up to `proxy_loop`. When it does not get there it destroys its device. -/
def proxyClient (version : Int32) (pdev : Pdev) : MemoryM (Option Pdev) := do
  use pdev.self
  if !(← sys .socketpair) then
    proxyDestroy pdev
    return none
  let (rvalue, pdev) ← netlinkSetup pdev
  if rvalue = -1 then
    proxyDestroy pdev
    return none
  let (rvalue, pdev) ← connServer version pdev
  if rvalue = -1 then
    proxyDestroy pdev
    return none
  if (← connSendDevReg pdev) = -1 then
    proxyDestroy pdev
    return none
  return some pdev

/-- `proxy_server` up to `proxy_loop`. -/
def proxyServer (version : Int32) : MemoryM (Option Pdev) := do
  let pdev ← proxyAllocDev
  if pdev.self = .null then
    return none
  use pdev.self
  if !(← sys .socketpair) then
    return none
  let (rvalue, pdev) ← netlinkSetup pdev
  if rvalue = -1 then
    return none
  if (← connClient version pdev) = -1 then
    return none
  let (rvalue, pdev) ← connRecvDevReg pdev
  if rvalue = -1 then
    return none
  return some pdev

/-- The rest of both proxies; `false` while the loop goes on. -/
def proxyForward (turns : Nat) (pdev : Pdev) : MemoryM Bool := do
  match ← proxyLoop pdev turns with
  | none => return false
  | some _ =>
      let _ ← netlinkUnregisterDev pdev
      proxyDestroy pdev
      return true

end Netdev.Daemon.Memory
