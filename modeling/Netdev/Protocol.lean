-- SUMMARY: Constants shared by the kernel module and the daemon: message types, limits and error numbers.

/-!
# Protocol constants

The numbers of `include/protocol.h` and `kernel/netdev.h`, and the error numbers
the driver returns. Message types are plain numbers here, since `nlmsg_type` and
`msgtype` carry arbitrary values that the code compares with these.
-/

namespace Netdev

def NETDEV_PROTOCOL_SUCCESS : Int32 := 0

/-- Size limit of messages sent through `sendmsg`. -/
def NETDEV_MESSAGE_LIMIT : UInt64 := 213000

/-! ## Control messages -/

def MSGT_CONTROL_START : Int32 := 0
def MSGT_CONTROL_ECHO : Int32 := 1
def MSGT_CONTROL_VERSION : Int32 := 4
def MSGT_CONTROL_REG_DUMMY : Int32 := 5
def MSGT_CONTROL_REG_SERVER : Int32 := 6
def MSGT_CONTROL_UNREGISTER : Int32 := 7
def MSGT_CONTROL_END : Int32 := 11

/-! ## File operation messages -/

def MSGT_FO_START : Int32 := 100
def MSGT_FO_LLSEEK : Int32 := 101
def MSGT_FO_READ : Int32 := 102
def MSGT_FO_WRITE : Int32 := 103
def MSGT_FO_UNLOCKED_IOCTL : Int32 := 108
def MSGT_FO_COMPAT_IOCTL : Int32 := 109
def MSGT_FO_OPEN : Int32 := 111
def MSGT_FO_FLUSH : Int32 := 112
def MSGT_FO_RELEASE : Int32 := 113
def MSGT_FO_END : Int32 := 127

/-- The test that both programs make before they treat a message as a file
operation. -/
def isFileOperation (msgtype : Int32) : Bool :=
  MSGT_FO_START < msgtype && msgtype < MSGT_FO_END

/-! ## Netlink -/

/-- `nlmsg_type` of an acknowledgement. -/
def NLMSG_ERROR : Int32 := 2

theorem isFileOperation_NLMSG_ERROR : isFileOperation NLMSG_ERROR = false := by decide

/-! ## Limits -/

def NETDEV_MAX_DEVICES : Nat := 32

/-- Size in bytes of the request fifo of an open file. -/
def NETDEV_FO_QUEUE_SIZE : Nat := 64

/-! ## Error numbers -/

def EIO : Int32 := 5
def ENOMEM : Int32 := 12
def EBUSY : Int32 := 16
def ENODEV : Int32 := 19
def EINVAL : Int32 := 22
def ENFILE : Int32 := 23
def ENODATA : Int32 := 61
def ECANCELED : Int32 := 125

end Netdev
