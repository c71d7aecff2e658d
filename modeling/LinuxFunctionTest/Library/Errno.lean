import Mathlib.Data.Int.Notation

/-!
# Error numbers

The error numbers of the kernel interfaces. A function that fails returns one of them negated.
-/

namespace LinuxFunctionTest.Errno

/-- `EPERM`. -/
def eperm : ℤ := 1

/-- `ENOENT`. -/
def enoent : ℤ := 2

/-- `EIO`. -/
def eio : ℤ := 5

/-- `ENXIO`. -/
def enxio : ℤ := 6

/-- `EAGAIN`. -/
def eagain : ℤ := 11

/-- `ENOMEM`. -/
def enomem : ℤ := 12

/-- `EFAULT`. -/
def efault : ℤ := 14

/-- `EBUSY`. -/
def ebusy : ℤ := 16

/-- `ENODEV`. -/
def enodev : ℤ := 19

/-- `EINVAL`. -/
def einval : ℤ := 22

/-- `EPIPE`. -/
def epipe : ℤ := 32

/-- `ERANGE`. -/
def erange : ℤ := 34

/-- `EIDRM`. -/
def eidrm : ℤ := 43

/-- `EBADMSG`. -/
def ebadmsg : ℤ := 74

/-- `EMSGSIZE`. -/
def emsgsize : ℤ := 90

/-- `EOPNOTSUPP`. -/
def eopnotsupp : ℤ := 95

/-- `ECONNRESET`. -/
def econnreset : ℤ := 104

/-- `ENOBUFS`. -/
def enobufs : ℤ := 105

/-- `ENOTCONN`. -/
def enotconn : ℤ := 107

/-- `ESHUTDOWN`. -/
def eshutdown : ℤ := 108

/-- `EINPROGRESS`. -/
def einprogress : ℤ := 115

/-- `ERESTARTSYS`, with which the kernel has a call that a signal interrupted made again. -/
def erestartsys : ℤ := 512

/-- The errors that `usb_translate_errors` of the USB core lets through; the others become one. -/
def usbTranslateErrors (errorCode : ℤ) : ℤ :=
  if errorCode = 0 ∨ errorCode = -enomem ∨ errorCode = -enodev ∨ errorCode = -eopnotsupp then errorCode else -eio

end LinuxFunctionTest.Errno
