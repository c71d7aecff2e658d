import LinuxFunctionTest.DummyUsb.Transport
import LinuxFunctionTest.Library.Flags
import LinuxFunctionTest.Library.Machine

/-!
# The root hub of the host controller

`hcd.c`: `uoe_hcd_start`, the body of `uoe_hcd_event_loop`, `uoe_hcd_hub_status`,
`uoe_hcd_hub_control` and the bus suspend and resume calls. They share one word, `port_status`: bits
0 to 15 are the port's state and bits 16 to 31 its changes. Each call is one step, since all of them
but the bus calls hold the lock. An event label carries `evt` as the receive call left it, so a late,
reordered or short datagram is one as well.
-/

namespace LinuxFunctionTest.DummyUsb

open Flags Errno

/-- `UOE_EVENT`. -/
def uoeEvent : UInt8 := 0x10

/-- `UOE_EVENT_CONNECT`. -/
def uoeEventConnect : UInt8 := 0x01

/-- `UOE_EVENT_DISCONNECT`. -/
def uoeEventDisconnect : UInt8 := 0x02

/-- `UOE_EVENT_RESET_DONE`. -/
def uoeEventResetDone : UInt8 := 0x03

/-- `UOE_EVENT_SUSPEND`. -/
def uoeEventSuspend : UInt8 := 0x04

/-- `UOE_EVENT_RESUME`. -/
def uoeEventResume : UInt8 := 0x05

/-- `USB_PORT_STAT_CONNECTION`. -/
def usbPortStatConnection : BitVec 32 := 0x0001

/-- `USB_PORT_STAT_ENABLE`. -/
def usbPortStatEnable : BitVec 32 := 0x0002

/-- `USB_PORT_STAT_SUSPEND`. -/
def usbPortStatSuspend : BitVec 32 := 0x0004

/-- `USB_PORT_STAT_RESET`. -/
def usbPortStatReset : BitVec 32 := 0x0010

/-- `USB_PORT_STAT_POWER`. -/
def usbPortStatPower : BitVec 32 := 0x0100

/-- `USB_PORT_STAT_LOW_SPEED`. -/
def usbPortStatLowSpeed : BitVec 32 := 0x0200

/-- `USB_PORT_STAT_HIGH_SPEED`. -/
def usbPortStatHighSpeed : BitVec 32 := 0x0400

/-- `USB_PORT_STAT_C_CONNECTION`, a bit of the upper half-word. -/
def usbPortStatCConnection : BitVec 32 := 0x0001

/-- `USB_PORT_STAT_C_RESET`, a bit of the upper half-word. -/
def usbPortStatCReset : BitVec 32 := 0x0010

/-- `USB_PORT_FEAT_ENABLE`. -/
def usbPortFeatEnable : UInt16 := 1

/-- `USB_PORT_FEAT_SUSPEND`. -/
def usbPortFeatSuspend : UInt16 := 2

/-- `USB_PORT_FEAT_RESET`. -/
def usbPortFeatReset : UInt16 := 4

/-- `USB_PORT_FEAT_POWER`. -/
def usbPortFeatPower : UInt16 := 8

/-- `USB_PORT_FEAT_C_CONNECTION`. -/
def usbPortFeatCConnection : UInt16 := 16

/-- `USB_PORT_FEAT_C_RESET`. -/
def usbPortFeatCReset : UInt16 := 20

/-- `ClearHubFeature`. -/
def clearHubFeature : UInt16 := 0x2001

/-- `ClearPortFeature`. -/
def clearPortFeature : UInt16 := 0x2301

/-- `GetHubDescriptor`. -/
def getHubDescriptor : UInt16 := 0xa006

/-- `GetHubStatus`. -/
def getHubStatus : UInt16 := 0xa000

/-- `GetPortStatus`. -/
def getPortStatus : UInt16 := 0xa300

/-- `SetHubFeature`. -/
def setHubFeature : UInt16 := 0x2003

/-- `SetPortFeature`. -/
def setPortFeature : UInt16 := 0x2303

/-- `hcd->state`, as far as these functions read or write it. -/
inductive HcState where
  | running
  | suspended
  deriving DecidableEq

/-- What the host controller does besides editing its state, and the events it processes. -/
inductive HubEffect where
  | processed (event : UInt8)
  | sendEvent (event : UInt8)
  | pollRhStatus
  | resumeRootHub
  deriving DecidableEq

/-- The fields of `struct uoe_hcd` the root hub uses, and its effects, newest first. -/
structure UoeHcd where
  portStatus : BitVec 32
  oldStatus : BitVec 32
  remoteConnected : Bool
  state : HcState
  log : List HubEffect

/-- The fields of the hub descriptor that `GetHubDescriptor` fills in. -/
structure UsbHubDescriptor where
  bDescriptorType : UInt8
  bDescLength : UInt8
  wHubCharacteristics : UInt16
  bNbrPorts : UInt8
  deviceRemovable : UInt8 × UInt8
  deriving DecidableEq

/-- What a hub request writes to its buffer. -/
inductive HubBuf where
  | none
  | hubDescriptor (desc : UsbHubDescriptor)
  | hubStatus (status : UInt32)
  | portStatus (status change : BitVec 16)
  deriving DecidableEq

namespace UoeHcd

variable (uoe : UoeHcd)

/-- Record an effect. -/
def emit (e : HubEffect) : UoeHcd := { uoe with log := e :: uoe.log }

/-- `uoe->port_status |= mask`. -/
def setPort (mask : BitVec 32) : UoeHcd := { uoe with portStatus := Flags.set uoe.portStatus mask }

/-- `uoe->port_status &= ~mask`. -/
def clearPort (mask : BitVec 32) : UoeHcd :=
  { uoe with portStatus := Flags.clear uoe.portStatus mask }

/-- `uoe->port_status & mask`. -/
def Port (mask : BitVec 32) : Prop := Any uoe.portStatus mask

instance (mask : BitVec 32) : Decidable (uoe.Port mask) :=
  inferInstanceAs (Decidable (Any _ _))

/-- `(uoe->port_status & 0xffff0000) != 0`. -/
def PortChanged : Prop := Any uoe.portStatus 0xffff0000

instance : Decidable uoe.PortChanged := inferInstanceAs (Decidable (Any _ _))

end UoeHcd

/-- `uoe_hcd_start`. -/
def uoeHcdStart (uoe : UoeHcd) : UoeHcd :=
  { uoe with
    state := .running
    portStatus := usbPortStatPower ||| usbPortStatConnection
    oldStatus := usbPortStatPower ||| usbPortStatConnection
    log := [] }

/-- The switch of `uoe_hcd_event_loop`. -/
def uoeHcdEventSwitch (uoe : UoeHcd) (event : UInt8) : UoeHcd :=
  if event = uoeEventConnect then
    { (uoe.setPort usbPortStatConnection).setPort usbPortStatEnable with remoteConnected := true }
  else if event = uoeEventDisconnect then
    { (uoe.clearPort usbPortStatConnection).clearPort usbPortStatEnable with
      remoteConnected := false }
  else if event = uoeEventResetDone then
    ((uoe.clearPort usbPortStatReset).setPort usbPortStatEnable).setPort (usbPortStatCReset <<< 16)
  else if event = uoeEventSuspend then uoe.setPort usbPortStatSuspend
  else if event = uoeEventResume then uoe.clearPort usbPortStatSuspend
  else uoe

/-- One round of `uoe_hcd_event_loop` on a received datagram. -/
def uoeHcdEvent (uoe : UoeHcd) (type event : UInt8) : UoeHcd :=
  if type ≠ uoeEvent then uoe
  else
    let uoe := uoeHcdEventSwitch uoe event
    let uoe := { uoe with oldStatus := uoe.portStatus }
    (uoe.emit (.processed event)).emit .pollRhStatus

/-- `uoe_hcd_hub_status`: the hub, the first byte it writes to the buffer, and the result. -/
def uoeHcdHubStatus (uoe : UoeHcd) : UoeHcd × Option UInt8 × ℤ :=
  if uoe.PortChanged then
    (if uoe.state = .suspended then uoe.emit .resumeRootHub else uoe, some ((1 : UInt8) <<< 1), 1)
  else (uoe, none, 0)

/-- The `ClearPortFeature` case of `uoe_hcd_hub_control`. -/
def uoeHcdClearPortFeature (uoe : UoeHcd) (wValue : UInt16) : UoeHcd × ℤ :=
  if wValue = usbPortFeatSuspend then
    ((uoe.clearPort usbPortStatSuspend).emit (.sendEvent uoeEventResume), 0)
  else if wValue = usbPortFeatPower then (uoe.clearPort usbPortStatPower, 0)
  else if wValue = usbPortFeatEnable ∨ wValue = usbPortFeatCConnection ∨
      wValue = usbPortFeatCReset then
    (uoe.clearPort (1 <<< wValue.toNat), 0)
  else (uoe, -epipe)

/-- The `SetPortFeature` case of `uoe_hcd_hub_control`. -/
def uoeHcdSetPortFeature (uoe : UoeHcd) (wValue : UInt16) : UoeHcd × ℤ :=
  if wValue = usbPortFeatSuspend then
    if uoe.Port usbPortStatEnable then
      ((uoe.setPort usbPortStatSuspend).emit (.sendEvent uoeEventSuspend), 0)
    else (uoe, 0)
  else if wValue = usbPortFeatPower then (uoe.setPort usbPortStatPower, 0)
  else if wValue = usbPortFeatReset then
    if uoe.Port usbPortStatConnection then
      ((uoe.setPort usbPortStatReset).clearPort
        (usbPortStatEnable ||| usbPortStatLowSpeed ||| usbPortStatHighSpeed), 0)
    else (uoe, 0)
  else (uoe, -epipe)

/-- The descriptor `GetHubDescriptor` returns: `HUB_CHAR_INDV_PORT_LPSM | HUB_CHAR_COMMON_OCPM` and
one port. -/
def uoeHubDescriptor : UsbHubDescriptor := ⟨0x29, 9, 0x0001 ||| 0x0000, 1, (0, 0xff)⟩

/-- The switch of `uoe_hcd_hub_control`: the hub, the buffer and `retval`. -/
def uoeHcdHubSwitch (uoe : UoeHcd) (typeReq wValue wIndex : UInt16) : UoeHcd × HubBuf × ℤ :=
  if typeReq = clearHubFeature then (uoe, .none, 0)
  else if typeReq = clearPortFeature then
    let (uoe, retval) := uoeHcdClearPortFeature uoe wValue
    (uoe, .none, retval)
  else if typeReq = getHubDescriptor then (uoe, .hubDescriptor uoeHubDescriptor, 0)
  else if typeReq = getHubStatus then (uoe, .hubStatus 0, 0)
  else if typeReq = getPortStatus then
    if wIndex ≠ 1 then (uoe, .none, -epipe)
    else (uoe, .portStatus (uoe.portStatus.setWidth 16) ((uoe.portStatus >>> 16).setWidth 16), 0)
  else if typeReq = setHubFeature then (uoe, .none, -epipe)
  else if typeReq = setPortFeature then
    let (uoe, retval) := uoeHcdSetPortFeature uoe wValue
    (uoe, .none, retval)
  else (uoe, .none, -epipe)

/-- `uoe_hcd_hub_control`. The buffer length is not read. -/
def uoeHcdHubControl (uoe : UoeHcd) (typeReq wValue wIndex : UInt16) : UoeHcd × HubBuf × ℤ :=
  let (uoe, buf, retval) := uoeHcdHubSwitch uoe typeReq wValue wIndex
  (if uoe.PortChanged then uoe.emit .pollRhStatus else uoe, buf, retval)

/-- `uoe_hcd_bus_suspend`. -/
def uoeHcdBusSuspend (uoe : UoeHcd) : UoeHcd × ℤ :=
  ({ uoe with state := .suspended }.setPort usbPortStatSuspend, 0)

/-- `uoe_hcd_bus_resume`. -/
def uoeHcdBusResume (uoe : UoeHcd) : UoeHcd × ℤ :=
  ({ uoe with state := .running }.clearPort usbPortStatSuspend, 0)

/-- What reaches the root hub: a datagram on the event socket, or a call of the hub driver. -/
inductive HubStep where
  | event (type event : UInt8)
  | hubStatus
  | hubControl (typeReq wValue wIndex : UInt16)
  | busSuspend
  | busResume
  deriving DecidableEq

/-- The root hub takes its steps in any order. -/
def hubMachine : Machine UoeHcd HubStep where
  step uoe step := some <| match step with
    | .event type event => uoeHcdEvent uoe type event
    | .hubStatus => (uoeHcdHubStatus uoe).1
    | .hubControl typeReq wValue wIndex => (uoeHcdHubControl uoe typeReq wValue wIndex).1
    | .busSuspend => (uoeHcdBusSuspend uoe).1
    | .busResume => (uoeHcdBusResume uoe).1

end LinuxFunctionTest.DummyUsb
