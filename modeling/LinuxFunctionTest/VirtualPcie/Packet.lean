import LinuxFunctionTest.Library.Bytes
import LinuxFunctionTest.Library.Errno
import Mathlib.Data.List.Basic

/-!
# Virtual PCIe packets

The packet format, the device fields that packet handling touches, and `virtual_pcie_pkt.c` with
the BAR accesses it calls. Header fields are held as a little-endian host stores them, so a
big-endian field is the byte-reversed value. The handlers address kernel memory through flat
64-bit pointers whose arithmetic wraps, and no access faults.

Each function takes the outcomes of its allocations and the bytes an over-read of the payload
buffer would meet. The last fields of the device are observations.
-/

namespace LinuxFunctionTest.VirtualPcie

open Bytes Errno

/-- `VPCI_MAGIC`. -/
def vpciMagic : UInt32 := 0x56494345

/-- `VPCI_VERSION`. -/
def vpciVersion : UInt16 := 0x0001

/-- `VPCI_MAX_PAYLOAD`. -/
def vpciMaxPayload : ℕ := 1460

/-- `VPCI_MSG_CONFIG_READ`. -/
def vpciMsgConfigRead : UInt8 := 0x01

/-- `VPCI_MSG_CONFIG_WRITE`. -/
def vpciMsgConfigWrite : UInt8 := 0x02

/-- `VPCI_MSG_MEM_READ`. -/
def vpciMsgMemRead : UInt8 := 0x03

/-- `VPCI_MSG_MEM_WRITE`. -/
def vpciMsgMemWrite : UInt8 := 0x04

/-- `VPCI_MSG_IRQ`. -/
def vpciMsgIrq : UInt8 := 0x05

/-- `VPCI_MSG_ACK`. -/
def vpciMsgAck : UInt8 := 0x10

/-- `VPCI_MSG_NACK`. -/
def vpciMsgNack : UInt8 := 0x11

/-- `VPCI_MSG_HANDSHAKE`. -/
def vpciMsgHandshake : UInt8 := 0x20

/-- `VPCI_MSG_KEEPALIVE`. -/
def vpciMsgKeepalive : UInt8 := 0x21

/-- `struct vpci_pkt_header`. -/
structure VpciPktHeader where
  magic : UInt32
  version : UInt16
  type : UInt8
  flags : UInt8
  sessionId : UInt32
  seqNum : UInt32
  length : UInt32
  address : UInt64
  deriving DecidableEq

/-- `struct vpci_packet`, with the bytes that `data` points to. -/
structure VpciPacket where
  hdr : VpciPktHeader
  data : List UInt8
  deriving DecidableEq

/-- `struct vpci_bar_info`; `addr` is `none` while the BAR is not mapped. -/
structure VpciBarInfo where
  physAddr : UInt64
  size : UInt64
  addr : Option UInt64
  deriving DecidableEq

/-- The counters of `struct vpci_device`. -/
structure VpciStats where
  rxPackets : UInt64
  txPackets : UInt64
  rxBytes : UInt64
  txBytes : UInt64
  errors : UInt64
  dropped : UInt64
  deriving DecidableEq

/-- The fields of `struct vpci_device` that packet handling reads or writes, and the memory it
addresses. Observed: the interrupt numbers passed to the handler, the wake-ups of `ack_wait` and
the number of payload bytes each handler read. -/
structure VpciDevice where
  connected : Bool
  sock : Bool
  sessionId : UInt32
  handshakeStatus : ℤ
  handshakeComp : ℕ
  configSpace : UInt64
  configSize : UInt64
  bars : List VpciBarInfo
  irqHandler : Bool
  txList : List VpciPacket
  stats : VpciStats
  mem : UInt64 → UInt8
  irqs : List UInt32
  ackWakes : ℕ
  payloadReads : List ℕ

/-- What the environment decides while one packet is processed: the outcomes of the allocations of
a read handler (its buffer, its response) and of `vpci_send_ack` or `vpci_send_nack` (the packet,
its data), and the bytes behind the end of the payload. -/
structure PktChoice where
  readData : Bool
  response : Bool
  pkt : Bool
  status : Bool
  stray : ℕ → UInt8

/-- All allocations succeed. -/
def PktChoice.Allocates (c : PktChoice) : Prop :=
  c.readData = true ∧ c.response = true ∧ c.pkt = true ∧ c.status = true

/-- The bytes of an `int`. -/
def intBytes (n : ℤ) : List UInt8 := toLE 4 (n % 2 ^ 32).toNat

/-- The `len` bytes at a pointer. -/
def readMem (mem : UInt64 → UInt8) (ptr : UInt64) (len : ℕ) : List UInt8 :=
  (List.range len).map fun i => mem (ptr + UInt64.ofNat i)

/-- Store bytes at a pointer. -/
def writeMem (mem : UInt64 → UInt8) (ptr : UInt64) (bytes : List UInt8) : UInt64 → UInt8 := fun p =>
  bytes.getD (p - ptr).toNat (mem p)

/-- The first `len` bytes of the payload buffer; behind its end stray bytes are read. -/
def VpciPacket.payload (pkt : VpciPacket) (stray : ℕ → UInt8) (len : ℕ) : List UInt8 :=
  (List.range len).map fun i => pkt.data.getD i (stray i)

/-- `vpci_packet_send` and its result. -/
def vpciPacketSend (dev : VpciDevice) (pkt : VpciPacket) : VpciDevice × ℤ :=
  if dev.connected then ({ dev with txList := dev.txList ++ [pkt] }, 0)
  else ({ dev with stats := { dev.stats with dropped := dev.stats.dropped + 1 } }, -enotconn)

/-- The header that every answer carries. -/
def answerHdr (dev : VpciDevice) (type : UInt8) (seqNum length : UInt32) : VpciPktHeader where
  magic := swap32 vpciMagic
  version := swap16 vpciVersion
  type := type
  flags := 0
  sessionId := swap32 dev.sessionId
  seqNum := swap32 seqNum
  length := swap32 length
  address := 0

/-- The common body of `vpci_send_ack` and `vpci_send_nack`. -/
def vpciSendStatus (type : UInt8) (dev : VpciDevice) (c : PktChoice) (seqNum : UInt32)
    (status : ℤ) : VpciDevice :=
  if c.pkt && c.status then
    (vpciPacketSend dev ⟨answerHdr dev type seqNum 4, intBytes status⟩).1
  else dev

/-- `vpci_send_ack`. -/
def vpciSendAck : VpciDevice → PktChoice → UInt32 → ℤ → VpciDevice := vpciSendStatus vpciMsgAck

/-- `vpci_send_nack`. -/
def vpciSendNack : VpciDevice → PktChoice → UInt32 → ℤ → VpciDevice := vpciSendStatus vpciMsgNack

/-- The end of both read handlers: allocate the response and send it with the data read. -/
def vpciSendData (dev : VpciDevice) (c : PktChoice) (seqNum len : UInt32) (data : List UInt8) :
    VpciDevice :=
  if c.response then (vpciPacketSend dev ⟨answerHdr dev vpciMsgAck seqNum len, data⟩).1
  else vpciSendNack dev c seqNum (-enomem)

/-- The first BAR that contains the interval, as the loops of `vpci_mem_read` and `vpci_mem_write`
find it. Sums wrap. -/
def findBar (dev : VpciDevice) (addr : UInt64) (len : UInt32) : Option UInt64 :=
  dev.bars.findSome? fun bar =>
    bar.addr.bind fun base =>
      if bar.physAddr ≤ addr ∧ addr + len.toUInt64 ≤ bar.physAddr + bar.size then
        some (base + (addr - bar.physAddr))
      else none

/-- `vpci_mem_read`. Both kinds of BAR are read alike. -/
def vpciMemRead (dev : VpciDevice) (addr : UInt64) (len : UInt32) : Except ℤ (List UInt8) :=
  match findBar dev addr len with
  | some ptr => .ok (readMem dev.mem ptr len.toNat)
  | none => .error (-enxio)

/-- `vpci_mem_write`. -/
def vpciMemWrite (dev : VpciDevice) (addr : UInt64) (data : List UInt8) (len : UInt32) :
    Except ℤ VpciDevice :=
  match findBar dev addr len with
  | some ptr => .ok { dev with mem := writeMem dev.mem ptr data }
  | none => .error (-enxio)

/-- `vpci_handle_config_read`. -/
def vpciHandleConfigRead (dev : VpciDevice) (c : PktChoice) (pkt : VpciPacket) : VpciDevice :=
  let addr := swap64 pkt.hdr.address
  let len := swap32 pkt.hdr.length
  let seq := swap32 pkt.hdr.seqNum
  if addr + len.toUInt64 > dev.configSize then vpciSendNack dev c seq (-erange)
  else if c.readData then
    vpciSendData dev c seq len (readMem dev.mem (dev.configSpace + addr) len.toNat)
  else vpciSendNack dev c seq (-enomem)

/-- `vpci_handle_config_write`. -/
def vpciHandleConfigWrite (dev : VpciDevice) (c : PktChoice) (pkt : VpciPacket) : VpciDevice :=
  let addr := swap64 pkt.hdr.address
  let len := swap32 pkt.hdr.length
  let seq := swap32 pkt.hdr.seqNum
  if addr + len.toUInt64 > dev.configSize then vpciSendNack dev c seq (-erange)
  else
    let dev := { dev with
      mem := writeMem dev.mem (dev.configSpace + addr) (pkt.payload c.stray len.toNat)
      payloadReads := len.toNat :: dev.payloadReads }
    vpciSendAck dev c seq 0

/-- `vpci_handle_mem_read`. -/
def vpciHandleMemRead (dev : VpciDevice) (c : PktChoice) (pkt : VpciPacket) : VpciDevice :=
  let addr := swap64 pkt.hdr.address
  let len := swap32 pkt.hdr.length
  let seq := swap32 pkt.hdr.seqNum
  if c.readData then
    match vpciMemRead dev addr len with
    | .error ret => vpciSendNack dev c seq ret
    | .ok data => vpciSendData dev c seq len data
  else vpciSendNack dev c seq (-enomem)

/-- `vpci_handle_mem_write`. -/
def vpciHandleMemWrite (dev : VpciDevice) (c : PktChoice) (pkt : VpciPacket) : VpciDevice :=
  let addr := swap64 pkt.hdr.address
  let len := swap32 pkt.hdr.length
  let seq := swap32 pkt.hdr.seqNum
  match vpciMemWrite dev addr (pkt.payload c.stray len.toNat) len with
  | .error ret => vpciSendNack dev c seq ret
  | .ok dev => vpciSendAck { dev with payloadReads := len.toNat :: dev.payloadReads } c seq 0

/-- `vpci_handle_irq`. The number is the reversal of the low half of the stored address. -/
def vpciHandleIrq (dev : VpciDevice) (c : PktChoice) (pkt : VpciPacket) : VpciDevice :=
  let irqNum := swap32 pkt.hdr.address.toUInt32
  let seq := swap32 pkt.hdr.seqNum
  let dev := if dev.irqHandler then { dev with irqs := irqNum :: dev.irqs } else dev
  vpciSendAck dev c seq 0

/-- `vpci_handle_ack`. -/
def vpciHandleAck (dev : VpciDevice) : VpciDevice := { dev with ackWakes := dev.ackWakes + 1 }

/-- `vpci_handle_nack`; the error code it reads is only printed. -/
def vpciHandleNack (dev : VpciDevice) : VpciDevice :=
  { dev with
    payloadReads := 4 :: dev.payloadReads
    stats := { dev.stats with errors := dev.stats.errors + 1 } }

/-- `vpci_handle_handshake`. -/
def vpciHandleHandshake (dev : VpciDevice) (c : PktChoice) (pkt : VpciPacket) : VpciDevice :=
  let seq := swap32 pkt.hdr.seqNum
  let session := swap32 pkt.hdr.sessionId
  let dev := { dev with
    sessionId := session, handshakeStatus := 0, handshakeComp := dev.handshakeComp + 1 }
  vpciSendAck dev c seq 0

/-- `atomic64_inc(&dev->stats.errors)`. -/
def VpciDevice.countError (dev : VpciDevice) : VpciDevice :=
  { dev with stats := { dev.stats with errors := dev.stats.errors + 1 } }

/-- The counters `vpci_packet_process` starts with. -/
def VpciDevice.countRx (dev : VpciDevice) (length : UInt32) : VpciDevice :=
  { dev with
    stats := { dev.stats with
      rxPackets := dev.stats.rxPackets + 1
      rxBytes := dev.stats.rxBytes + length.toUInt64 } }

/-- `vpci_packet_process`. -/
def vpciPacketProcess (dev : VpciDevice) (c : PktChoice) (pkt : VpciPacket) : VpciDevice :=
  let type := pkt.hdr.type
  let seqNum := swap32 pkt.hdr.seqNum
  let dev := dev.countRx (swap32 pkt.hdr.length)
  if swap32 pkt.hdr.magic ≠ vpciMagic then vpciSendNack dev.countError c seqNum (-ebadmsg)
  else if type = vpciMsgConfigRead then vpciHandleConfigRead dev c pkt
  else if type = vpciMsgConfigWrite then vpciHandleConfigWrite dev c pkt
  else if type = vpciMsgMemRead then vpciHandleMemRead dev c pkt
  else if type = vpciMsgMemWrite then vpciHandleMemWrite dev c pkt
  else if type = vpciMsgIrq then vpciHandleIrq dev c pkt
  else if type = vpciMsgAck then vpciHandleAck dev
  else if type = vpciMsgNack then vpciHandleNack dev
  else if type = vpciMsgHandshake then vpciHandleHandshake dev c pkt
  else if type = vpciMsgKeepalive then dev
  else vpciSendNack dev.countError c seqNum (-einval)

/-- One iteration of the loop of `vpci_tx_thread` past its wait: take the first packet, send it when
the device is connected, count. `ret` is the result of `kernel_sendmsg`. The packet comes with the
answer whether it was passed to `kernel_sendmsg`. -/
def vpciTxThread (dev : VpciDevice) (ret : ℤ) : Option (VpciPacket × Bool × VpciDevice) :=
  match dev.txList with
  | [] => none
  | pkt :: rest =>
    let dev := { dev with txList := rest }
    if dev.connected && dev.sock then
      if ret < 0 then some (pkt, true, dev.countError)
      else
        let stats := { dev.stats with
          txPackets := dev.stats.txPackets + 1
          txBytes := dev.stats.txBytes + UInt64.ofNat ret.toNat }
        some (pkt, true, { dev with stats := stats })
    else
      some (pkt, false, { dev with stats := { dev.stats with dropped := dev.stats.dropped + 1 } })

/-- Sending a packet touches neither the memory of the device nor a received payload. -/
@[simp] theorem vpciPacketSend_mem (dev : VpciDevice) (pkt : VpciPacket) :
    (vpciPacketSend dev pkt).1.mem = dev.mem := by
  unfold vpciPacketSend
  split_ifs <;> rfl

@[simp] theorem vpciPacketSend_payloadReads (dev : VpciDevice) (pkt : VpciPacket) :
    (vpciPacketSend dev pkt).1.payloadReads = dev.payloadReads := by
  unfold vpciPacketSend
  split_ifs <;> rfl

/-- An ACK or a NACK touches neither. -/
@[simp] theorem vpciSendStatus_mem (type : UInt8) (dev : VpciDevice) (c : PktChoice)
    (seqNum : UInt32) (status : ℤ) : (vpciSendStatus type dev c seqNum status).mem = dev.mem := by
  unfold vpciSendStatus
  split_ifs
  · exact vpciPacketSend_mem _ _
  · rfl

@[simp] theorem vpciSendStatus_payloadReads (type : UInt8) (dev : VpciDevice) (c : PktChoice)
    (seqNum : UInt32) (status : ℤ) :
    (vpciSendStatus type dev c seqNum status).payloadReads = dev.payloadReads := by
  unfold vpciSendStatus
  split_ifs
  · exact vpciPacketSend_payloadReads _ _
  · rfl

/-- The answer to a read touches neither. -/
@[simp] theorem vpciSendData_mem (dev : VpciDevice) (c : PktChoice) (seqNum len : UInt32)
    (data : List UInt8) : (vpciSendData dev c seqNum len data).mem = dev.mem := by
  unfold vpciSendData
  split_ifs
  · exact vpciPacketSend_mem _ _
  · exact vpciSendStatus_mem _ _ _ _ _

@[simp] theorem vpciSendData_payloadReads (dev : VpciDevice) (c : PktChoice) (seqNum len : UInt32)
    (data : List UInt8) : (vpciSendData dev c seqNum len data).payloadReads = dev.payloadReads := by
  unfold vpciSendData
  split_ifs
  · exact vpciPacketSend_payloadReads _ _
  · exact vpciSendStatus_payloadReads _ _ _ _ _

/-- As many bytes of the payload buffer are read as are asked for. -/
@[simp] theorem VpciPacket.payload_length (pkt : VpciPacket) (stray : ℕ → UInt8) (len : ℕ) :
    (pkt.payload stray len).length = len := by
  simp [VpciPacket.payload]

/-- A payload that is long enough is read without stray bytes. -/
theorem VpciPacket.payload_of_le {pkt : VpciPacket} {len : ℕ} (h : len ≤ pkt.data.length)
    (stray : ℕ → UInt8) : pkt.payload stray len = pkt.data.take len := by
  apply List.ext_getElem
  · simp [h]
  · intro i hi hi'
    have hlt : i < pkt.data.length := by simp at hi'; omega
    simp [VpciPacket.payload, hlt]

/-- A store puts its own bytes where it changes anything. -/
theorem writeMem_mem {mem : UInt64 → UInt8} {ptr p : UInt64} {bytes : List UInt8}
    (h : writeMem mem ptr bytes p ≠ mem p) : writeMem mem ptr bytes p ∈ bytes := by
  have hlt : (p - ptr).toNat < bytes.length := by
    by_contra hlen
    refine h ?_
    rw [writeMem, List.getD_eq_getElem?_getD, List.getElem?_eq_none (by omega), Option.getD_none]
  rw [writeMem, List.getD_eq_getElem?_getD, List.getElem?_eq_getElem hlt, Option.getD_some]
  exact List.getElem_mem hlt

/-- A store changes no byte but those it covers. -/
theorem writeMem_touches {mem : UInt64 → UInt8} {ptr p : UInt64} {bytes : List UInt8}
    (h : writeMem mem ptr bytes p ≠ mem p) : ∃ i < bytes.length, p = ptr + UInt64.ofNat i := by
  refine ⟨(p - ptr).toNat, ?_, ?_⟩
  · by_contra hlen
    refine h ?_
    rw [writeMem, List.getD_eq_getElem?_getD, List.getElem?_eq_none (by omega), Option.getD_none]
  · rw [UInt64.ofNat_toNat, UInt64.add_comm, UInt64.sub_add_cancel]

/-- What one iteration of the transmit thread does to the queue and the link. -/
theorem vpciTxThread_spec {dev : VpciDevice} {ret : ℤ} {sent : VpciPacket × Bool × VpciDevice}
    (h : vpciTxThread dev ret = some sent) :
    dev.txList = sent.1 :: sent.2.2.txList ∧ sent.2.1 = (dev.connected && dev.sock) ∧
      sent.2.2.connected = dev.connected ∧ sent.2.2.sock = dev.sock := by
  unfold vpciTxThread at h
  cases htx : dev.txList with
  | nil => simp [htx] at h
  | cons pkt rest =>
    simp only [htx] at h
    split_ifs at h with hlink hret <;> obtain rfl := Option.some.inj h
    · exact ⟨rfl, hlink.symm, rfl, rfl⟩
    · exact ⟨rfl, hlink.symm, rfl, rfl⟩
    · exact ⟨rfl, by simpa using hlink, rfl, rfl⟩

/-- The transmit thread has something to do while a packet is queued. -/
theorem vpciTxThread_isSome {dev : VpciDevice} (ret : ℤ) (hqueue : dev.txList ≠ []) :
    ∃ sent, vpciTxThread dev ret = some sent := by
  unfold vpciTxThread
  cases htx : dev.txList with
  | nil => exact absurd htx hqueue
  | cons pkt rest =>
    simp only
    split_ifs <;> exact ⟨_, rfl⟩

/-- A connected device with a config space of one page and no BAR. -/
def vpciConnected : VpciDevice where
  connected := true
  sock := true
  sessionId := 0
  handshakeStatus := 0
  handshakeComp := 0
  configSpace := 0x10000
  configSize := 4096
  bars := []
  irqHandler := false
  txList := []
  stats := ⟨0, 0, 0, 0, 0, 0⟩
  mem := fun _ => 0
  irqs := []
  ackWakes := 0
  payloadReads := []

end LinuxFunctionTest.VirtualPcie
