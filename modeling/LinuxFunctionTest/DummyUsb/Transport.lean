import LinuxFunctionTest.Library.Bytes
import LinuxFunctionTest.Library.Errno
import Mathlib.Data.List.Basic

/-!
# The USB over Ethernet transport

`usb_over_net.c`: the packet header, the senders and `uoe_recv_packet`. A header is written as the
memory image a little-endian host has of it. A datagram socket keeps the datagrams that arrived, in
order; each receive call takes the first one, copies what its vectors hold and discards the rest,
and it waits while there is none. Socket calls succeed, and so do allocations below half of the address
space.
-/

namespace LinuxFunctionTest.DummyUsb

open Bytes Errno

/-- `UOE_MAX_PAYLOAD`. -/
def uoeMaxPayload : ℤ := 65536

/-- `UOE_POLL_IN`. -/
def uoePollIn : UInt8 := 0x01

/-- `UOE_POLL_OUT`. -/
def uoePollOut : UInt8 := 0x02

/-- `UOE_SETUP`. -/
def uoeSetup : UInt8 := 0x03

/-- `UOE_DATA`. -/
def uoeData : UInt8 := 0x04

/-- `UOE_NAK`. -/
def uoeNak : UInt8 := 0x05

/-- `UOE_STALL`. -/
def uoeStall : UInt8 := 0x06

/-- `struct uoe_header`, with the fields as the host stores them. -/
structure UoeHeader where
  type : UInt8
  epAddr : UInt8
  seq : UInt16
  length : UInt32
  deriving DecidableEq

/-- `sizeof(struct uoe_header)`. -/
def uoeHeaderSize : ℕ := 8

/-- The bytes of a header. -/
def UoeHeader.bytes (hdr : UoeHeader) : List UInt8 :=
  hdr.type :: hdr.epAddr :: (toLE 2 hdr.seq.toNat ++ toLE 4 hdr.length.toNat)

/-- The header whose bytes are these, and behind them others. -/
def UoeHeader.ofBytes (bytes : List UInt8) : UoeHeader where
  type := bytes.getD 0 0
  epAddr := bytes.getD 1 0
  seq := UInt16.ofNat (ofLE ((bytes.drop 2).take 2))
  length := UInt32.ofNat (ofLE ((bytes.drop 4).take 4))

/-- A socket address. -/
structure SockAddr where
  addr : UInt32
  port : UInt16
  deriving DecidableEq

/-- A datagram with the address it came from. -/
structure Datagram where
  src : SockAddr
  bytes : List UInt8
  deriving DecidableEq

/-- The header every sender fills in: `hdr.seq = htons(seq)` and `hdr.length = htonl(len)`. -/
def uoeHdr (type epAddr : UInt8) (seq : UInt16) (len : UInt32) : UoeHeader :=
  ⟨type, epAddr, swap16 seq, swap32 len⟩

/-- The payload of `uoe_send_data`: the zeroed buffer, with `len` bytes copied in unless the data
pointer is null. -/
def uoePayload (buf : Option (ℕ → UInt8)) (len : UInt32) : List UInt8 :=
  match buf with
  | some buf => (List.range len.toNat).map buf
  | none => List.replicate len.toNat 0

/-- The datagram of `uoe_send_poll`. -/
def uoeSendPoll (type epAddr : UInt8) (seq : UInt16) : List UInt8 := (uoeHdr type epAddr seq 0).bytes

/-- The datagram of `uoe_send_data`. -/
def uoeSendData (epAddr : UInt8) (seq : UInt16) (buf : Option (ℕ → UInt8)) (len : UInt32) :
    List UInt8 :=
  (uoeHdr uoeData epAddr seq len).bytes ++ uoePayload buf len

/-- The datagram of `uoe_send_nak`. -/
def uoeSendNak (epAddr : UInt8) (seq : UInt16) : List UInt8 := (uoeHdr uoeNak epAddr seq 0).bytes

/-- The datagram of `uoe_send_stall`. -/
def uoeSendStall (epAddr : UInt8) (seq : UInt16) : List UInt8 := (uoeHdr uoeStall epAddr seq 0).bytes

/-- `kernel_recvmsg` on vectors of the given total length, limited to `size` bytes. -/
def kernelRecvmsg (queue : List Datagram) (vecLen size : ℕ) :
    Option (Datagram × List Datagram) :=
  match queue with
  | [] => none
  | d :: rest => some ({ d with bytes := d.bytes.take (min vecLen size) }, rest)

/-- The packet that `uoe_recv_packet` returns: its header, the bytes behind the header, the size of
the buffer it allocated, and the source address the last receive call stored. -/
structure UoePacket where
  hdr : UoeHeader
  data : List UInt8
  allocated : ℕ
  src : SockAddr
  deriving DecidableEq

/-- A 32-bit value as the `int` it is assigned to. -/
def toInt32 (n : UInt32) : ℤ := if n.toNat < 2 ^ 31 then n.toNat else n.toNat - 2 ^ 32

/-- `sizeof(struct uoe_header) + data_len`, in 64 bits: a negative length wraps. -/
def uoeAllocated (dataLen : ℤ) : ℕ := ((uoeHeaderSize + dataLen) % 2 ^ 64).toNat

/-- `uoe_recv_packet`: the result with the packet if any, and the datagrams left. It has not
returned while it waits for a datagram, and it never does after a fault. -/
def uoeRecvPacket (queue : List Datagram) : Option ((ℤ × Option UoePacket) × List Datagram) := do
  let (d, queue) ← kernelRecvmsg queue uoeHeaderSize uoeHeaderSize
  if d.bytes.length < uoeHeaderSize then return ((-emsgsize, none), queue)
  let hdr := UoeHeader.ofBytes d.bytes
  let dataLen := toInt32 (swap32 hdr.length)
  if dataLen > uoeMaxPayload then return ((-emsgsize, none), queue)
  let allocated := uoeAllocated dataLen
  let zeroed := List.replicate dataLen.toNat (0 : UInt8)
  -- `kzalloc(0)` is `ZERO_SIZE_PTR`: not null, and the header cannot be written there.
  if allocated = 0 then none
  else if 2 ^ 63 ≤ allocated then return ((-enomem, none), queue)
  else if dataLen > 0 then
    -- The first vector is still the local header, so the data starts at the ninth byte received.
    let (e, queue) ← kernelRecvmsg queue (uoeHeaderSize + dataLen.toNat) dataLen.toNat
    let received := e.bytes.drop uoeHeaderSize
    let packet := ⟨hdr, received ++ zeroed.drop received.length, allocated, e.src⟩
    return ((uoeHeaderSize + dataLen, some packet), queue)
  else
    return ((uoeHeaderSize + dataLen, some ⟨hdr, zeroed, allocated, d.src⟩), queue)

/-- The memory image of a header has the size of a header. -/
@[simp] theorem UoeHeader.bytes_length (hdr : UoeHeader) : hdr.bytes.length = uoeHeaderSize := by
  simp [UoeHeader.bytes, uoeHeaderSize]

/-- Reading the image of a header back, whatever bytes come behind it. -/
theorem UoeHeader.ofBytes_bytes (hdr : UoeHeader) (rest : List UInt8) :
    UoeHeader.ofBytes (hdr.bytes ++ rest) = hdr := by
  have hseq : UInt16.ofNat (ofLE (toLE 2 hdr.seq.toNat)) = hdr.seq := by
    rw [ofLE_toLE, Nat.mod_eq_of_lt (show hdr.seq.toNat < 256 ^ 2 from hdr.seq.toNat_lt),
      UInt16.ofNat_toNat]
  have hlength : UInt32.ofNat (ofLE (toLE 4 hdr.length.toNat)) = hdr.length := by
    rw [ofLE_toLE, Nat.mod_eq_of_lt (show hdr.length.toNat < 256 ^ 4 from hdr.length.toNat_lt),
      UInt32.ofNat_toNat]
  cases hdr
  simp_all [UoeHeader.ofBytes, UoeHeader.bytes, toLE]

/-- Reading the image of a header back. -/
theorem UoeHeader.ofBytes_bytes_self (hdr : UoeHeader) : UoeHeader.ofBytes hdr.bytes = hdr := by
  have h := hdr.ofBytes_bytes []
  rwa [List.append_nil] at h

/-- The first receive call reads the header and discards the rest of its datagram. -/
theorem recv_header (src : SockAddr) (hdr : UoeHeader) (payload : List UInt8)
    (rest : List Datagram) :
    kernelRecvmsg (⟨src, hdr.bytes ++ payload⟩ :: rest) uoeHeaderSize uoeHeaderSize =
      some (⟨src, hdr.bytes⟩, rest) := by
  simp only [kernelRecvmsg, min_self, List.take_left' hdr.bytes_length]

/-- What `uoe_recv_packet` does with a datagram that starts with a header. -/
theorem uoeRecvPacket_cons (src : SockAddr) (hdr : UoeHeader) (payload : List UInt8)
    (rest : List Datagram) :
    uoeRecvPacket (⟨src, hdr.bytes ++ payload⟩ :: rest) =
      if toInt32 (swap32 hdr.length) > uoeMaxPayload then some ((-emsgsize, none), rest)
      else if uoeAllocated (toInt32 (swap32 hdr.length)) = 0 then none
      else if 2 ^ 63 ≤ uoeAllocated (toInt32 (swap32 hdr.length)) then some ((-enomem, none), rest)
      else if toInt32 (swap32 hdr.length) > 0 then
        (kernelRecvmsg rest (uoeHeaderSize + (toInt32 (swap32 hdr.length)).toNat)
          (toInt32 (swap32 hdr.length)).toNat).map fun e =>
            ((uoeHeaderSize + toInt32 (swap32 hdr.length),
              some ⟨hdr, e.1.bytes.drop uoeHeaderSize ++
                (List.replicate (toInt32 (swap32 hdr.length)).toNat 0).drop
                  (e.1.bytes.drop uoeHeaderSize).length,
                uoeAllocated (toInt32 (swap32 hdr.length)), e.1.src⟩), e.2)
      else some ((uoeHeaderSize + toInt32 (swap32 hdr.length),
        some ⟨hdr, List.replicate (toInt32 (swap32 hdr.length)).toNat 0,
          uoeAllocated (toInt32 (swap32 hdr.length)), src⟩), rest) := by
  simp only [uoeRecvPacket, recv_header, Option.bind_eq_bind, Option.bind_some,
    UoeHeader.bytes_length, lt_irrefl, if_false, UoeHeader.ofBytes_bytes_self]
  split_ifs
  · rfl
  · rfl
  · rfl
  · rw [Option.map_eq_bind]
    rfl
  · rfl

end LinuxFunctionTest.DummyUsb
