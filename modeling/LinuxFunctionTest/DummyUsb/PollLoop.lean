import LinuxFunctionTest.DummyUsb.Control
import LinuxFunctionTest.Library.Tickets

/-!
# The poll loop of the device controller

`uoe_udc_poll_loop` between the data socket and the endpoint queues: it takes a packet with
`uoe_recv_packet`, answers a poll under the lock and hands a SETUP packet to
`handle_control_request`. Datagrams arrive at any time, and gadget drivers and calls under way step
between the packets. While a handler or a setup callback runs, its steps are steps of the machine
like those of any other caller.

Observed: for each reply the source of its poll, the polls that left the socket with the controller
as the loop found it, and for each endpoint the requests accepted and taken, with tickets.
-/

namespace LinuxFunctionTest.DummyUsb

open Bytes Errno

/-- `struct uoe_connection` without its sockets. -/
structure UoeConnection where
  remoteData : SockAddr
  remoteEvent : SockAddr
  localEvent : SockAddr
  connected : Bool
  deriving DecidableEq

/-- A zeroed `struct sockaddr_in`. -/
def sockAddrZero : SockAddr := ⟨0, 0⟩

/-- `uoe_create_udp_socket` in bind mode: `ret` is what `sock_create` or else `bind` returned. -/
def uoeCreateUdpSocket (ip : UInt32) (port : UInt16) (ret : ℤ) : Except ℤ SockAddr :=
  if ret < 0 then .error ret else .ok ⟨ip, port⟩

/-- `uoe_create_server`: the connection is zeroed, and of the addresses only `local_event` is
stored. -/
def uoeCreateServer (listenAddr : UInt32) (listenPort eventPort : UInt16) (retData retEvent : ℤ) :
    Except ℤ UoeConnection := do
  let _ ← uoeCreateUdpSocket listenAddr listenPort retData
  let localEvent ← uoeCreateUdpSocket listenAddr eventPort retEvent
  return ⟨sockAddrZero, sockAddrZero, localEvent, true⟩

/-- A reply as it was sent, with the address it was sent to and the source of the poll it answers. -/
structure Sent where
  dest : SockAddr
  reply : Reply
  src : SockAddr
  deriving DecidableEq

/-- A poll that left the socket: its fields, its source, and the controller at that time. -/
structure Polled where
  epAddr : UInt8
  seq : UInt16
  src : SockAddr
  dum : UoeUdc

/-- A request accepted by `dummy_queue` and what was linked for it: itself or the FIFO stand-in. -/
structure Accepted where
  request : ℕ
  linked : ReqRef
  deriving DecidableEq

/-- The header a datagram starts with. -/
def Datagram.hdr (d : Datagram) : UoeHeader := UoeHeader.ofBytes (d.bytes.take uoeHeaderSize)

/-- A datagram with a whole header. -/
def Datagram.Headed (d : Datagram) : Prop := uoeHeaderSize ≤ d.bytes.length

/-- A poll. -/
def UoeHeader.IsPoll (hdr : UoeHeader) : Prop := hdr.type = uoePollIn ∨ hdr.type = uoePollOut

/-- A datagram that holds a poll. -/
def Datagram.IsPoll (d : Datagram) : Prop := d.Headed ∧ d.hdr.IsPoll

/-- The length that `uoe_recv_packet` reads from a header. -/
def UoeHeader.dataLen (hdr : UoeHeader) : ℤ := toInt32 (swap32 hdr.length)

/-- A packet of this length is not refused, and what `uoe_recv_packet` returns for it is no error: a
length of 2^31 or more has become a negative `int`, and with all but the last ones nothing is allocated. -/
def UoeHeader.Returned (hdr : UoeHeader) : Prop :=
  -uoeHeaderSize < hdr.dataLen ∧ hdr.dataLen ≤ uoeMaxPayload

/-- With this length the size to allocate is 0, and `uoe_recv_packet` writes the header where there is no
memory. -/
def UoeHeader.Faults (hdr : UoeHeader) : Prop := hdr.dataLen = -uoeHeaderSize

instance (d : Datagram) : Decidable d.Headed := by unfold Datagram.Headed; infer_instance

instance (hdr : UoeHeader) : Decidable hdr.IsPoll := by unfold UoeHeader.IsPoll; infer_instance

instance (hdr : UoeHeader) : Decidable hdr.Returned := by unfold UoeHeader.Returned; infer_instance

instance (hdr : UoeHeader) : Decidable hdr.Faults := by unfold UoeHeader.Faults; infer_instance

instance (d : Datagram) : Decidable d.IsPoll := by unfold Datagram.IsPoll; infer_instance

/-- The controller behind its sockets, and whether a fault has ended the thread of the loop. -/
structure PollLoop where
  gadget : Gadget
  conn : UoeConnection
  faulted : Bool
  inbox : List Datagram
  outbox : List Sent
  polls : List Polled
  served : ℕ → Served Accepted
  takes : List (ℕ × ReqRef)

namespace PollLoop

/-- The poll in a datagram that leaves the socket. -/
def polled (s : PollLoop) (d : Datagram) : Polled :=
  ⟨d.hdr.epAddr, swap16 d.hdr.seq, d.src, s.gadget.udc⟩

/-- The socket has only `rest` left. -/
def consume (s : PollLoop) (rest : List Datagram) : PollLoop :=
  let gone := (s.inbox.take (s.inbox.length - rest.length)).filter (·.IsPoll)
  { s with inbox := rest, polls := (gone.map s.polled).reverse ++ s.polls }

/-- The requests on every queue that the change to `g` leaves there. -/
def withdraw (s : PollLoop) (g : Gadget) : PollLoop :=
  { s with
    gadget := g
    served := fun i => (s.served i).keep Accepted.linked (g.udc.ep i).queue }

/-- `dummy_queue` has accepted request `n` on endpoint `i`. -/
def accept (s : PollLoop) (g : Gadget) (i n : ℕ) : PollLoop :=
  { s with
    gadget := g
    served := Function.update s.served i ((s.served i).push ⟨n, linkedAs s.gadget.udc i n⟩) }

end PollLoop

/-- The request that a poll takes off a queue. -/
def takenBy (dum : UoeUdc) (epAddr : UInt8) : Option (ℕ × ReqRef) :=
  (polledEp dum epAddr).bind fun i => (dum.ep i).queue.head?.map fun r => (i, r)

/-- The loop on a poll: the reply goes to `conn.remote_data`. -/
def PollLoop.poll (s : PollLoop) (epAddr : UInt8) (seq : UInt16) (src : SockAddr) : PollLoop :=
  let dum := uoeUdcPoll s.gadget.udc epAddr seq
  let sent := dum.sent.take (dum.sent.length - s.gadget.udc.sent.length)
  { s with
    gadget := { s.gadget with udc := dum }
    outbox := sent.map (fun reply => ⟨s.conn.remoteData, reply, src⟩) ++ s.outbox
    served :=
      match takenBy s.gadget.udc epAddr with
      | some (i, _) => Function.update s.served i (s.served i).serve
      | none => s.served
    takes := (takenBy s.gadget.udc epAddr).toList ++ s.takes }

/-- The loop on a SETUP packet: eight bytes are copied from its data, and what is missing there from
the memory behind it. -/
def PollLoop.setup (s : PollLoop) (data beyond : List UInt8) : PollLoop :=
  s.withdraw (handleControlRequest s.gadget (.ofBytes ((data ++ beyond).take 8))).1

/-- The loop on a packet that came from `src`. -/
def PollLoop.handle (s : PollLoop) (pkt : UoePacket) (src : SockAddr) (beyond : List UInt8) :
    PollLoop :=
  if pkt.hdr.IsPoll then s.poll pkt.hdr.epAddr (swap16 pkt.hdr.seq) src
  else if pkt.hdr.type = uoeSetup then s.setup pkt.data beyond
  else s

/-- One pass of `uoe_udc_poll_loop`, unless it waits in `uoe_recv_packet`. -/
def uoeUdcPollLoop (s : PollLoop) (beyond : List UInt8) : Option PollLoop :=
  if s.faulted then none
  else match s.inbox with
  | [] => none
  | d :: queue =>
    if d.Headed ∧ d.hdr.Faults then some { s.consume queue with faulted := true }
    else (uoeRecvPacket (d :: queue)).map fun ((ret, pkt), rest) =>
      if ret < 0 then s.consume rest
      else match pkt with
        | some pkt => (s.consume rest).handle pkt d.src beyond
        | none => s.consume rest

/-- A datagram arrives, the loop takes a packet, or anything else uses the controller. -/
inductive PollLoopStep where
  | arrive (d : Datagram)
  | recv (beyond : List UInt8)
  | other (step : GadgetStep)

/-- What anything but the loop does: an accepted `dummy_queue` pushes, everything else withdraws at
most. -/
def PollLoop.other (s : PollLoop) (step : GadgetStep) : Option PollLoop :=
  match step with
  | .udc (.poll _ _) => none
  | .udc (.queue i n) =>
    (gadgetStep s.gadget step).map fun g =>
      if (dummyQueue s.gadget.udc i n).2 = 0 then s.accept g i n else s.withdraw g
  | _ => (gadgetStep s.gadget step).map s.withdraw

/-- A datagram joins the socket. -/
def PollLoop.arrive (s : PollLoop) (d : Datagram) : PollLoop := { s with inbox := s.inbox ++ [d] }

/-- The runs of the controller behind its sockets. -/
def pollLoopMachine : Machine PollLoop PollLoopStep where
  step s label := match label with
    | .arrive d => some (s.arrive d)
    | .recv beyond => uoeUdcPollLoop s beyond
    | .other step => s.other step

/-- A controller with a connection, before the first datagram. -/
def pollLoopStart (conn : UoeConnection) (req : ReqRef → UsbRequest) (userBuf : ℕ → ℕ → UInt8) :
    PollLoop where
  gadget := gadgetStart req userBuf
  conn := conn
  faulted := false
  inbox := []
  outbox := []
  polls := []
  served := fun _ => .empty
  takes := []

/-- The size to allocate, and the lengths that it is 0 or too large for. -/
theorem uoeAllocated_cases {hdr : UoeHeader} (hmax : hdr.dataLen ≤ uoeMaxPayload) :
    (uoeAllocated hdr.dataLen = 0 ↔ hdr.Faults) ∧
      (2 ^ 63 ≤ uoeAllocated hdr.dataLen ↔ hdr.dataLen < -uoeHeaderSize) := by
  have hsize : uoeHeaderSize = 8 := rfl
  have hpayload : uoeMaxPayload = 65536 := rfl
  have hlt : (swap32 hdr.length).toNat < 2 ^ 32 := (swap32 hdr.length).toNat_lt
  have hlow : -2 ^ 31 ≤ hdr.dataLen := by
    unfold UoeHeader.dataLen toInt32
    split_ifs <;> omega
  unfold uoeAllocated UoeHeader.Faults
  omega

/-- What `uoe_recv_packet` returns: an error for a datagram it drops, a packet whose data it takes
from the next datagram, or a packet without data. -/
theorem uoeRecvPacket_cases {d : Datagram} {queue rest : List Datagram} {ret : ℤ}
    {pkt : Option UoePacket} (h : uoeRecvPacket (d :: queue) = some ((ret, pkt), rest)) :
    (pkt = none ∧ rest = queue ∧ (d.Headed → ¬ d.hdr.Returned)) ∨
    (∃ p e, pkt = some p ∧ p.hdr = d.hdr ∧ queue = e :: rest ∧ d.Headed ∧ 0 < d.hdr.dataLen ∧
      d.hdr.dataLen ≤ uoeMaxPayload ∧ ret = uoeHeaderSize + d.hdr.dataLen) ∨
    (∃ p, pkt = some p ∧ p.hdr = d.hdr ∧ rest = queue ∧ d.Headed ∧ d.hdr.dataLen ≤ 0 ∧
      d.hdr.Returned ∧ ret = uoeHeaderSize + d.hdr.dataLen) := by
  simp only [uoeRecvPacket, kernelRecvmsg, min_self, Option.bind_eq_bind, Option.bind_some,
    List.length_take] at h
  change (if min uoeHeaderSize d.bytes.length < uoeHeaderSize then _
    else if d.hdr.dataLen > uoeMaxPayload then _ else if uoeAllocated d.hdr.dataLen = 0 then _
    else if 2 ^ 63 ≤ uoeAllocated d.hdr.dataLen then _ else if d.hdr.dataLen > 0 then _ else _) = _ at h
  have hheaded : d.Headed ↔ ¬ min uoeHeaderSize d.bytes.length < uoeHeaderSize := by
    unfold Datagram.Headed
    omega
  split_ifs at h with hshort hlong hzero hhuge hdata
  · obtain ⟨⟨-, rfl⟩, rfl⟩ := by simpa using h
    exact .inl ⟨rfl, rfl, fun hd => absurd hshort (hheaded.mp hd)⟩
  · obtain ⟨⟨-, rfl⟩, rfl⟩ := by simpa using h
    exact .inl ⟨rfl, rfl, fun _ hreturned => absurd hreturned.2 (not_le.mpr hlong)⟩
  · obtain ⟨⟨-, rfl⟩, rfl⟩ := by simpa using h
    have hneg := (uoeAllocated_cases (not_lt.mp hlong)).2.mp hhuge
    exact .inl ⟨rfl, rfl, fun _ hreturned => absurd hreturned.1 hneg.not_gt⟩
  · cases queue with
    | nil => simp at h
    | cons e queue =>
      obtain ⟨⟨rfl, rfl⟩, rfl⟩ := by simpa using h
      exact .inr (.inl ⟨_, e, rfl, rfl, rfl, hheaded.mpr hshort, hdata, not_lt.mp hlong, rfl⟩)
  · obtain ⟨⟨rfl, rfl⟩, rfl⟩ := by simpa using h
    obtain ⟨hfaults, hneg⟩ := uoeAllocated_cases (not_lt.mp hlong)
    have hlow : -uoeHeaderSize < d.hdr.dataLen :=
      lt_of_le_of_ne (not_lt.mp (hneg.not.mp hhuge)) fun heq => hzero (hfaults.mpr heq.symm)
    exact .inr (.inr ⟨_, rfl, rfl, rfl, hheaded.mpr hshort, not_lt.mp hdata, ⟨hlow, not_lt.mp hlong⟩, rfl⟩)

end LinuxFunctionTest.DummyUsb
