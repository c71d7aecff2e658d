import LinuxFunctionTest.VirtualPcie.Packet
import LinuxFunctionTest.Library.Machine

/-!
# Packets on the byte stream

The transmit thread of one device writes to a stream and the receive thread of the other reads it.
The transmit thread hands only the payload to `kernel_sendmsg`, with the raw header length as the
number of vectors and zero as the size, and the receive thread builds a header that is zero but for
the number of bytes received. What `kernel_sendmsg` makes of such a call is a parameter. Whatever it
writes, no packet arrives as it was sent.
-/

namespace LinuxFunctionTest.VirtualPcie

open Bytes Errno

/-- A packet as its sender means it: the fields in host order and a payload that fits. Magic and
version are the same in every packet. -/
structure VpciMessage where
  type : UInt8
  flags : UInt8
  sessionId : UInt32
  seqNum : UInt32
  address : UInt64
  payload : List UInt8
  payload_le : payload.length ≤ vpciMaxPayload

/-- The packet that stores a message. -/
def VpciMessage.packet (m : VpciMessage) : VpciPacket where
  hdr :=
    { magic := swap32 vpciMagic
      version := swap16 vpciVersion
      type := m.type
      flags := m.flags
      sessionId := swap32 m.sessionId
      seqNum := swap32 m.seqNum
      length := swap32 (UInt32.ofNat m.payload.length)
      address := swap64 m.address }
  data := m.payload

/-- What a receiver makes of a packet. -/
structure VpciDecoded where
  magic : UInt32
  type : UInt8
  seqNum : UInt32
  sessionId : UInt32
  length : UInt32
  address : UInt64
  payload : List UInt8
  deriving DecidableEq

/-- The fields of a packet as `vpci_packet_process` and the handlers read them. -/
def VpciPacket.decode (pkt : VpciPacket) : VpciDecoded where
  magic := swap32 pkt.hdr.magic
  type := pkt.hdr.type
  seqNum := swap32 pkt.hdr.seqNum
  sessionId := swap32 pkt.hdr.sessionId
  length := swap32 pkt.hdr.length
  address := swap64 pkt.hdr.address
  payload := pkt.data.take (swap32 pkt.hdr.length).toNat

/-- What a receiver should make of a message. -/
def VpciMessage.decoded (m : VpciMessage) : VpciDecoded where
  magic := vpciMagic
  type := m.type
  seqNum := m.seqNum
  sessionId := m.sessionId
  length := UInt32.ofNat m.payload.length
  address := m.address
  payload := m.payload

/-- The handlers would decode a packet that arrived unaltered to the message it stores. -/
theorem VpciMessage.decode_packet (m : VpciMessage) : m.packet.decode = m.decoded := by
  have hlength : (UInt32.ofNat m.payload.length).toNat = m.payload.length := by
    have hle := m.payload_le
    rw [UInt32.toNat_ofNat']
    exact Nat.mod_eq_of_lt (by unfold vpciMaxPayload at hle; omega)
  simp [VpciPacket.decode, VpciMessage.packet, VpciMessage.decoded, hlength]

/-- One pass of the receive loop: an allocation fails, or `kernel_recvmsg` returns `-EAGAIN`,
another error, zero, or some bytes. -/
inductive RecvResult where
  | noMemory
  | again
  | error (code : ℤ)
  | closed
  | bytes (chunk : List UInt8)

/-- The packet built for received bytes: zeroed but for `hdr.length`, which is stored raw. -/
def receivedPacket (chunk : List UInt8) : VpciPacket where
  hdr := ⟨0, 0, 0, 0, 0, 0, UInt32.ofNat chunk.length, 0⟩
  data := chunk

/-- The packets that `vpci_rx_thread` passes to `vpci_packet_process`. -/
def vpciRxThread : List RecvResult → List VpciPacket
  | [] => []
  | .noMemory :: rest => vpciRxThread rest
  | .again :: rest => vpciRxThread rest
  | .error code :: rest =>
    if code = -econnreset ∨ code = -enotconn then [] else vpciRxThread rest
  | .closed :: _ => []
  | .bytes chunk :: rest => receivedPacket chunk :: vpciRxThread rest

/-- The results cut a stream into pieces that fit the buffer, with pauses in between. -/
inductive Segments : List RecvResult → List UInt8 → Prop where
  | done : Segments [] []
  | noMemory {rest stream} : Segments rest stream → Segments (.noMemory :: rest) stream
  | again {rest stream} : Segments rest stream → Segments (.again :: rest) stream
  | bytes {chunk rest stream} : chunk ≠ [] → chunk.length ≤ vpciMaxPayload →
      Segments rest stream → Segments (.bytes chunk :: rest) (chunk ++ stream)

/-- The bytes a call `kernel_sendmsg(sock, &msg, vec, num, size)` writes to the stream. -/
abbrev KernelSendmsg := List UInt8 → UInt32 → ℕ → List UInt8

/-- A sender and everything it has written. -/
structure VpciSender where
  dev : VpciDevice
  stream : List UInt8

/-- A step of the sender: `vpci_packet_send`, or an iteration of `vpci_tx_thread`. -/
inductive SenderStep where
  | send (m : VpciMessage)
  | transmit

/-- The bytes the next iteration of `vpci_tx_thread` writes. -/
def nextWrite (sendmsg : KernelSendmsg) (dev : VpciDevice) : List UInt8 :=
  match dev.txList with
  | [] => []
  | pkt :: _ => sendmsg pkt.data pkt.hdr.length 0

/-- The runs of the sender. -/
def senderMachine (sendmsg : KernelSendmsg) : Machine VpciSender SenderStep where
  step s label := match label with
    | .send m => some { s with dev := (vpciPacketSend s.dev m.packet).1 }
    | .transmit =>
      (vpciTxThread s.dev (nextWrite sendmsg s.dev).length).map fun sent =>
        { dev := sent.2.2
          stream := s.stream ++ if sent.2.1 then nextWrite sendmsg s.dev else [] }

/-- A connected sender with nothing queued and an empty stream. -/
def senderStart (dev : VpciDevice) : VpciSender where
  dev := { dev with connected := true, sock := true, txList := [] }
  stream := []

/-- The messages sent in a run. -/
def sentMessages (labels : List SenderStep) : List VpciMessage :=
  labels.filterMap fun label => match label with
    | .send m => some m
    | .transmit => none

/-- However the stream is cut, the receive thread hands the messages on, once each and in order. -/
def Delivers (stream : List UInt8) (messages : List VpciMessage) : Prop :=
  ∀ results, Segments results stream →
    (vpciRxThread results).map VpciPacket.decode = messages.map VpciMessage.decoded

/-- Every stream can be cut into single bytes. -/
theorem segments_bytes (stream : List UInt8) :
    Segments (stream.map fun b => .bytes [b]) stream := by
  induction stream with
  | nil => exact .done
  | cons b rest ih => exact .bytes (List.cons_ne_nil _ _) (by simp [vpciMaxPayload]) ih

/-- An empty stream is cut into pauses only. -/
theorem rxThread_of_segments_nil {results : List RecvResult} {stream : List UInt8}
    (h : Segments results stream) (hstream : stream = []) : vpciRxThread results = [] := by
  induction h with
  | done => rfl
  | noMemory _ ih => exact ih hstream
  | again _ ih => exact ih hstream
  | bytes hchunk _ _ _ => exact absurd (List.append_eq_nil_iff.mp hstream).1 hchunk

/-- A received packet never has the magic number of a message. -/
theorem receivedPacket_decode_ne (chunk : List UInt8) (m : VpciMessage) :
    (receivedPacket chunk).decode ≠ m.decoded := by
  intro h
  have hmagic : swap32 0 = vpciMagic := congrArg VpciDecoded.magic h
  exact absurd hmagic (by decide)

/-- No nonempty sequence of messages is delivered, whatever the stream holds. -/
theorem not_delivers_cons (stream : List UInt8) (m : VpciMessage) (rest : List VpciMessage) :
    ¬ Delivers stream (m :: rest) := by
  intro h
  have hbytes := h _ (segments_bytes stream)
  cases stream with
  | nil => exact absurd hbytes (by simp [vpciRxThread])
  | cons b tail =>
    simp only [List.map_cons, vpciRxThread, List.cons.injEq] at hbytes
    exact receivedPacket_decode_ne [b] m hbytes.1

/-- A run that sends nothing writes nothing. -/
theorem sender_silent {sendmsg : KernelSendmsg} {s t : VpciSender} {labels : List SenderStep}
    (hqueue : s.dev.txList = []) (hstream : s.stream = [])
    (h : (senderMachine sendmsg).run s labels = some t) (hlabels : sentMessages labels = []) :
    t.stream = [] := by
  cases labels with
  | nil =>
    obtain rfl := Option.some.inj h
    exact hstream
  | cons label rest =>
    cases label with
    | send m => exact absurd hlabels (by simp [sentMessages])
    | transmit =>
      obtain ⟨u, hu, _⟩ := Option.bind_eq_some_iff.mp h
      simp [senderMachine, vpciTxThread, hqueue] at hu

/-- Sending each message and transmitting it at once empties the queue again. -/
theorem sender_drains (sendmsg : KernelSendmsg) {s : VpciSender} (hconnected : s.dev.connected = true)
    (hsock : s.dev.sock = true) (hqueue : s.dev.txList = []) (messages : List VpciMessage) :
    ∃ labels t, sentMessages labels = messages ∧
      (senderMachine sendmsg).run s labels = some t ∧ t.dev.txList = [] := by
  induction messages generalizing s with
  | nil => exact ⟨[], s, rfl, rfl, hqueue⟩
  | cons m rest ih =>
    have hsend : (vpciPacketSend s.dev m.packet).1 = { s.dev with txList := [m.packet] } := by
      simp [vpciPacketSend, hconnected, hqueue]
    have hne : ({ s.dev with txList := [m.packet] } : VpciDevice).txList ≠ [] :=
      List.cons_ne_nil _ _
    obtain ⟨sent, htransmit⟩ := vpciTxThread_isSome
      (nextWrite sendmsg { s.dev with txList := [m.packet] }).length hne
    obtain ⟨htx, _, hconnected', hsock'⟩ := vpciTxThread_spec htransmit
    have hqueue' : sent.2.2.txList = [] := (List.cons.inj htx).2.symm
    have hfirst : ∃ stream, (senderMachine sendmsg).run s [.send m, .transmit] =
        some ⟨sent.2.2, stream⟩ := by
      simp [Machine.run, senderMachine, hsend, htransmit]
    obtain ⟨stream, hfirst⟩ := hfirst
    obtain ⟨labels, t, hsent, hrun, hdone⟩ := ih (s := ⟨sent.2.2, stream⟩)
      (hconnected'.trans hconnected) (hsock'.trans hsock) hqueue'
    refine ⟨[.send m, .transmit] ++ labels, t, ?_, ?_, hdone⟩
    · rw [← hsent]
      rfl
    · rw [Machine.run_append, hfirst]
      exact hrun

/-- Whatever `kernel_sendmsg` writes, a sequence of messages is delivered by every run that sends it
and empties the queue exactly when it is empty. -/
theorem vpci_delivers_iff_silent (sendmsg : KernelSendmsg) (dev : VpciDevice)
    (messages : List VpciMessage) :
    (∀ labels t, sentMessages labels = messages →
        (senderMachine sendmsg).run (senderStart dev) labels = some t → t.dev.txList = [] →
          Delivers t.stream messages) ↔ messages = [] := by
  constructor
  · intro h
    cases messages with
    | nil => rfl
    | cons m rest =>
      obtain ⟨labels, t, hsent, hrun, hdone⟩ :=
        sender_drains sendmsg (s := senderStart dev) rfl rfl rfl (m :: rest)
      exact absurd (h labels t hsent hrun hdone) (not_delivers_cons t.stream m rest)
  · rintro rfl labels t hsent hrun _ results hresults
    have hstream := sender_silent (s := senderStart dev) rfl rfl hrun hsent
    rw [rxThread_of_segments_nil hresults hstream]
    rfl

/-- A write of four bytes to BAR memory. -/
def memWriteMessage : VpciMessage where
  type := vpciMsgMemWrite
  flags := 0
  sessionId := 1
  seqNum := 2
  address := 0x1000
  payload := [1, 2, 3, 4]
  payload_le := by decide

/-- The write is lost when `kernel_sendmsg` writes as many bytes as it is asked for, and would be
lost if it wrote the whole payload. -/
theorem vpci_memWrite_lost :
    (∃ t, (senderMachine fun vec _ size => vec.take size).run (senderStart vpciConnected)
        [.send memWriteMessage, .transmit] = some t ∧
      t.dev.txList = [] ∧ ¬ Delivers t.stream [memWriteMessage]) ∧
      ∃ t, (senderMachine fun vec _ _ => vec).run (senderStart vpciConnected)
        [.send memWriteMessage, .transmit] = some t ∧
      t.dev.txList = [] ∧ ¬ Delivers t.stream [memWriteMessage] :=
  ⟨⟨_, rfl, rfl, not_delivers_cons _ _ _⟩, ⟨_, rfl, rfl, not_delivers_cons _ _ _⟩⟩

end LinuxFunctionTest.VirtualPcie
