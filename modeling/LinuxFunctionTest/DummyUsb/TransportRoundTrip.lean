import LinuxFunctionTest.DummyUsb.Transport

/-!
# Round trips over the transport

The senders put header and payload in one datagram, and `uoe_recv_packet` reads them in two calls.
The first call discards the payload with the rest of its datagram, so for a packet with payload the
second call takes the next datagram, or waits for it. A sequence of packets makes the round trip
exactly when none has a payload.
-/

namespace LinuxFunctionTest.DummyUsb

open Bytes

/-- A call of one of the senders. -/
inductive UoeSend where
  | poll (type epAddr : UInt8) (seq : UInt16)
  | data (epAddr : UInt8) (seq : UInt16) (buf : Option (ℕ → UInt8)) (len : UInt32)
  | nak (epAddr : UInt8) (seq : UInt16)
  | stall (epAddr : UInt8) (seq : UInt16)

namespace UoeSend

/-- The datagram the call sends. -/
def bytes : UoeSend → List UInt8
  | poll type epAddr seq => uoeSendPoll type epAddr seq
  | data epAddr seq buf len => uoeSendData epAddr seq buf len
  | nak epAddr seq => uoeSendNak epAddr seq
  | stall epAddr seq => uoeSendStall epAddr seq

/-- The type of the packet. -/
def type : UoeSend → UInt8
  | poll type _ _ => type
  | data _ _ _ _ => uoeData
  | nak _ _ => uoeNak
  | stall _ _ => uoeStall

/-- The endpoint address of the packet. -/
def epAddr : UoeSend → UInt8
  | poll _ epAddr _ | data epAddr _ _ _ | nak epAddr _ | stall epAddr _ => epAddr

/-- The sequence number of the packet. -/
def seq : UoeSend → UInt16
  | poll _ _ seq | data _ seq _ _ | nak _ seq | stall _ seq => seq

/-- The payload length of the packet. -/
def len : UoeSend → UInt32
  | data _ _ _ len => len
  | poll _ _ _ | nak _ _ | stall _ _ => 0

/-- The payload of the packet. -/
def payload : UoeSend → List UInt8
  | data _ _ buf len => uoePayload buf len
  | poll _ _ _ | nak _ _ | stall _ _ => []

/-- Every datagram is a header followed by a payload. -/
theorem bytes_eq (s : UoeSend) : s.bytes = (uoeHdr s.type s.epAddr s.seq s.len).bytes ++ s.payload := by
  cases s with
  | data epAddr seq buf len => rfl
  | poll type epAddr seq => exact (List.append_nil _).symm
  | nak epAddr seq => exact (List.append_nil _).symm
  | stall epAddr seq => exact (List.append_nil _).symm

/-- A packet of length zero has no payload. -/
theorem payload_eq_nil {s : UoeSend} (h : s.len = 0) : s.payload = [] := by
  cases s with
  | data epAddr seq buf len =>
    obtain rfl : len = 0 := h
    cases buf <;> rfl
  | poll type epAddr seq => rfl
  | nak epAddr seq => rfl
  | stall epAddr seq => rfl

end UoeSend

/-- One returned call of `uoe_recv_packet`: its result, the packet, and the datagrams it took. -/
structure RecvCall where
  ret : ℤ
  pkt : Option UoePacket
  consumed : ℕ

/-- A number of calls of `uoe_recv_packet`, one after the other, when all of them return. -/
def uoeRecvCalls : ℕ → List Datagram → Option (List RecvCall)
  | 0, _ => some []
  | n + 1, queue => do
    let ((ret, pkt), rest) ← uoeRecvPacket queue
    let calls ← uoeRecvCalls n rest
    return ⟨ret, pkt, queue.length - rest.length⟩ :: calls

/-- The call took one datagram and returned the packet sent. -/
def Returns (s : UoeSend) (call : RecvCall) : Prop :=
  call.consumed = 1 ∧ call.ret = uoeHeaderSize + s.len.toNat ∧ ∃ pkt, call.pkt = some pkt ∧ pkt.hdr.type = s.type ∧
    pkt.hdr.epAddr = s.epAddr ∧ swap16 pkt.hdr.seq = s.seq ∧ swap32 pkt.hdr.length = s.len ∧
    pkt.data = s.payload

/-- As many calls as packets were sent return these packets in order, each from one datagram. -/
def RoundTrip (src : SockAddr) (sends : List UoeSend) : Prop :=
  ∃ calls, uoeRecvCalls sends.length (sends.map fun s => ⟨src, s.bytes⟩) = some calls ∧
    List.Forall₂ Returns sends calls

/-- A packet of length zero is returned from its own datagram. -/
theorem uoeRecvPacket_empty (src : SockAddr) {s : UoeSend} (hlen : s.len = 0)
    (rest : List Datagram) :
    uoeRecvPacket (⟨src, s.bytes⟩ :: rest) =
      some (((uoeHeaderSize : ℤ), some ⟨uoeHdr s.type s.epAddr s.seq s.len, [], 8, src⟩), rest) := by
  have hzero : toInt32 (swap32 (uoeHdr s.type s.epAddr s.seq s.len).length) = 0 := by
    rw [uoeHdr, hlen, swap32_swap32]
    rfl
  rw [s.bytes_eq, uoeRecvPacket_cons, hzero]
  rfl

/-- The length of a payload. -/
theorem UoeSend.payload_length (s : UoeSend) : s.payload.length = s.len.toNat := by
  cases s with
  | data epAddr seq buf len => cases buf <;> simp [UoeSend.payload, UoeSend.len, uoePayload]
  | poll type epAddr seq => rfl
  | nak epAddr seq => rfl
  | stall epAddr seq => rfl

/-- A call that returns for a packet with payload has failed, or taken a second datagram, or
returned no payload. -/
theorem uoeRecvPacket_payload {src : SockAddr} {s : UoeSend} (hlen : s.len ≠ 0)
    {rest left : List Datagram} {ret : ℤ} {pkt : Option UoePacket}
    (h : uoeRecvPacket (⟨src, s.bytes⟩ :: rest) = some ((ret, pkt), left)) :
    ¬ Returns s ⟨ret, pkt, rest.length + 1 - left.length⟩ := by
  rintro ⟨hconsumed, _, p, hp, _, _, _, _, hdata⟩
  simp only at hconsumed hp
  have hpos : 0 < s.len.toNat := by
    rcases Nat.eq_zero_or_pos s.len.toNat with hzero | hpos
    · exact absurd (UInt32.toNat_inj.mp hzero) hlen
    · exact hpos
  rw [s.bytes_eq, uoeRecvPacket_cons] at h
  split_ifs at h
  · -- The length is over the limit: no packet is returned.
    simp only [Option.some.injEq, Prod.mk.injEq] at h
    exact absurd (h.1.2.trans hp) (by simp)
  · -- The length is negative as an `int`, and the sum huge as a size.
    simp only [Option.some.injEq, Prod.mk.injEq] at h
    exact absurd (h.1.2.trans hp) (by simp)
  · -- The second receive call takes another datagram.
    obtain ⟨e, he, heq⟩ := Option.map_eq_some_iff.mp h
    cases rest with
    | nil => exact absurd he (by simp [kernelRecvmsg])
    | cons d tail =>
      have hleft : e.2 = tail := by
        simp only [kernelRecvmsg, Option.some.injEq] at he
        rw [← he]
      simp only [Prod.mk.injEq] at heq
      rw [← heq.2, hleft] at hconsumed
      simp only [List.length_cons] at hconsumed
      omega
  · -- The length is negative as an `int`, and the sum is not: the packet is returned without payload.
    rename_i hneg
    simp only [Option.some.injEq, Prod.mk.injEq] at h
    have hpkt := h.1.2.trans hp
    simp only [Option.some.injEq] at hpkt
    have hnil : p.data = [] := by
      rw [← hpkt]
      simp only [List.replicate_eq_nil_iff]
      omega
    have hlength := s.payload_length
    rw [← hdata, hnil] at hlength
    simp only [List.length_nil] at hlength
    omega

/-- A sequence of packets makes the round trip exactly when every payload is empty. -/
theorem uoe_roundTrip_iff_empty (src : SockAddr) (sends : List UoeSend) :
    RoundTrip src sends ↔ ∀ s ∈ sends, s.len = 0 := by
  induction sends with
  | nil => exact ⟨fun _ s hs => absurd hs List.not_mem_nil, fun _ => ⟨[], rfl, .nil⟩⟩
  | cons s rest ih =>
    have hcalls : uoeRecvCalls (s :: rest).length ((s :: rest).map fun s => ⟨src, s.bytes⟩) =
        (uoeRecvPacket (⟨src, s.bytes⟩ :: rest.map fun s => ⟨src, s.bytes⟩)).bind fun out =>
          (uoeRecvCalls rest.length out.2).map fun calls =>
            ⟨out.1.1, out.1.2, rest.length + 1 - out.2.length⟩ :: calls := by
      simp [uoeRecvCalls, Option.map_eq_bind]
    constructor
    · rintro ⟨calls, hrun, hall⟩
      rw [hcalls] at hrun
      obtain ⟨⟨⟨ret, pkt⟩, left⟩, hrecv, hrun⟩ := Option.bind_eq_some_iff.mp hrun
      obtain ⟨tail, htail, rfl⟩ := Option.map_eq_some_iff.mp hrun
      obtain ⟨hfirst, hrest⟩ := List.forall₂_cons.mp hall
      have hlen : s.len = 0 := by
        by_contra hne
        have hnot := uoeRecvPacket_payload hne hrecv
        rw [List.length_map] at hnot
        exact hnot hfirst
      rw [uoeRecvPacket_empty src hlen] at hrecv
      simp only [Option.some.injEq, Prod.mk.injEq] at hrecv
      obtain ⟨_, hleft⟩ := hrecv
      have htrip : RoundTrip src rest := ⟨tail, by rw [← htail, ← hleft], hrest⟩
      exact List.forall_mem_cons.mpr ⟨hlen, ih.mp htrip⟩
    · intro hall
      obtain ⟨hlen, hrest⟩ := List.forall_mem_cons.mp hall
      obtain ⟨tail, htail, htrip⟩ := ih.mpr hrest
      refine ⟨⟨uoeHeaderSize, some ⟨uoeHdr s.type s.epAddr s.seq s.len, [], 8, src⟩, 1⟩ :: tail, ?_,
        .cons ?_ htrip⟩
      · rw [hcalls, uoeRecvPacket_empty src hlen]
        simp only [Option.bind_some, htail, Option.map_some, List.length_map,
          Nat.add_sub_cancel_left]
      · refine ⟨rfl, ?_, _, rfl, rfl, rfl, swap16_swap16 _, swap32_swap32 _, ?_⟩
        · rw [hlen]
          rfl
        · rw [UoeSend.payload_eq_nil hlen]

/-- Four bytes of data and a poll: the first call takes both datagrams, and the second one waits. -/
theorem uoe_data_lost :
    ¬ RoundTrip ⟨0, 0⟩ [.data 0x81 1 (some fun _ => 0xAA) 4, .poll uoePollIn 0x82 2] := by
  rintro ⟨calls, hcalls, _⟩
  have hwaits : uoeRecvCalls 2 ([UoeSend.data 0x81 1 (some fun _ => 0xAA) 4,
      .poll uoePollIn 0x82 2].map fun s => ⟨⟨0, 0⟩, s.bytes⟩) = none := rfl
  exact absurd (hcalls.symm.trans hwaits) (by simp)

end LinuxFunctionTest.DummyUsb
