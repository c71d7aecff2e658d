import LinuxFunctionTest.VirtualPcie.Packet
import LinuxFunctionTest.Library.Machine
import Mathlib.Data.List.Perm.Basic
import Mathlib.Algebra.BigOperators.Group.List.Basic

/-!
# The request and response protocol

Two devices exchange whole packets over a link that delivers them in any order. Every packet that
asks for something is answered by at most one acknowledgement, and acknowledgements are answered by
nothing, so a run delivers at most twice as many packets as were under way at its start. When all
allocations succeed and both devices stay connected, the answer is sent exactly once, carries the
sequence number of its request and reaches the other device.
-/

namespace LinuxFunctionTest.VirtualPcie

open Bytes

/-- A well-formed ACK, NACK or KEEPALIVE. -/
def Quiet (pkt : VpciPacket) : Prop :=
  swap32 pkt.hdr.magic = vpciMagic ∧
    (pkt.hdr.type = vpciMsgAck ∨ pkt.hdr.type = vpciMsgNack ∨ pkt.hdr.type = vpciMsgKeepalive)

instance : DecidablePred Quiet := fun pkt => by unfold Quiet; infer_instance

/-- A well-formed ACK or NACK. -/
def IsAnswer (pkt : VpciPacket) : Prop :=
  swap32 pkt.hdr.magic = vpciMagic ∧
    (pkt.hdr.type = vpciMsgAck ∨ pkt.hdr.type = vpciMsgNack)

/-- Answers ask for nothing. -/
theorem IsAnswer.quiet {pkt : VpciPacket} (h : IsAnswer pkt) : Quiet pkt :=
  ⟨h.1, h.2.elim Or.inl fun hnack => Or.inr (Or.inl hnack)⟩

/-- Between the devices, at most one answer with the given sequence number was queued, and exactly
one when the allocations succeed and the device is connected. -/
structure Answers (c : PktChoice) (seqNum : UInt32) (dev dev' : VpciDevice) : Prop where
  connected : dev'.connected = dev.connected
  sock : dev'.sock = dev.sock
  sends : ∃ replies, dev'.txList = dev.txList ++ replies ∧ replies.length ≤ 1 ∧
    (∀ r ∈ replies, IsAnswer r ∧ r.hdr.seqNum = seqNum) ∧
    (c.Allocates → dev.connected = true → replies.length = 1)

/-- What happens before an answer is sent does not matter when it keeps the queue and the link. -/
theorem Answers.of_frame {c : PktChoice} {seqNum : UInt32} {dev dev₁ dev' : VpciDevice}
    (h : Answers c seqNum dev₁ dev') (hconnected : dev₁.connected = dev.connected)
    (hsock : dev₁.sock = dev.sock) (htx : dev₁.txList = dev.txList) :
    Answers c seqNum dev dev' where
  connected := h.connected.trans hconnected
  sock := h.sock.trans hsock
  sends := by
    rw [← htx, ← hconnected]
    exact h.sends

/-- Both branches of a test answer. -/
theorem Answers.ite {p : Prop} [Decidable p] {c : PktChoice} {seqNum : UInt32}
    {dev dev₁ dev₂ : VpciDevice} (hthen : p → Answers c seqNum dev dev₁)
    (helse : ¬ p → Answers c seqNum dev dev₂) :
    Answers c seqNum dev (if p then dev₁ else dev₂) := by
  by_cases h : p
  · rw [if_pos h]
    exact hthen h
  · rw [if_neg h]
    exact helse h

/-- Sending one answer. -/
theorem vpciPacketSend_answers (c : PktChoice) (dev : VpciDevice) {pkt : VpciPacket}
    (hpkt : IsAnswer pkt) : Answers c pkt.hdr.seqNum dev (vpciPacketSend dev pkt).1 := by
  unfold vpciPacketSend
  by_cases hconnected : dev.connected = true
  · rw [if_pos hconnected]
    exact ⟨rfl, rfl, [pkt], rfl, le_refl _, by simp [hpkt], fun _ _ => rfl⟩
  · rw [if_neg hconnected]
    refine ⟨rfl, rfl, [], (List.append_nil _).symm, Nat.zero_le _, by simp, fun _ h => ?_⟩
    exact absurd h hconnected

/-- An ACK header is that of an answer, and it returns the sequence number as it was stored. -/
theorem answerHdr_isAnswer (dev : VpciDevice) {type : UInt8} (length : UInt32) (data : List UInt8)
    (seqNum : UInt32) (htype : type = vpciMsgAck ∨ type = vpciMsgNack) :
    IsAnswer ⟨answerHdr dev type seqNum length, data⟩ :=
  ⟨swap32_swap32 _, htype⟩

/-- `vpci_send_ack` and `vpci_send_nack` answer. -/
theorem vpciSendStatus_answers {type : UInt8} (htype : type = vpciMsgAck ∨ type = vpciMsgNack)
    (dev : VpciDevice) (c : PktChoice) (seqNum : UInt32) (status : ℤ) :
    Answers c seqNum dev (vpciSendStatus type dev c (swap32 seqNum) status) := by
  unfold vpciSendStatus
  by_cases halloc : (c.pkt && c.status) = true
  · rw [if_pos halloc]
    have hsend := vpciPacketSend_answers c dev
      (answerHdr_isAnswer dev 4 (intBytes status) (swap32 seqNum) htype)
    rwa [show (answerHdr dev type (swap32 seqNum) 4).seqNum = seqNum from swap32_swap32 _] at hsend
  · rw [if_neg halloc]
    refine ⟨rfl, rfl, [], (List.append_nil _).symm, Nat.zero_le _, by simp, fun h _ => ?_⟩
    exact absurd (by simp [h.2.2.1, h.2.2.2]) halloc

/-- `vpci_send_ack` answers. -/
theorem vpciSendAck_answers (dev : VpciDevice) (c : PktChoice) (seqNum : UInt32) (status : ℤ) :
    Answers c seqNum dev (vpciSendAck dev c (swap32 seqNum) status) :=
  vpciSendStatus_answers (Or.inl rfl) dev c seqNum status

/-- `vpci_send_nack` answers. -/
theorem vpciSendNack_answers (dev : VpciDevice) (c : PktChoice) (seqNum : UInt32) (status : ℤ) :
    Answers c seqNum dev (vpciSendNack dev c (swap32 seqNum) status) :=
  vpciSendStatus_answers (Or.inr rfl) dev c seqNum status

/-- The end of a read handler answers, also when the response cannot be allocated. -/
theorem vpciSendData_answers (dev : VpciDevice) (c : PktChoice) (seqNum len : UInt32)
    (data : List UInt8) : Answers c seqNum dev (vpciSendData dev c (swap32 seqNum) len data) := by
  unfold vpciSendData
  split
  · have hsend := vpciPacketSend_answers c dev
      (answerHdr_isAnswer dev len data (swap32 seqNum) (Or.inl rfl))
    rwa [show (answerHdr dev vpciMsgAck (swap32 seqNum) len).seqNum = seqNum from
      swap32_swap32 _] at hsend
  · exact vpciSendNack_answers dev c seqNum _

section Handlers

variable (dev : VpciDevice) (c : PktChoice) (pkt : VpciPacket)

/-- A config read is answered. -/
theorem vpciHandleConfigRead_answers :
    Answers c pkt.hdr.seqNum dev (vpciHandleConfigRead dev c pkt) := by
  simp only [vpciHandleConfigRead]
  split_ifs
  · exact vpciSendNack_answers dev c _ _
  · exact vpciSendData_answers dev c _ _ _
  · exact vpciSendNack_answers dev c _ _

/-- A config write is answered. -/
theorem vpciHandleConfigWrite_answers :
    Answers c pkt.hdr.seqNum dev (vpciHandleConfigWrite dev c pkt) := by
  simp only [vpciHandleConfigWrite]
  split_ifs
  · exact vpciSendNack_answers dev c _ _
  · exact (vpciSendAck_answers _ c _ _).of_frame rfl rfl rfl

/-- A memory read is answered. -/
theorem vpciHandleMemRead_answers :
    Answers c pkt.hdr.seqNum dev (vpciHandleMemRead dev c pkt) := by
  simp only [vpciHandleMemRead]
  split_ifs
  · split
    · exact vpciSendNack_answers dev c _ _
    · exact vpciSendData_answers dev c _ _ _
  · exact vpciSendNack_answers dev c _ _

/-- A memory write is answered. -/
theorem vpciHandleMemWrite_answers :
    Answers c pkt.hdr.seqNum dev (vpciHandleMemWrite dev c pkt) := by
  simp only [vpciHandleMemWrite, vpciMemWrite]
  cases findBar dev (swap64 pkt.hdr.address) (swap32 pkt.hdr.length) with
  | none => exact vpciSendNack_answers dev c _ _
  | some ptr => exact (vpciSendAck_answers _ c _ _).of_frame rfl rfl rfl

/-- An interrupt is answered. -/
theorem vpciHandleIrq_answers : Answers c pkt.hdr.seqNum dev (vpciHandleIrq dev c pkt) := by
  simp only [vpciHandleIrq]
  split_ifs
  · exact (vpciSendAck_answers _ c _ _).of_frame rfl rfl rfl
  · exact vpciSendAck_answers dev c _ _

/-- A handshake is answered. -/
theorem vpciHandleHandshake_answers :
    Answers c pkt.hdr.seqNum dev (vpciHandleHandshake dev c pkt) :=
  (vpciSendAck_answers _ c _ _).of_frame rfl rfl rfl

/-- Every packet that is not a well-formed ACK, NACK or KEEPALIVE is answered. -/
theorem vpciPacketProcess_answers (hpkt : ¬ Quiet pkt) :
    Answers c pkt.hdr.seqNum dev (vpciPacketProcess dev c pkt) := by
  unfold vpciPacketProcess
  refine .ite (fun _ => (vpciSendNack_answers _ c _ _).of_frame rfl rfl rfl) fun hmagic => ?_
  have hquiet := fun htype => hpkt ⟨not_not.mp hmagic, htype⟩
  refine .ite (fun _ => (vpciHandleConfigRead_answers _ c pkt).of_frame rfl rfl rfl) fun _ => ?_
  refine .ite (fun _ => (vpciHandleConfigWrite_answers _ c pkt).of_frame rfl rfl rfl) fun _ => ?_
  refine .ite (fun _ => (vpciHandleMemRead_answers _ c pkt).of_frame rfl rfl rfl) fun _ => ?_
  refine .ite (fun _ => (vpciHandleMemWrite_answers _ c pkt).of_frame rfl rfl rfl) fun _ => ?_
  refine .ite (fun _ => (vpciHandleIrq_answers _ c pkt).of_frame rfl rfl rfl) fun _ => ?_
  refine .ite (fun hack => absurd (Or.inl hack) hquiet) fun _ => ?_
  refine .ite (fun hnack => absurd (Or.inr (Or.inl hnack)) hquiet) fun _ => ?_
  refine .ite (fun _ => (vpciHandleHandshake_answers _ c pkt).of_frame rfl rfl rfl) fun _ => ?_
  refine .ite (fun hkeep => absurd (Or.inr (Or.inr hkeep)) hquiet) fun _ => ?_
  exact (vpciSendNack_answers _ c _ _).of_frame rfl rfl rfl

/-- A well-formed ACK, NACK or KEEPALIVE is answered by nothing. -/
theorem vpciPacketProcess_quiet (hpkt : Quiet pkt) :
    (vpciPacketProcess dev c pkt).txList = dev.txList ∧
      (vpciPacketProcess dev c pkt).connected = dev.connected ∧
      (vpciPacketProcess dev c pkt).sock = dev.sock := by
  obtain ⟨hmagic, htype⟩ := hpkt
  simp only [vpciPacketProcess, hmagic, ne_eq, not_true_eq_false, if_false]
  rcases htype with htype | htype | htype <;> rw [htype] <;> exact ⟨rfl, rfl, rfl⟩

end Handlers

/-- The two ends of the link. -/
inductive Side where
  | first
  | second
  deriving DecidableEq

/-- The other end. -/
def Side.peer : Side → Side
  | .first => .second
  | .second => .first

/-- A packet that was processed: where, and what was queued there because of it. -/
structure Served where
  side : Side
  packet : VpciPacket
  replies : List VpciPacket

/-- Two devices, the packets on the link with the side they are for, and the packets processed so
far, newest first. -/
structure VpciLink where
  dev : Side → VpciDevice
  flight : List (Side × VpciPacket)
  served : List Served

/-- A step of the link: the packet at some position arrives and is processed, a transmit thread
takes one iteration, or a device is connected or disconnected. -/
inductive LinkStep where
  | deliver (i : ℕ) (c : PktChoice)
  | transmit (side : Side) (ret : ℤ)
  | setLink (side : Side) (connected sock : Bool)

/-- Replace one device. -/
def VpciLink.setDev (s : VpciLink) (side : Side) (dev : VpciDevice) : VpciLink :=
  { s with dev := fun other => if other = side then dev else s.dev other }

/-- Process a packet at a side. -/
def VpciLink.process (s : VpciLink) (side : Side) (pkt : VpciPacket) (c : PktChoice) : VpciLink :=
  let dev := vpciPacketProcess (s.dev side) c pkt
  { s.setDev side dev with
    served := ⟨side, pkt, dev.txList.drop (s.dev side).txList.length⟩ :: s.served }

/-- The runs of two devices. A transmitted packet is lost when the device is not connected or when
`kernel_sendmsg` fails, and arrives unaltered otherwise. -/
def linkMachine : Machine VpciLink LinkStep where
  step s label := match label with
    | .deliver i c =>
      (s.flight[i]?).map fun arrival =>
        { s.process arrival.1 arrival.2 c with flight := s.flight.eraseIdx i }
    | .transmit side ret =>
      (vpciTxThread (s.dev side) ret).map fun sent =>
        { s.setDev side sent.2.2 with
          flight := if sent.2.1 && decide (0 ≤ ret) then (side.peer, sent.1) :: s.flight
            else s.flight }
    | .setLink side connected sock =>
      some (s.setDev side { s.dev side with connected := connected, sock := sock })

/-- Two devices and the packets on the link between them, before any is processed. -/
def linkStart (dev : Side → VpciDevice) (flight : List (Side × VpciPacket)) : VpciLink :=
  ⟨dev, flight, []⟩

/-- The packets queued at a side, with the side they are for. -/
def VpciLink.queued (s : VpciLink) (side : Side) : List (Side × VpciPacket) :=
  (s.dev side).txList.map fun pkt => (side.peer, pkt)

/-- The packets under way: on the link or queued for transmission. -/
def VpciLink.inTransit (s : VpciLink) : List (Side × VpciPacket) :=
  s.flight ++ s.queued .first ++ s.queued .second

/-- The number of deliveries of a run. -/
def deliveries (labels : List LinkStep) : ℕ :=
  labels.countP fun label => match label with
    | .deliver _ _ => true
    | _ => false

/-- The label disturbs nothing: allocations and transmissions succeed and links stay as they are. -/
def Undisturbed : LinkStep → Prop
  | .deliver _ c => c.Allocates
  | .transmit _ ret => 0 ≤ ret
  | .setLink _ _ _ => False

/-- How many deliveries a packet can cause: its own and that of its answer. -/
def weight (arrival : Side × VpciPacket) : ℕ := if Quiet arrival.2 then 1 else 2

/-- The number of deliveries the packets under way can still cause. -/
def VpciLink.load (s : VpciLink) : ℕ := (s.inTransit.map weight).sum

/-- What processing a packet queues, for every packet. -/
theorem vpciPacketProcess_sends (dev : VpciDevice) (c : PktChoice) (pkt : VpciPacket) :
    (vpciPacketProcess dev c pkt).connected = dev.connected ∧
      (vpciPacketProcess dev c pkt).sock = dev.sock ∧
      ∃ replies, (vpciPacketProcess dev c pkt).txList = dev.txList ++ replies ∧
        replies.length ≤ 1 ∧ (∀ r ∈ replies, IsAnswer r ∧ r.hdr.seqNum = pkt.hdr.seqNum) ∧
        (Quiet pkt → replies = []) ∧
        (¬ Quiet pkt → c.Allocates → dev.connected = true → replies.length = 1) := by
  by_cases hquiet : Quiet pkt
  · obtain ⟨htx, hconnected, hsock⟩ := vpciPacketProcess_quiet dev c pkt hquiet
    refine ⟨hconnected, hsock, [], ?_, Nat.zero_le _, by simp, fun _ => rfl, fun h => absurd hquiet h⟩
    rw [htx, List.append_nil]
  · have hanswers := vpciPacketProcess_answers dev c pkt hquiet
    obtain ⟨replies, htx, hlength, hseq, hone⟩ := hanswers.sends
    exact ⟨hanswers.connected, hanswers.sock, replies, htx, hlength, hseq,
      fun h => absurd h hquiet, fun _ => hone⟩

/-- Replacing the queue of a side by itself and more packets adds these to the packets under way. -/
theorem inTransit_setDev_append (s : VpciLink) {side : Side} {dev : VpciDevice}
    {sent : List VpciPacket} (htx : dev.txList = (s.dev side).txList ++ sent) :
    (s.setDev side dev).inTransit.Perm (s.inTransit ++ sent.map fun pkt => (side.peer, pkt)) := by
  apply List.perm_iff_count.mpr
  intro x
  cases side <;>
    simp only [VpciLink.inTransit, htx, List.map_append, List.count_append,
      VpciLink.setDev, reduceCtorEq, if_true, if_false, VpciLink.queued] <;>
    omega

/-- Taking the first packet of a queue takes it from the packets under way. -/
theorem inTransit_setDev_take (s : VpciLink) {side : Side} {dev : VpciDevice} {pkt : VpciPacket}
    (htx : (s.dev side).txList = pkt :: dev.txList) :
    ((side.peer, pkt) :: (s.setDev side dev).inTransit).Perm s.inTransit := by
  apply List.perm_iff_count.mpr
  intro x
  cases side <;>
    simp only [VpciLink.inTransit, htx, List.map_cons, List.count_append,
      List.count_cons, VpciLink.setDev, reduceCtorEq, if_true, if_false, VpciLink.queued] <;>
    omega

/-- A delivery takes one packet from those under way, records it, and adds its answer if any. -/
theorem deliver_spec {s t : VpciLink} {i : ℕ} {c : PktChoice}
    (h : linkMachine.step s (.deliver i c) = some t) :
    ∃ v, t.served = v :: s.served ∧
      ((v.side, v.packet) :: t.inTransit).Perm
        (s.inTransit ++ v.replies.map fun pkt => (v.side.peer, pkt)) ∧
      v.replies.length ≤ 1 ∧
      (∀ r ∈ v.replies, IsAnswer r ∧ r.hdr.seqNum = v.packet.hdr.seqNum) ∧
      (Quiet v.packet → v.replies = []) ∧
      (¬ Quiet v.packet → c.Allocates → (s.dev v.side).connected = true → v.replies.length = 1) ∧
      ∀ side, (t.dev side).connected = (s.dev side).connected ∧
        (t.dev side).sock = (s.dev side).sock := by
  obtain ⟨⟨side, pkt⟩, harrival, rfl⟩ := Option.map_eq_some_iff.mp h
  obtain ⟨hconnected, hsock, replies, htx, hlength, hseq, hquiet, hone⟩ :=
    vpciPacketProcess_sends (s.dev side) c pkt
  have hreplies : (vpciPacketProcess (s.dev side) c pkt).txList.drop (s.dev side).txList.length =
      replies := by
    rw [htx, List.drop_left]
  refine ⟨⟨side, pkt, replies⟩, ?_, ?_, hlength, hseq, hquiet, hone, fun other => ?_⟩
  · simp only [VpciLink.process, hreplies]
  · obtain ⟨hi, hget⟩ := List.getElem?_eq_some_iff.mp harrival
    have herase := List.getElem_cons_eraseIdx_perm hi
    rw [hget] at herase
    have hqueue := inTransit_setDev_append s htx
    apply List.perm_iff_count.mpr
    intro x
    have hflight := herase.count_eq x
    have htransit := hqueue.count_eq x
    simp only [VpciLink.inTransit, VpciLink.process, VpciLink.queued, VpciLink.setDev,
      List.count_append, List.count_cons] at hflight htransit ⊢
    omega
  · by_cases hside : other = side
    · subst hside
      simp [VpciLink.process, VpciLink.setDev, hconnected, hsock]
    · simp [VpciLink.process, VpciLink.setDev, hside]

/-- A transmission moves a packet to the link or loses it; it loses none on a working link. -/
theorem transmit_spec {s t : VpciLink} {side : Side} {ret : ℤ}
    (h : linkMachine.step s (.transmit side ret) = some t) :
    t.served = s.served ∧
      (∃ lost, (lost ++ t.inTransit).Perm s.inTransit ∧
        ((s.dev side).connected = true → (s.dev side).sock = true → 0 ≤ ret → lost = [])) ∧
      ∀ other, (t.dev other).connected = (s.dev other).connected ∧
        (t.dev other).sock = (s.dev other).sock := by
  obtain ⟨⟨pkt, passed, dev⟩, hsent, rfl⟩ := Option.map_eq_some_iff.mp h
  obtain ⟨htx, hpassed, hconnected, hsock⟩ := vpciTxThread_spec hsent
  simp only at htx hpassed hconnected hsock
  have htake := inTransit_setDev_take s htx
  refine ⟨rfl, ?_, fun other => ?_⟩
  · by_cases harrives : (passed && decide (0 ≤ ret)) = true
    · refine ⟨[], ?_, fun _ _ _ => rfl⟩
      simp only [harrives, if_true]
      exact htake
    · refine ⟨[(side.peer, pkt)], ?_, fun hup hopen hret => ?_⟩
      · simp only [harrives, Bool.false_eq_true, if_false]
        exact htake
      · exact absurd (by simp [hpassed, hup, hopen, hret]) harrives
  · by_cases hside : other = side
    · subst hside
      simp [VpciLink.setDev, hconnected, hsock]
    · simp [VpciLink.setDev, hside]

/-- Answers cause no delivery but their own. -/
theorem weight_replies {replies : List VpciPacket} (h : ∀ r ∈ replies, IsAnswer r) (side : Side) :
    ((replies.map fun pkt => (side, pkt)).map weight).sum = replies.length := by
  induction replies with
  | nil => rfl
  | cons r rest ih =>
    have hr : Quiet r := (h r List.mem_cons_self).quiet
    have hrest := ih fun r hr => h r (List.mem_cons_of_mem _ hr)
    simp only [List.map_cons, List.sum_cons, List.length_cons, weight, if_pos hr] at hrest ⊢
    omega

/-- A delivery lowers the load. -/
theorem deliver_load {s t : VpciLink} {i : ℕ} {c : PktChoice}
    (h : linkMachine.step s (.deliver i c) = some t) : t.load + 1 ≤ s.load := by
  obtain ⟨v, _, hperm, hlength, hseq, hquiet, _⟩ := deliver_spec h
  have hsum := (hperm.map weight).sum_eq
  rw [List.map_append, List.sum_append, weight_replies (fun r hr => (hseq r hr).1)] at hsum
  simp only [List.map_cons, List.sum_cons] at hsum
  change weight (v.side, v.packet) + t.load = s.load + v.replies.length at hsum
  by_cases hq : Quiet v.packet
  · rw [hquiet hq, weight, if_pos hq] at hsum
    simp only [List.length_nil] at hsum
    omega
  · rw [weight, if_neg hq] at hsum
    omega

/-- A transmission does not raise the load. -/
theorem transmit_load {s t : VpciLink} {side : Side} {ret : ℤ}
    (h : linkMachine.step s (.transmit side ret) = some t) : t.load ≤ s.load := by
  obtain ⟨_, ⟨lost, hperm, _⟩, _⟩ := transmit_spec h
  have hsum := (hperm.map weight).sum_eq
  rw [List.map_append, List.sum_append] at hsum
  change (lost.map weight).sum + t.load = s.load at hsum
  omega

/-- Connecting or disconnecting moves no packet. -/
theorem setLink_inTransit (s : VpciLink) (side : Side) (connected sock : Bool) :
    (s.setDev side { s.dev side with connected := connected, sock := sock }).inTransit =
      s.inTransit := by
  cases side <;> rfl

/-- The deliveries of a run are paid for by the load it started with. -/
theorem run_load {s t : VpciLink} {labels : List LinkStep} (h : linkMachine.run s labels = some t) :
    deliveries labels + t.load ≤ s.load := by
  induction labels generalizing s with
  | nil =>
    obtain rfl := Option.some.inj h
    exact (Nat.zero_add _).le
  | cons label rest ih =>
    obtain ⟨u, hu, hrest⟩ := Option.bind_eq_some_iff.mp h
    have hload := ih hrest
    cases label with
    | deliver i c =>
      have hstep := deliver_load hu
      have hcount : deliveries (LinkStep.deliver i c :: rest) = deliveries rest + 1 := by
        simp [deliveries]
      omega
    | transmit side ret =>
      have hstep := transmit_load hu
      have hcount : deliveries (LinkStep.transmit side ret :: rest) = deliveries rest := by
        simp [deliveries]
      omega
    | setLink side connected sock =>
      obtain rfl := Option.some.inj hu
      have hcount : deliveries (LinkStep.setLink side connected sock :: rest) = deliveries rest := by
        simp [deliveries]
      rw [hcount]
      exact hload.trans_eq (by rw [VpciLink.load, setLink_inTransit, VpciLink.load])

/-- The load is at most twice the number of packets under way. -/
theorem load_le (s : VpciLink) : s.load ≤ 2 * s.inTransit.length := by
  unfold VpciLink.load
  induction s.inTransit with
  | nil => exact le_refl _
  | cons arrival rest ih =>
    have hone : weight arrival ≤ 2 := by
      unfold weight
      split <;> omega
    simp only [List.map_cons, List.sum_cons, List.length_cons]
    omega

/-- The law of one processed packet: at most one answer, with its sequence number, and none to a
well-formed ACK, NACK or KEEPALIVE. -/
def Served.Lawful (v : Served) : Prop :=
  v.replies.length ≤ 1 ∧ (∀ r ∈ v.replies, IsAnswer r ∧ r.hdr.seqNum = v.packet.hdr.seqNum) ∧
    (Quiet v.packet → v.replies = [])

/-- The packet got exactly one ACK or NACK, with its sequence number. -/
def Served.Answered (v : Served) : Prop :=
  ∃ r, v.replies = [r] ∧ IsAnswer r ∧ r.hdr.seqNum = v.packet.hdr.seqNum

/-- The packets that arrived. -/
def arrivals (served : List Served) : List (Side × VpciPacket) :=
  served.map fun v => (v.side, v.packet)

/-- The answers that were queued, with the side they are for. -/
def answers (served : List Served) : List (Side × VpciPacket) :=
  served.flatMap fun v => v.replies.map fun pkt => (v.side.peer, pkt)

/-- Every packet processed in a run was processed lawfully. -/
theorem run_lawful {s t : VpciLink} {labels : List LinkStep} (hs : ∀ v ∈ s.served, v.Lawful)
    (h : linkMachine.run s labels = some t) : ∀ v ∈ t.served, v.Lawful := by
  have hstep : ∀ s label t, (∀ v ∈ s.served, v.Lawful) → linkMachine.step s label = some t →
      ∀ v ∈ t.served, v.Lawful := by
    intro s label t hs ht
    cases label with
    | deliver i c =>
      obtain ⟨v, hserved, _, hlength, hseq, hquiet, _⟩ := deliver_spec ht
      rw [hserved]
      exact List.forall_mem_cons.mpr ⟨⟨hlength, hseq, hquiet⟩, hs⟩
    | transmit side ret =>
      rw [(transmit_spec ht).1]
      exact hs
    | setLink side connected sock =>
      obtain rfl := Option.some.inj ht
      exact hs
  exact linkMachine.run_invariant hstep hs h

/-- What holds after an undisturbed run from `start`: the links work, every request processed was
answered, and the packets under way and their answers have arrived or are under way. -/
structure Delivered (start s : VpciLink) : Prop where
  connected : ∀ side, (s.dev side).connected = true
  sock : ∀ side, (s.dev side).sock = true
  answered : ∀ v ∈ s.served, ¬ Quiet v.packet → v.Answered
  conserved : (start.inTransit ++ answers s.served).Perm (arrivals s.served ++ s.inTransit)

/-- Undisturbed steps keep it. -/
theorem delivered_step {start s t : VpciLink} (h : Delivered start s) {label : LinkStep}
    (hlabel : Undisturbed label) (ht : linkMachine.step s label = some t) : Delivered start t := by
  cases label with
  | deliver i c =>
    obtain ⟨v, hserved, hperm, _, hseq, _, hone, hlink⟩ := deliver_spec ht
    constructor
    · exact fun side => (hlink side).1.trans (h.connected side)
    · exact fun side => (hlink side).2.trans (h.sock side)
    · rw [hserved]
      refine List.forall_mem_cons.mpr ⟨fun hv => ?_, h.answered⟩
      obtain ⟨r, hr⟩ := List.length_eq_one_iff.mp (hone hv hlabel (h.connected v.side))
      exact ⟨r, hr, hseq r (by rw [hr]; exact List.mem_singleton_self r)⟩
    · rw [hserved]
      apply List.perm_iff_count.mpr
      intro x
      have hold := h.conserved.count_eq x
      have hnew := hperm.count_eq x
      simp only [answers, arrivals, List.flatMap_cons, List.map_cons, List.count_append,
        List.count_cons] at hold hnew ⊢
      omega
  | transmit side ret =>
    obtain ⟨hserved, ⟨lost, hperm, hlost⟩, hlink⟩ := transmit_spec ht
    have hnone := hlost (h.connected side) (h.sock side) hlabel
    subst hnone
    constructor
    · exact fun side => (hlink side).1.trans (h.connected side)
    · exact fun side => (hlink side).2.trans (h.sock side)
    · rw [hserved]
      exact h.answered
    · rw [hserved]
      exact h.conserved.trans (hperm.symm.append_left _)
  | setLink side connected sock => exact hlabel.elim

/-- Undisturbed runs keep it. -/
theorem delivered_run {start s t : VpciLink} (h : Delivered start s) {labels : List LinkStep}
    (hlabels : ∀ label ∈ labels, Undisturbed label) (ht : linkMachine.run s labels = some t) :
    Delivered start t := by
  induction labels generalizing s with
  | nil =>
    obtain rfl := Option.some.inj ht
    exact h
  | cons label rest ih =>
    obtain ⟨u, hu, hrest⟩ := Option.bind_eq_some_iff.mp ht
    have hu' := delivered_step h (hlabels label List.mem_cons_self) hu
    exact ih hu' (fun other hother => hlabels other (List.mem_cons_of_mem _ hother)) hrest

/-- Every run of two devices delivers at most twice as many packets as were under way at its start,
and queues at most one answer to a packet and none to a well-formed ACK, NACK or KEEPALIVE. In an
undisturbed run of connected devices every other packet that arrived got exactly one ACK or NACK
with its own sequence number, and no packet is lost. -/
theorem vpci_protocol (dev : Side → VpciDevice) (flight : List (Side × VpciPacket))
    (labels : List LinkStep) {t : VpciLink}
    (hrun : linkMachine.run (linkStart dev flight) labels = some t) :
    deliveries labels ≤ 2 * (linkStart dev flight).inTransit.length ∧
      (∀ v ∈ t.served, v.Lawful) ∧
      ((∀ side, (dev side).connected = true ∧ (dev side).sock = true) →
        (∀ label ∈ labels, Undisturbed label) →
          (∀ v ∈ t.served, ¬ Quiet v.packet → v.Answered) ∧
          ((linkStart dev flight).inTransit ++ answers t.served).Perm
            (arrivals t.served ++ t.inTransit)) := by
  refine ⟨?_, run_lawful (fun v hv => absurd hv List.not_mem_nil) hrun, fun hlink hlabels => ?_⟩
  · have hload := run_load hrun
    have hstart := load_le (linkStart dev flight)
    omega
  · have hstart : Delivered (linkStart dev flight) (linkStart dev flight) := by
      constructor
      · exact fun side => (hlink side).1
      · exact fun side => (hlink side).2
      · exact fun v hv => absurd hv List.not_mem_nil
      · exact List.Perm.of_eq (List.append_nil _)
    have hend := delivered_run hstart hlabels hrun
    exact ⟨hend.answered, hend.conserved⟩

/-- A config read of 2 bytes arrives, its ACK is transmitted and arrives. -/
def configReadRun : List LinkStep :=
  [.deliver 0 ⟨true, true, true, true, fun _ => 0⟩, .transmit .second 26,
    .deliver 0 ⟨true, true, true, true, fun _ => 0⟩]

/-- The read request of that run. -/
def configReadRequest : VpciPacket where
  hdr := ⟨swap32 vpciMagic, swap16 vpciVersion, vpciMsgConfigRead, 0, 0, swap32 7, swap32 2, 0⟩
  data := []

/-- The request is answered, and the answer is not. -/
theorem vpci_protocol_configRead :
    ∃ t, linkMachine.run (linkStart (fun _ => vpciConnected) [(.second, configReadRequest)])
        configReadRun = some t ∧ t.served.length = 2 ∧ (∀ v ∈ t.served, v.Lawful) ∧
      ∀ v ∈ t.served, ¬ Quiet v.packet → v.Answered := by
  obtain ⟨t, ht, hserved⟩ : ∃ t, linkMachine.run (linkStart (fun _ => vpciConnected)
      [(.second, configReadRequest)]) configReadRun = some t ∧ t.served.length = 2 := ⟨_, rfl, rfl⟩
  obtain ⟨_, hlawful, hundisturbed⟩ := vpci_protocol _ _ _ ht
  have hanswered := hundisturbed (fun _ => ⟨rfl, rfl⟩)
    (by simp [configReadRun, Undisturbed, PktChoice.Allocates])
  exact ⟨t, ht, hserved, hlawful, hanswered.1⟩

end LinuxFunctionTest.VirtualPcie
