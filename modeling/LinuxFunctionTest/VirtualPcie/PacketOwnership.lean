import LinuxFunctionTest.VirtualPcie.TxQueue

/-!
# Ownership of sent packets

`vpci_packet_send` keeps a packet when it returns 0, and the transmit thread frees it; a packet it
refuses stays with the caller. The handlers of `vpci_packet_process` ignore the result, so a refused
answer is never released. `vpci_keepalive_timer` sends a local variable, so an accepted keepalive is
freed by the thread and goes out of scope besides. A thread that faults on a null socket never frees the
packet it holds. The contract is kept in the runs where none of this happens.
-/

namespace LinuxFunctionTest.VirtualPcie

open Bytes

/-- The device with its link up and its queue empty. -/
def VpciDevice.accepting (dev : VpciDevice) : VpciDevice :=
  { dev with connected := true, txList := [] }

/-- The device with the link and the queue of another. -/
def VpciDevice.linkedAs (dev other : VpciDevice) : VpciDevice :=
  { dev with connected := other.connected, txList := other.txList }

/-- `vpci_packet_process` up to its call of `vpci_packet_send`: the device, and the packet it passes
if it passes one. The call is the last thing that it does and the only one to look at the link or the
queue, so both are read off a device that accepts. -/
def vpciPacketPrepare (dev : VpciDevice) (c : PktChoice) (pkt : VpciPacket) :
    VpciDevice × Option VpciPacket :=
  let done := vpciPacketProcess dev.accepting c pkt
  (done.linkedAs dev, done.txList.head?)

/-- The call that `vpci_packet_process` ends with. -/
def vpciPacketFinish (dev : VpciDevice) : Option VpciPacket → VpciDevice
  | some pkt => (vpciPacketSend dev pkt).1
  | none => dev

/-- The packet that `vpci_keepalive_timer` builds. -/
def keepalivePacket (dev : VpciDevice) (seqNum : UInt32) : VpciPacket :=
  ⟨answerHdr dev vpciMsgKeepalive seqNum 0, []⟩

/-- What a packet consists of, released by one party. -/
def TxPkt.releasedBy (p : TxPkt) (party : TxParty) : List TxRelease :=
  (if p.onStack then [] else [.data p.id party]) ++ [.packet p.id party]

/-- The packet in the hands of the thread. -/
def TxThread.held : TxThread → List TxPkt
  | .waiting => []
  | .taken p | .linked p | .sending p | .counted p | .faulted p => [p]

namespace TxSystem

/-- The releases of one packet. -/
def releasesOf (s : TxSystem) (id : ℕ) : List TxRelease := s.releases.filter fun r => r.id = id

/-- `vpci_packet_process` on a received packet, up to its call of `vpci_packet_send`. -/
def process (s : TxSystem) (c : PktChoice) (pkt : VpciPacket) : TxSystem :=
  match vpciPacketPrepare s.device c pkt with
  | (dev, some answer) => { s with dev := { dev with txList := [] } }.call answer false
  | (dev, none) => { s with dev := { dev with txList := [] } }

/-- `vpci_keepalive_timer` up to its call of `vpci_packet_send`. -/
def timer (s : TxSystem) (seqNum : UInt32) : TxSystem :=
  if s.dev.connected then s.call (keepalivePacket s.dev seqNum) true else s

/-- The packet of call `i` goes out of scope. -/
def endScope (s : TxSystem) (i : ℕ) (obj : TxPkt) : TxSystem :=
  { s with
    calls := s.calls.eraseIdx i
    releases := s.releases ++ [.packet obj.id .sender] }

/-- `vpci_keepalive_timer` returns. -/
def timerReturn (s : TxSystem) (i : ℕ) : Option TxSystem :=
  match s.calls[i]? with
  | some ⟨obj, .returned⟩ => some (s.endScope i obj)
  | _ => none

end TxSystem

/-- A step of the queue, of packet processing or of the timer. -/
inductive PacketStep where
  | queue (step : QueueStep)
  | process (c : PktChoice) (pkt : VpciPacket)
  | timer (seqNum : UInt32)
  | timerReturn (i : ℕ)

/-- All senders and the thread in any order. -/
def packetMachine : Machine TxSystem PacketStep where
  step s step := match step with
    | .queue step => queueMachine.step s step
    | .process c pkt => some (s.process c pkt)
    | .timer seqNum => some (s.timer seqNum)
    | .timerReturn i => s.timerReturn i

/-- No packet is released while it is under way, queued or in the thread's hands, or linked twice;
afterwards it has been released once, by the thread if it was accepted and by its sender if not. The
thread runs on to release what it holds. -/
structure PacketsOwned (s : TxSystem) : Prop where
  once : (s.txList.map TxPkt.id).Nodup
  underWay : ∀ c ∈ s.calls, s.releasesOf c.obj.id = []
  queued : ∀ p ∈ s.thread.held ++ s.txList, s.releasesOf p.id = []
  accepted : ∀ p ∈ s.accepted, p ∉ s.thread.held ++ s.txList →
    s.releasesOf p.id = p.releasedBy .txThread
  refused : ∀ p ∈ s.refused, (∀ c ∈ s.calls, c.obj ≠ p) → s.releasesOf p.id = p.releasedBy .sender
  running : ∀ p, s.thread ≠ .faulted p

/-- `vpci_packet_send` finds the device connected for an allocated packet, and not connected for the
timer's; the thread finds a socket to send with. -/
def SendCare (s : TxSystem) : PacketStep → Prop
  | .queue (.check i) => ∀ c ∈ s.calls[i]?, (s.dev.connected = true ↔ c.obj.onStack = false)
  | .queue step => SocketThere s step
  | _ => True

instance (s : TxSystem) (step : PacketStep) : Decidable (SendCare s step) := by
  unfold SendCare
  split <;> infer_instance

/-- What a function left of the device and of the accepting one differs in the answer alone. -/
def Ends (dev left accepted : VpciDevice) : Prop :=
  left = vpciPacketFinish (accepted.linkedAs dev) accepted.txList.head?

/-- Both branches of a test that both devices pass alike. -/
theorem Ends.ite {p : Prop} [Decidable p] {dev left left' accepted accepted' : VpciDevice}
    (hthen : Ends dev left accepted) (helse : Ends dev left' accepted') :
    Ends dev (if p then left else left') (if p then accepted else accepted') := by
  by_cases h : p
  · rw [if_pos h, if_pos h]
    exact hthen
  · rw [if_neg h, if_neg h]
    exact helse

/-- Only the link and the queue of the device at the start count. -/
theorem Ends.of_link {dev dev' left accepted : VpciDevice} (h : Ends dev left accepted)
    (hconnected : dev'.connected = dev.connected) (hqueue : dev'.txList = dev.txList) :
    Ends dev' left accepted := by
  unfold Ends VpciDevice.linkedAs at *
  rw [hconnected, hqueue]
  exact h

/-- The call itself. -/
theorem vpciPacketSend_ends (dev : VpciDevice) (pkt : VpciPacket) :
    Ends dev (vpciPacketSend dev pkt).1 (vpciPacketSend dev.accepting pkt).1 := rfl

/-- `vpci_send_ack` and `vpci_send_nack` send or do nothing. -/
theorem vpciSendStatus_ends (type : UInt8) (dev : VpciDevice) (c : PktChoice) (seqNum : UInt32)
    (status : ℤ) : Ends dev (vpciSendStatus type dev c seqNum status)
      (vpciSendStatus type dev.accepting c seqNum status) :=
  .ite (vpciPacketSend_ends _ _) rfl

/-- The end of a read handler sends the response or a NACK. -/
theorem vpciSendData_ends (dev : VpciDevice) (c : PktChoice) (seqNum len : UInt32)
    (data : List UInt8) : Ends dev (vpciSendData dev c seqNum len data)
      (vpciSendData dev.accepting c seqNum len data) :=
  .ite (vpciPacketSend_ends _ _) (vpciSendStatus_ends _ _ _ _ _)

section Handlers

variable (dev : VpciDevice) (c : PktChoice) (pkt : VpciPacket)

/-- A config read ends in a call. -/
theorem vpciHandleConfigRead_ends :
    Ends dev (vpciHandleConfigRead dev c pkt) (vpciHandleConfigRead dev.accepting c pkt) :=
  .ite (vpciSendStatus_ends _ _ _ _ _)
    (.ite (vpciSendData_ends _ _ _ _ _) (vpciSendStatus_ends _ _ _ _ _))

/-- A config write ends in a call. -/
theorem vpciHandleConfigWrite_ends :
    Ends dev (vpciHandleConfigWrite dev c pkt) (vpciHandleConfigWrite dev.accepting c pkt) :=
  .ite (vpciSendStatus_ends _ _ _ _ _)
    ((vpciSendStatus_ends _ { dev with mem := _, payloadReads := _ } _ _ _).of_link rfl rfl)

/-- A memory read ends in a call. -/
theorem vpciHandleMemRead_ends :
    Ends dev (vpciHandleMemRead dev c pkt) (vpciHandleMemRead dev.accepting c pkt) := by
  apply Ends.ite
  · have hread : vpciMemRead dev.accepting = vpciMemRead dev := rfl
    rw [hread]
    cases vpciMemRead dev (swap64 pkt.hdr.address) (swap32 pkt.hdr.length) with
    | error ret => exact vpciSendStatus_ends _ _ _ _ _
    | ok data => exact vpciSendData_ends _ _ _ _ _
  · exact vpciSendStatus_ends _ _ _ _ _

/-- A memory write ends in a call. -/
theorem vpciHandleMemWrite_ends :
    Ends dev (vpciHandleMemWrite dev c pkt) (vpciHandleMemWrite dev.accepting c pkt) := by
  have hbar : findBar dev.accepting = findBar dev := rfl
  simp only [vpciHandleMemWrite, vpciMemWrite, hbar]
  cases findBar dev (swap64 pkt.hdr.address) (swap32 pkt.hdr.length) with
  | none => exact vpciSendStatus_ends _ _ _ _ _
  | some ptr =>
    exact (vpciSendStatus_ends _ { dev with mem := _, payloadReads := _ } _ _ _).of_link rfl rfl

/-- An interrupt ends in a call. -/
theorem vpciHandleIrq_ends :
    Ends dev (vpciHandleIrq dev c pkt) (vpciHandleIrq dev.accepting c pkt) := by
  have hirq : dev.accepting.irqHandler = dev.irqHandler := rfl
  simp only [vpciHandleIrq, hirq]
  by_cases h : dev.irqHandler = true
  · rw [if_pos h, if_pos h]
    exact (vpciSendStatus_ends _ { dev with irqs := _ } _ _ _).of_link rfl rfl
  · rw [if_neg h, if_neg h]
    exact vpciSendStatus_ends _ _ _ _ _

/-- A handshake ends in a call. -/
theorem vpciHandleHandshake_ends :
    Ends dev (vpciHandleHandshake dev c pkt) (vpciHandleHandshake dev.accepting c pkt) :=
  Ends.of_link (vpciSendStatus_ends _
    { dev with sessionId := _, handshakeStatus := _, handshakeComp := _ } _ _ _) rfl rfl

/-- Cut at its call of `vpci_packet_send`, processing a packet is what it is as a whole. -/
theorem vpciPacketProcess_eq : vpciPacketProcess dev c pkt =
    vpciPacketFinish (vpciPacketPrepare dev c pkt).1 (vpciPacketPrepare dev c pkt).2 := by
  have hrx : ∀ len, dev.accepting.countRx len = (dev.countRx len).accepting := fun _ => rfl
  change Ends (dev.countRx (swap32 pkt.hdr.length)) _ _
  unfold vpciPacketProcess
  simp only [hrx]
  generalize dev.countRx (swap32 pkt.hdr.length) = dev
  refine .ite (vpciSendStatus_ends _ dev.countError _ _ _) ?_
  refine .ite (vpciHandleConfigRead_ends _ _ _) ?_
  refine .ite (vpciHandleConfigWrite_ends _ _ _) ?_
  refine .ite (vpciHandleMemRead_ends _ _ _) ?_
  refine .ite (vpciHandleMemWrite_ends _ _ _) ?_
  refine .ite (vpciHandleIrq_ends _ _ _) ?_
  refine .ite rfl ?_
  refine .ite rfl ?_
  refine .ite (vpciHandleHandshake_ends _ _ _) ?_
  exact .ite rfl (vpciSendStatus_ends _ dev.countError _ _ _)

end Handlers

/-- The invariant of the careful runs: an allocated packet is never refused and the timer's is never
accepted. -/
structure PacketInv (s : TxSystem) : Prop where
  numbered : QueueNumbered s
  flying_once : ((s.thread.held ++ s.txList).map TxPkt.id).Nodup
  flying : ∀ p ∈ s.thread.held ++ s.txList,
    p ∈ s.accepted ∧ p.onStack = false ∧ s.releasesOf p.id = []
  accepted : ∀ p ∈ s.accepted, p ∈ s.thread.held ++ s.txList ∨
    s.releasesOf p.id = p.releasedBy .txThread
  calls_once : (s.calls.map fun c => c.obj.id).Nodup
  calls : ∀ c ∈ s.calls, c.obj.id < s.fresh ∧ s.releasesOf c.obj.id = [] ∧
    (c.pc = .append → c.obj.onStack = false) ∧ (c.pc = .returned → c.obj ∈ s.refused)
  refused : ∀ p ∈ s.refused, p.onStack = true ∧
    ((∃ c ∈ s.calls, c.obj = p ∧ c.pc = .returned) ∨ s.releasesOf p.id = p.releasedBy .sender)
  releases_lt : ∀ r ∈ s.releases, r.id < s.fresh

/-- The invariant implies the contract, as long as the thread runs. -/
theorem PacketInv.owned {s : TxSystem} (h : PacketInv s) (hrunning : ∀ p, s.thread ≠ .faulted p) :
    PacketsOwned s where
  once := by
    have hmap := h.flying_once
    rw [List.map_append] at hmap
    exact (List.nodup_append.mp hmap).2.1
  underWay c hc := (h.calls c hc).2.1
  queued p hp := (h.flying p hp).2.2
  accepted p hp hgone := (h.accepted p hp).resolve_left hgone
  refused p hp hgone := by
    rcases (h.refused p hp).2 with ⟨c, hc, hobj, _⟩ | hdone
    · exact absurd hobj (hgone c hc)
    · exact hdone
  running := hrunning

section Releases

variable {s t : TxSystem}

/-- What is released with a packet is that packet's. -/
theorem id_of_mem_releasedBy {p : TxPkt} {party : TxParty} {r : TxRelease}
    (h : r ∈ p.releasedBy party) : r.id = p.id := by
  unfold TxPkt.releasedBy at h
  cases hstack : p.onStack <;> simp only [hstack, if_true, Bool.false_eq_true, if_false,
    List.nil_append, List.mem_append, List.mem_singleton] at h
  · rcases h with rfl | rfl <;> rfl
  · rw [h]
    rfl

/-- Releasing a packet adds to the releases of that packet. -/
theorem releasesOf_released {p : TxPkt} {party : TxParty}
    (ht : t.releases = s.releases ++ p.releasedBy party) (id : ℕ) :
    t.releasesOf id = s.releasesOf id ++ if p.id = id then p.releasedBy party else [] := by
  rw [TxSystem.releasesOf, ht, List.filter_append, TxSystem.releasesOf]
  congr 1
  by_cases hid : p.id = id
  · rw [if_pos hid, List.filter_eq_self]
    exact fun r hr => decide_eq_true ((id_of_mem_releasedBy hr).trans hid)
  · rw [if_neg hid, List.filter_eq_nil_iff]
    exact fun r hr hr' => hid ((id_of_mem_releasedBy hr).symm.trans (of_decide_eq_true hr'))

/-- Releasing a packet releases no other. -/
theorem releasesOf_other {p : TxPkt} {party : TxParty}
    (ht : t.releases = s.releases ++ p.releasedBy party) (id : ℕ) (hid : p.id ≠ id) :
    t.releasesOf id = s.releasesOf id := by
  rw [releasesOf_released ht, if_neg hid, List.append_nil]

/-- Only packets that were passed are released. -/
theorem PacketInv.releases_lt_released (h : PacketInv s) {p : TxPkt} {party : TxParty}
    (ht : t.releases = s.releases ++ p.releasedBy party) (hp : p.id ∈ s.passed) :
    ∀ r ∈ t.releases, r.id < s.fresh := by
  rw [ht]
  intro r hr
  rcases List.mem_append.mp hr with hr | hr
  · exact h.releases_lt r hr
  · rw [id_of_mem_releasedBy hr]
    exact h.numbered.lt _ hp

/-- A number that was not given out was not released. -/
theorem PacketInv.releasesOf_fresh (h : PacketInv s) : s.releasesOf s.fresh = [] := by
  rw [TxSystem.releasesOf, List.filter_eq_nil_iff]
  intro r hr heq
  exact Nat.lt_irrefl _ ((of_decide_eq_true heq) ▸ h.releases_lt r hr)

end Releases

section Steps

variable {s t : TxSystem}

/-- A step that moves no packet and releases nothing. -/
theorem PacketInv.of_same (h : PacketInv s) (hlist : t.txList = s.txList) (hcalls : t.calls = s.calls)
    (hheld : t.thread.held = s.thread.held) (hfresh : t.fresh = s.fresh)
    (haccepted : t.accepted = s.accepted) (hrefused : t.refused = s.refused)
    (hreleases : t.releases = s.releases) : PacketInv t := by
  have hof : t.releasesOf = s.releasesOf := by
    funext id
    rw [TxSystem.releasesOf, hreleases, TxSystem.releasesOf]
  have hpassed : t.passed = s.passed := by
    rw [TxSystem.passed, TxSystem.pending, hcalls, haccepted, hrefused]
    rfl
  constructor
  · exact h.numbered.of_perm (List.Perm.of_eq hpassed) hfresh
  · rw [hheld, hlist]
    exact h.flying_once
  · rw [hheld, hlist, haccepted, hof]
    exact h.flying
  · rw [hheld, hlist, haccepted, hof]
    exact h.accepted
  · rw [hcalls]
    exact h.calls_once
  · rw [hcalls, hfresh, hof, hrefused]
    exact h.calls
  · rw [hrefused, hcalls, hof]
    exact h.refused
  · rw [hreleases, hfresh]
    exact h.releases_lt

/-- A new packet is under way. -/
theorem PacketInv.call (h : PacketInv s) (pkt : VpciPacket) (onStack : Bool) :
    PacketInv (s.call pkt onStack) := by
  have hnone : (s.call pkt onStack).releasesOf s.fresh = [] := h.releasesOf_fresh
  refine ⟨h.numbered.call pkt onStack, h.flying_once, h.flying, h.accepted, ?_, ?_, ?_, ?_⟩
  · change ((s.calls ++ [_]).map _).Nodup
    rw [List.map_append, List.nodup_append]
    refine ⟨h.calls_once, by simp, ?_⟩
    intro id hid id' hid' heq
    obtain ⟨c, hc, rfl⟩ := List.mem_map.mp hid
    obtain rfl : id' = s.fresh := by simpa using hid'
    exact Nat.ne_of_lt (h.calls c hc).1 heq
  · intro c hc
    rcases List.mem_append.mp hc with hc | hc
    · obtain ⟨hlt, hrest⟩ := h.calls c hc
      exact ⟨Nat.lt_succ_of_lt hlt, hrest⟩
    · obtain rfl := List.mem_singleton.mp hc
      exact ⟨Nat.lt_succ_self _, hnone, by simp, by simp⟩
  · intro p hp
    obtain ⟨hstack, ⟨c, hc, hobj⟩ | hdone⟩ := h.refused p hp
    · exact ⟨hstack, Or.inl ⟨c, List.mem_append_left _ hc, hobj⟩⟩
    · exact ⟨hstack, Or.inr hdone⟩
  · exact fun r hr => Nat.lt_succ_of_lt (h.releases_lt r hr)

/-- The calls after one of them has moved on, or returned, are numbered as before. -/
theorem PacketInv.calls_once_of_perm (h : PacketInv s) {i : ℕ} {c : SendCall}
    (hcall : s.calls[i]? = some c) :
    c.obj.id ∉ (s.calls.eraseIdx i).map (fun c => c.obj.id) ∧
      ((s.calls.eraseIdx i).map fun c => c.obj.id).Nodup := by
  have hmap := ((calls_perm hcall).map fun c => c.obj.id).nodup_iff.mp h.calls_once
  exact List.nodup_cons.mp hmap

/-- Reading `connected` when it is as the packet needs it. -/
theorem PacketInv.check (h : PacketInv s) {i : ℕ} (ht : s.sendCheck i = some t)
    (hcare : ∀ c ∈ s.calls[i]?, (s.dev.connected = true ↔ c.obj.onStack = false)) :
    PacketInv t := by
  have hnumbered := h.numbered.check ht
  obtain ⟨obj, hcall, hcases⟩ := sendCheck_cases ht
  have hcare := hcare _ hcall
  obtain ⟨hnot, honce⟩ := h.calls_once_of_perm hcall
  have hmem : ∀ c ∈ s.calls.eraseIdx i, c ∈ s.calls :=
    fun c hc => (calls_perm hcall).mem_iff.mpr (List.mem_cons_of_mem _ hc)
  have hset := fun pc => calls_set_perm hcall ⟨obj, pc⟩
  obtain ⟨hlt, hnone, _⟩ := h.calls _ (List.mem_of_getElem? hcall)
  have hkeep : ∀ c ∈ s.calls, c.pc = .returned → c ∈ s.calls.eraseIdx i := by
    intro c hc hpc
    refine (List.mem_cons.mp ((calls_perm hcall).mem_iff.mp hc)).resolve_left ?_
    rintro rfl
    cases hpc
  rcases hcases with ⟨hconn, rfl⟩ | ⟨hconn, rfl⟩
  · have hheap : obj.onStack = false := hcare.mp hconn
    refine ⟨hnumbered, h.flying_once, h.flying, h.accepted, ?_, ?_, ?_, h.releases_lt⟩
    · refine ((hset .append).map fun c => c.obj.id).nodup_iff.mpr ?_
      exact List.nodup_cons.mpr ⟨hnot, honce⟩
    · intro c hc
      rcases List.mem_cons.mp ((hset .append).mem_iff.mp hc) with rfl | hc
      · exact ⟨hlt, hnone, fun _ => hheap, by simp⟩
      · exact h.calls c (hmem c hc)
    · intro p hp
      obtain ⟨hstack, ⟨c, hc, hobj, hpc⟩ | hdone⟩ := h.refused p hp
      · refine ⟨hstack, Or.inl ⟨c, ?_, hobj, hpc⟩⟩
        exact (hset .append).mem_iff.mpr (List.mem_cons_of_mem _ (hkeep c hc hpc))
      · exact ⟨hstack, Or.inr hdone⟩
  · have hstack : obj.onStack = true := by
      rw [hconn] at hcare
      simpa using hcare
    have hcalls : (s.refuse i obj).calls = s.calls.set i ⟨obj, .returned⟩ := if_pos hstack
    refine ⟨hnumbered, h.flying_once, h.flying, h.accepted, ?_, ?_, ?_, h.releases_lt⟩
    · rw [hcalls]
      refine ((hset .returned).map fun c => c.obj.id).nodup_iff.mpr ?_
      exact List.nodup_cons.mpr ⟨hnot, honce⟩
    · rw [hcalls]
      intro c hc
      rcases List.mem_cons.mp ((hset .returned).mem_iff.mp hc) with rfl | hc
      · exact ⟨hlt, hnone, by simp, fun _ => List.mem_append_right _ (List.mem_singleton.mpr rfl)⟩
      · obtain ⟨hlt, hnone, happend, hreturned⟩ := h.calls c (hmem c hc)
        exact ⟨hlt, hnone, happend, fun hpc => List.mem_append_left _ (hreturned hpc)⟩
    · rw [hcalls]
      intro p hp
      rcases List.mem_append.mp hp with hp | hp
      · obtain ⟨hstack, ⟨c, hc, hobj, hpc⟩ | hdone⟩ := h.refused p hp
        · refine ⟨hstack, Or.inl ⟨c, ?_, hobj, hpc⟩⟩
          exact (hset .returned).mem_iff.mpr (List.mem_cons_of_mem _ (hkeep c hc hpc))
        · exact ⟨hstack, Or.inr hdone⟩
      · obtain rfl := List.mem_singleton.mp hp
        refine ⟨hstack, Or.inl ⟨⟨p, .returned⟩, ?_, rfl, rfl⟩⟩
        exact (hset .returned).mem_iff.mpr List.mem_cons_self

/-- A call that waits for its answer is under way. -/
theorem mem_pending {c : SendCall} (hc : c ∈ s.calls) (hpc : c.pc ≠ .returned) :
    c.obj.id ∈ s.pending := by
  refine List.mem_filterMap.mpr ⟨c, hc, ?_⟩
  unfold TxSystem.unanswered
  cases hpc' : c.pc with
  | check => rfl
  | append => rfl
  | returned => exact absurd hpc' hpc

/-- A packet in a call was not accepted. -/
theorem PacketInv.not_accepted (h : PacketInv s) {c : SendCall} (hc : c ∈ s.calls) :
    c.obj.id ∉ s.accepted.map TxPkt.id := by
  obtain ⟨_, _, hpending, hrefused⟩ := h.numbered.apart
  by_cases hpc : c.pc = .returned
  · exact hrefused _ (List.mem_map_of_mem ((h.calls c hc).2.2.2 hpc))
  · exact (hpending _ (mem_pending hc hpc)).1

/-- Appending an allocated packet. -/
theorem PacketInv.append (h : PacketInv s) {i : ℕ} (ht : s.sendAppend i = some t) :
    PacketInv t := by
  have hnumbered := h.numbered.append ht
  obtain ⟨obj, hcall, rfl⟩ := sendAppend_cases ht
  obtain ⟨_, honce⟩ := h.calls_once_of_perm hcall
  have hobj := List.mem_of_getElem? hcall
  obtain ⟨_, hnone, hheap, _⟩ := h.calls _ hobj
  have hheap := hheap rfl
  have hcalls : (s.accept i obj).calls = s.calls.eraseIdx i :=
    if_neg (by rw [hheap]; exact Bool.false_ne_true)
  have hmem : ∀ c ∈ s.calls.eraseIdx i, c ∈ s.calls :=
    fun c hc => (calls_perm hcall).mem_iff.mpr (List.mem_cons_of_mem _ hc)
  have hassoc : s.thread.held ++ (s.txList ++ [obj]) = s.thread.held ++ s.txList ++ [obj] :=
    (List.append_assoc _ _ _).symm
  refine ⟨hnumbered, ?_, ?_, ?_, ?_, ?_, ?_, h.releases_lt⟩
  · change ((s.thread.held ++ (s.txList ++ [obj])).map TxPkt.id).Nodup
    rw [hassoc, List.map_append, List.nodup_append]
    refine ⟨h.flying_once, by simp, ?_⟩
    intro id hid id' hid' heq
    obtain ⟨p, hp, rfl⟩ := List.mem_map.mp hid
    obtain rfl : id' = obj.id := by simpa using hid'
    exact h.not_accepted hobj (heq ▸ List.mem_map_of_mem (h.flying p hp).1)
  · change ∀ p ∈ s.thread.held ++ (s.txList ++ [obj]), p ∈ s.accepted ++ [obj] ∧ _
    rw [hassoc]
    intro p hp
    rcases List.mem_append.mp hp with hp | hp
    · obtain ⟨hacc, hrest⟩ := h.flying p hp
      exact ⟨List.mem_append_left _ hacc, hrest⟩
    · obtain rfl := List.mem_singleton.mp hp
      exact ⟨List.mem_append_right _ (List.mem_singleton.mpr rfl), hheap, hnone⟩
  · change ∀ p ∈ s.accepted ++ [obj], p ∈ s.thread.held ++ (s.txList ++ [obj]) ∨ _
    rw [hassoc]
    intro p hp
    rcases List.mem_append.mp hp with hp | hp
    · exact (h.accepted p hp).imp (List.mem_append_left _) id
    · exact Or.inl (List.mem_append_right _ hp)
  · rw [hcalls]
    exact honce
  · rw [hcalls]
    exact fun c hc => h.calls c (hmem c hc)
  · rw [hcalls]
    intro p hp
    obtain ⟨hstack, ⟨c, hc, hobj, hpc⟩ | hdone⟩ := h.refused p hp
    · refine ⟨hstack, Or.inl ⟨c, ?_, hobj, hpc⟩⟩
      refine (List.mem_cons.mp ((calls_perm hcall).mem_iff.mp hc)).resolve_left ?_
      rintro rfl
      cases hpc
    · exact ⟨hstack, Or.inr hdone⟩

/-- The thread frees the packet in its hands. -/
theorem PacketInv.free (h : PacketInv s) (ht : s.txFree = some t) : PacketInv t := by
  obtain ⟨p, hthread, rfl⟩ := txFree_cases ht
  have hheld : s.thread.held = [p] := by
    rw [hthread]
    rfl
  have hflying := h.flying
  have honce := h.flying_once
  rw [hheld] at hflying honce
  obtain ⟨hacc, hheap, hnone⟩ := hflying p List.mem_cons_self
  obtain ⟨hnodup, _, _, hrefused⟩ := h.numbered.apart
  have hreleases : (s.kfreePkt p).releases = s.releases ++ p.releasedBy .txThread :=
    List.append_assoc _ _ _
  have hof := releasesOf_released hreleases
  have hother := releasesOf_other hreleases
  have hpassed : p.id ∈ s.passed :=
    List.mem_append_right _ (List.mem_append_left _ (List.mem_map_of_mem hacc))
  refine ⟨h.numbered.of_perm (List.Perm.refl _) rfl, ?_, ?_, ?_, h.calls_once, ?_, ?_, ?_⟩
  · exact (List.nodup_cons.mp honce).2
  · intro q hq
    obtain ⟨hacc, hheap, hnone⟩ := hflying q (List.mem_cons_of_mem _ hq)
    refine ⟨hacc, hheap, ?_⟩
    rw [hother _ fun heq => (List.nodup_cons.mp honce).1 (heq ▸ List.mem_map_of_mem hq)]
    exact hnone
  · intro q hq
    by_cases heq : q = p
    · refine Or.inr ?_
      rw [heq, hof, if_pos rfl, hnone, List.nil_append]
    · have hid : p.id ≠ q.id := fun hid => heq (List.inj_on_of_nodup_map hnodup hq hacc hid.symm)
      rw [hother _ hid]
      refine (h.accepted q hq).imp (fun hmem => ?_) id
      rw [hheld] at hmem
      exact (List.mem_cons.mp hmem).resolve_left heq
  · intro c hc
    obtain ⟨hlt, hnone, hrest⟩ := h.calls c hc
    refine ⟨hlt, ?_, hrest⟩
    have hid : p.id ≠ c.obj.id := fun heq => h.not_accepted hc (heq ▸ List.mem_map_of_mem hacc)
    rw [hother _ hid]
    exact hnone
  · intro q hq
    obtain ⟨hstack, hcases⟩ := h.refused q hq
    have hid : p.id ≠ q.id :=
      fun heq => hrefused q.id (List.mem_map_of_mem hq) (heq ▸ List.mem_map_of_mem hacc)
    rw [hother _ hid]
    exact ⟨hstack, hcases⟩
  · exact h.releases_lt_released hreleases hpassed

/-- The timer returns: its refused packet goes out of scope. -/
theorem PacketInv.timerReturn (h : PacketInv s) {i : ℕ} (ht : s.timerReturn i = some t) :
    PacketInv t := by
  unfold TxSystem.timerReturn at ht
  split at ht
  · next obj hcall =>
    obtain rfl := Option.some.inj ht
    have hobj := List.mem_of_getElem? hcall
    obtain ⟨hnot, honce⟩ := h.calls_once_of_perm hcall
    obtain ⟨_, hnone, _, hreturned⟩ := h.calls _ hobj
    have hrefused := hreturned rfl
    have hstack := (h.refused obj hrefused).1
    obtain ⟨_, hnodup, _, hapart⟩ := h.numbered.apart
    have hparty : obj.releasedBy .sender = [.packet obj.id .sender] := by
      rw [TxPkt.releasedBy, if_pos hstack, List.nil_append]
    have hreleases : (s.endScope i obj).releases = s.releases ++ obj.releasedBy .sender := by
      rw [hparty]
      rfl
    have hother := releasesOf_other hreleases
    have hmem : ∀ c ∈ s.calls.eraseIdx i, c ∈ s.calls :=
      fun c hc => (calls_perm hcall).mem_iff.mpr (List.mem_cons_of_mem _ hc)
    have hpassed : obj.id ∈ s.passed :=
      List.mem_append_right _ (List.mem_append_right _ (List.mem_map_of_mem hrefused))
    have haccepted : ∀ p ∈ s.accepted, obj.id ≠ p.id :=
      fun p hp heq => hapart obj.id (List.mem_map_of_mem hrefused) (heq ▸ List.mem_map_of_mem hp)
    refine ⟨?_, h.flying_once, ?_, ?_, honce, ?_, ?_, h.releases_lt_released hreleases hpassed⟩
    · refine h.numbered.of_perm (t := s.endScope i obj) ?_ rfl
      exact (pending_perm hcall).symm.append_right _
    · intro p hp
      obtain ⟨hacc, hheap, hnone⟩ := h.flying p hp
      exact ⟨hacc, hheap, (hother _ (haccepted p hacc)).trans hnone⟩
    · intro p hp
      rw [hother _ (haccepted p hp)]
      exact h.accepted p hp
    · intro c hc
      obtain ⟨hlt, hnone, hrest⟩ := h.calls c (hmem c hc)
      refine ⟨hlt, ?_, hrest⟩
      rw [hother _ fun heq => hnot (heq ▸ List.mem_map_of_mem hc)]
      exact hnone
    · intro p hp
      obtain ⟨hpstack, hcases⟩ := h.refused p hp
      refine ⟨hpstack, ?_⟩
      by_cases heq : p = obj
      · refine Or.inr ?_
        rw [heq, releasesOf_released hreleases, if_pos rfl, hnone, List.nil_append]
      · have hid : obj.id ≠ p.id :=
          fun hid => heq (List.inj_on_of_nodup_map hnodup hp hrefused hid.symm)
        rw [hother _ hid]
        refine hcases.imp (fun ⟨c, hc, hcobj, hpc⟩ => ⟨c, ?_, hcobj, hpc⟩) id
        refine (List.mem_cons.mp ((calls_perm hcall).mem_iff.mp hc)).resolve_left ?_
        rintro rfl
        exact heq hcobj.symm
  · exact absurd ht (by simp)

/-- The thread takes the first packet. -/
theorem PacketInv.take (h : PacketInv s) (ht : s.txTake = some t) : PacketInv t := by
  obtain ⟨hthread, rfl | ⟨p, rest, hlist, rfl⟩⟩ := txTake_cases ht
  · exact h
  · have hflying : s.thread.held ++ s.txList = p :: rest := by
      rw [hthread, hlist]
      rfl
    obtain ⟨hnumbered, honce, hflying', haccepted, hcalls_once, hcalls, hrefused, hlt⟩ := h
    rw [hflying] at honce hflying' haccepted
    exact ⟨hnumbered.of_perm (List.Perm.refl _) rfl, honce, hflying', haccepted, hcalls_once, hcalls,
      hrefused, hlt⟩

/-- Every careful step keeps the invariant. -/
theorem packetMachine_step_inv (s : TxSystem) (step : PacketStep) (t : TxSystem) (h : PacketInv s)
    (ht : packetMachine.step s step = some t) (hcare : SendCare s step) : PacketInv t := by
  have hdrop : ∀ p, s.thread.held = [p] → PacketInv (s.txDrop p) :=
    fun p hp => h.of_same rfl rfl hp.symm rfl rfl rfl rfl
  cases step with
  | queue step =>
    cases step with
    | send pkt => exact Option.some.inj ht ▸ h.call pkt false
    | check i => exact h.check ht hcare
    | append i => exact h.append ht
    | take => exact h.take ht
    | readConnected =>
      obtain ⟨p, hthread, rfl | rfl⟩ := txReadConnected_cases ht
      · exact h.of_same rfl rfl (by rw [hthread]; rfl) rfl rfl rfl rfl
      · exact hdrop p (by rw [hthread]; rfl)
    | readSock =>
      obtain ⟨p, hthread, rfl | rfl⟩ := txReadSock_cases ht
      · exact h.of_same rfl rfl (by rw [hthread]; rfl) rfl rfl rfl rfl
      · exact hdrop p (by rw [hthread]; rfl)
    | sendmsg ret =>
      obtain ⟨p, hthread, ⟨_, rfl | rfl⟩ | ⟨_, rfl⟩⟩ := txSendmsg_cases ht
      · exact h.of_same rfl rfl (by rw [hthread]; rfl) rfl rfl rfl rfl
      · exact h.of_same rfl rfl (by rw [hthread]; rfl) rfl rfl rfl rfl
      · exact h.of_same rfl rfl (by rw [hthread]; rfl) rfl rfl rfl rfl
    | free => exact h.free ht
    | setConnected connected | setSock sock | countError =>
      obtain rfl := Option.some.inj ht
      exact h.of_same rfl rfl rfl rfl rfl rfl rfl
  | process c pkt =>
    obtain rfl := Option.some.inj ht
    have hdev : ∀ dev, PacketInv { s with dev := dev } :=
      fun _ => h.of_same rfl rfl rfl rfl rfl rfl rfl
    unfold TxSystem.process
    split
    · exact (hdev _).call _ _
    · exact hdev _
  | timer seqNum =>
    obtain rfl := Option.some.inj ht
    exact iteInduction (fun _ => h.call _ true) fun _ => h
  | timerReturn i => exact h.timerReturn ht

/-- Packet processing and the timer leave the thread where it is, and no careful step ends it. -/
theorem packetMachine_step_running (step : PacketStep) (hrunning : ∀ p, s.thread ≠ .faulted p)
    (ht : packetMachine.step s step = some t) (hcare : SendCare s step) (p : TxPkt) :
    t.thread ≠ .faulted p := by
  cases step with
  | queue step =>
    have hsocket : SocketThere s step := by
      cases step with
      | check i => trivial
      | send _ | append _ | take | readConnected | readSock | sendmsg _ | free | setConnected _
      | setSock _ | countError => exact hcare
    exact queueMachine_step_running hrunning step ht hsocket p
  | process c pkt =>
    obtain rfl := Option.some.inj ht
    unfold TxSystem.process
    split
    · exact hrunning p
    · exact hrunning p
  | timer seqNum =>
    obtain rfl := Option.some.inj ht
    unfold TxSystem.timer
    split
    · exact hrunning p
    · exact hrunning p
  | timerReturn i =>
    unfold packetMachine TxSystem.timerReturn at ht
    dsimp only at ht
    split at ht
    · obtain rfl := Option.some.inj ht
      exact hrunning p
    · cases ht

end Steps

/-- A packet whose magic number is wrong. -/
def strayPacket : VpciPacket := ⟨⟨0, 0, vpciMsgIrq, 0, 0, 0, 0, 0⟩, []⟩

end LinuxFunctionTest.VirtualPcie
