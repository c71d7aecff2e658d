import LinuxFunctionTest.VirtualPcie.Packet

/-!
# The bounds of a received payload

The handlers copy out of the payload of a packet as many bytes as its header says, and compare that
number with the size of the destination only. Which bytes of the payload processing a packet reads is
told here for all types of packet, and when these were received.
-/

namespace LinuxFunctionTest.VirtualPcie

open Bytes Errno

/-- The packet has the magic number, so `vpci_packet_process` looks at its type. -/
def VpciPacket.Known (pkt : VpciPacket) : Prop := swap32 pkt.hdr.magic = vpciMagic

instance (pkt : VpciPacket) : Decidable pkt.Known := inferInstanceAs (Decidable (_ = _))

/-- Where processing the packet stores payload bytes: a CONFIG_WRITE that passes its range check, a
MEM_WRITE for which a BAR is found. -/
def storePtr (dev : VpciDevice) (pkt : VpciPacket) : Option UInt64 :=
  let addr := swap64 pkt.hdr.address
  let len := swap32 pkt.hdr.length
  if ¬ pkt.Known then none
  else if pkt.hdr.type = vpciMsgConfigWrite then
    if addr + len.toUInt64 > dev.configSize then none else some (dev.configSpace + addr)
  else if pkt.hdr.type = vpciMsgMemWrite then findBar dev addr len
  else none

/-- The numbers of payload bytes that processing the packet reads: those it stores, or the error code
of a NACK. -/
def payloadDemand (dev : VpciDevice) (pkt : VpciPacket) : List ℕ :=
  if (storePtr dev pkt).isSome then [(swap32 pkt.hdr.length).toNat]
  else if pkt.Known ∧ pkt.hdr.type = vpciMsgNack then [4]
  else []

/-- The memory after bytes of the payload were stored at the pointer, if there is one. -/
def payloadStored (dev : VpciDevice) (c : PktChoice) (pkt : VpciPacket) :
    Option UInt64 → UInt64 → UInt8
  | some ptr => writeMem dev.mem ptr (pkt.payload c.stray (swap32 pkt.hdr.length).toNat)
  | none => dev.mem

/-- The processing took `dev` to `dev'`, read of the payload what the packet demands, and stored it. -/
def Demanded (dev : VpciDevice) (c : PktChoice) (pkt : VpciPacket) (dev' : VpciDevice) : Prop :=
  dev'.payloadReads = payloadDemand dev pkt ++ dev.payloadReads ∧
    dev'.mem = payloadStored dev c pkt (storePtr dev pkt)

section Handlers

variable (dev : VpciDevice) (c : PktChoice) (pkt : VpciPacket)

/-- An ACK or a NACK stores nothing and does not look at the payload. -/
theorem vpciSendStatus_payload (type : UInt8) (seqNum : UInt32) (status : ℤ) :
    (vpciSendStatus type dev c seqNum status).payloadReads = dev.payloadReads ∧
      (vpciSendStatus type dev c seqNum status).mem = dev.mem :=
  ⟨vpciSendStatus_payloadReads type dev c seqNum status, vpciSendStatus_mem type dev c seqNum status⟩

/-- The answer to a read stores nothing and does not look at the payload. -/
theorem vpciSendData_payload (seqNum len : UInt32) (data : List UInt8) :
    (vpciSendData dev c seqNum len data).payloadReads = dev.payloadReads ∧
      (vpciSendData dev c seqNum len data).mem = dev.mem :=
  ⟨vpciSendData_payloadReads dev c seqNum len data, vpciSendData_mem dev c seqNum len data⟩

/-- A CONFIG_READ stores nothing and does not look at the payload. -/
theorem vpciHandleConfigRead_payload :
    (vpciHandleConfigRead dev c pkt).payloadReads = dev.payloadReads ∧
      (vpciHandleConfigRead dev c pkt).mem = dev.mem := by
  simp only [vpciHandleConfigRead]
  split_ifs
  · exact vpciSendStatus_payload dev c _ _ _
  · exact vpciSendData_payload dev c _ _ _
  · exact vpciSendStatus_payload dev c _ _ _

/-- A MEM_READ stores nothing and does not look at the payload. -/
theorem vpciHandleMemRead_payload :
    (vpciHandleMemRead dev c pkt).payloadReads = dev.payloadReads ∧
      (vpciHandleMemRead dev c pkt).mem = dev.mem := by
  simp only [vpciHandleMemRead]
  split_ifs
  · cases vpciMemRead dev (swap64 pkt.hdr.address) (swap32 pkt.hdr.length) with
    | error ret => exact vpciSendStatus_payload dev c _ _ _
    | ok data => exact vpciSendData_payload dev c _ _ _
  · exact vpciSendStatus_payload dev c _ _ _

/-- An IRQ stores nothing and does not look at the payload. -/
theorem vpciHandleIrq_payload :
    (vpciHandleIrq dev c pkt).payloadReads = dev.payloadReads ∧
      (vpciHandleIrq dev c pkt).mem = dev.mem := by
  simp only [vpciHandleIrq]
  split_ifs <;> exact vpciSendStatus_payload _ c _ _ _

/-- A handshake stores nothing and does not look at the payload. -/
theorem vpciHandleHandshake_payload :
    (vpciHandleHandshake dev c pkt).payloadReads = dev.payloadReads ∧
      (vpciHandleHandshake dev c pkt).mem = dev.mem :=
  vpciSendStatus_payload _ c _ _ _

/-- A CONFIG_WRITE in range reads as many payload bytes as its header says, and stores them. -/
theorem vpciHandleConfigWrite_payload (hknown : pkt.Known) (htype : pkt.hdr.type = vpciMsgConfigWrite) :
    Demanded dev c pkt (vpciHandleConfigWrite dev c pkt) := by
  have hnack : ¬ (pkt.Known ∧ pkt.hdr.type = vpciMsgNack) := by
    rw [htype]
    exact fun h => absurd h.2 (by decide)
  by_cases hrange : swap64 pkt.hdr.address + (swap32 pkt.hdr.length).toUInt64 > dev.configSize
  · have hnone : storePtr dev pkt = none := by
      rw [storePtr, if_neg (not_not.mpr hknown), if_pos htype, if_pos hrange]
    rw [Demanded, payloadDemand, hnone, if_neg (by simp), if_neg hnack]
    simp only [vpciHandleConfigWrite, if_pos hrange]
    exact vpciSendStatus_payload dev c _ _ _
  · have hsome : storePtr dev pkt = some (dev.configSpace + swap64 pkt.hdr.address) := by
      rw [storePtr, if_neg (not_not.mpr hknown), if_pos htype, if_neg hrange]
    rw [Demanded, payloadDemand, hsome, if_pos Option.isSome_some]
    simp only [vpciHandleConfigWrite, if_neg hrange]
    exact vpciSendStatus_payload _ c _ _ _

/-- A MEM_WRITE into a BAR reads as many payload bytes as its header says, and stores them. -/
theorem vpciHandleMemWrite_payload (hknown : pkt.Known) (htype : pkt.hdr.type = vpciMsgMemWrite) :
    Demanded dev c pkt (vpciHandleMemWrite dev c pkt) := by
  have hnack : ¬ (pkt.Known ∧ pkt.hdr.type = vpciMsgNack) := by
    rw [htype]
    exact fun h => absurd h.2 (by decide)
  have hconfig : pkt.hdr.type ≠ vpciMsgConfigWrite := by
    rw [htype]
    decide
  have hptr : storePtr dev pkt = findBar dev (swap64 pkt.hdr.address) (swap32 pkt.hdr.length) := by
    rw [storePtr, if_neg (not_not.mpr hknown), if_neg hconfig, if_pos htype]
  rw [Demanded, payloadDemand, hptr]
  simp only [vpciHandleMemWrite, vpciMemWrite]
  cases findBar dev (swap64 pkt.hdr.address) (swap32 pkt.hdr.length) with
  | none =>
    rw [if_neg (by simp), if_neg hnack]
    exact vpciSendStatus_payload dev c _ _ _
  | some ptr =>
    rw [if_pos Option.isSome_some]
    exact vpciSendStatus_payload _ c _ _ _

variable {dev c pkt}

/-- A packet of no storing type stores nothing. -/
theorem storePtr_eq_none (hconfig : pkt.hdr.type ≠ vpciMsgConfigWrite)
    (hmem : pkt.hdr.type ≠ vpciMsgMemWrite) : storePtr dev pkt = none := by
  simp [storePtr, hconfig, hmem]

/-- A packet that stores nothing and is no NACK is right to leave memory and payload alone. -/
theorem payload_untouched {dev' : VpciDevice} (hptr : storePtr dev pkt = none)
    (hnack : ¬ (pkt.Known ∧ pkt.hdr.type = vpciMsgNack))
    (h : dev'.payloadReads = dev.payloadReads ∧ dev'.mem = dev.mem) : Demanded dev c pkt dev' := by
  rw [Demanded, payloadDemand, hptr, if_neg (by simp), if_neg hnack]
  exact h

variable (dev c pkt)

/-- What a known packet reads of the payload and what it stores. -/
theorem vpciPacketProcess_known (hknown : pkt.Known) :
    Demanded dev c pkt (vpciPacketProcess dev c pkt) := by
  change Demanded (dev.countRx (swap32 pkt.hdr.length)) c pkt _
  unfold vpciPacketProcess
  generalize dev.countRx (swap32 pkt.hdr.length) = dev
  refine iteInduction (fun h => absurd hknown h) fun _ => ?_
  refine iteInduction (fun hread => ?_) fun hread => ?_
  · exact payload_untouched (storePtr_eq_none (by rw [hread]; decide) (by rw [hread]; decide))
      (fun h => absurd (hread.symm.trans h.2) (by decide)) (vpciHandleConfigRead_payload dev c pkt)
  refine iteInduction (fun hwrite => vpciHandleConfigWrite_payload dev c pkt hknown hwrite) fun hwrite => ?_
  refine iteInduction (fun hmread => ?_) fun hmread => ?_
  · exact payload_untouched (storePtr_eq_none hwrite (by rw [hmread]; decide))
      (fun h => absurd (hmread.symm.trans h.2) (by decide)) (vpciHandleMemRead_payload dev c pkt)
  refine iteInduction (fun hmwrite => vpciHandleMemWrite_payload dev c pkt hknown hmwrite) fun hmwrite => ?_
  have hnone : storePtr dev pkt = none := storePtr_eq_none hwrite hmwrite
  refine iteInduction (fun hirq => ?_) fun hirq => ?_
  · exact payload_untouched hnone (fun h => absurd (hirq.symm.trans h.2) (by decide))
      (vpciHandleIrq_payload dev c pkt)
  refine iteInduction (fun hack => ?_) fun hack => ?_
  · exact payload_untouched hnone (fun h => absurd (hack.symm.trans h.2) (by decide)) ⟨rfl, rfl⟩
  refine iteInduction (fun hnack => ?_) fun hnack => ?_
  · rw [Demanded, payloadDemand, hnone, if_neg (by simp), if_pos ⟨hknown, hnack⟩]
    exact ⟨rfl, rfl⟩
  have hother : ¬ (pkt.Known ∧ pkt.hdr.type = vpciMsgNack) := fun h => hnack h.2
  refine iteInduction (fun _ => payload_untouched hnone hother (vpciHandleHandshake_payload dev c pkt))
    fun _ => ?_
  refine iteInduction (fun _ => payload_untouched hnone hother ⟨rfl, rfl⟩) fun _ => ?_
  exact payload_untouched hnone hother (vpciSendStatus_payload dev.countError c _ _ _)

/-- What processing a packet reads of the payload and what it stores. -/
theorem vpciPacketProcess_payload : Demanded dev c pkt (vpciPacketProcess dev c pkt) := by
  by_cases hknown : pkt.Known
  · exact vpciPacketProcess_known dev c pkt hknown
  · have hptr : storePtr dev pkt = none := if_pos hknown
    refine payload_untouched hptr (fun h => hknown h.1) ?_
    have hmagic : swap32 pkt.hdr.magic ≠ vpciMagic := hknown
    rw [vpciPacketProcess, if_pos hmagic]
    exact vpciSendStatus_payload _ c _ _ _

end Handlers

/-- Processing the packet stays inside its payload: it reads received bytes only, what it stores was
received, and the error code of a NACK is read only when there is one. -/
structure PayloadSafe (dev : VpciDevice) (c : PktChoice) (pkt : VpciPacket) : Prop where
  reads : ∃ reads, (vpciPacketProcess dev c pkt).payloadReads = reads ++ dev.payloadReads ∧
    ∀ n ∈ reads, n ≤ pkt.data.length
  stored : ∀ p, (vpciPacketProcess dev c pkt).mem p ≠ dev.mem p →
    (vpciPacketProcess dev c pkt).mem p ∈ pkt.data
  unstrayed : ∀ stray, (vpciPacketProcess dev { c with stray := stray } pkt).mem =
    (vpciPacketProcess dev c pkt).mem
  nack : pkt.hdr.type = vpciMsgNack →
    (vpciPacketProcess dev c pkt).payloadReads ≠ dev.payloadReads → 4 ≤ pkt.data.length

/-- Processing a packet stays inside its payload exactly when what is stored is no longer than the
payload and a NACK carries an error code. -/
theorem vpciPacketProcess_payloadSafe_iff (dev : VpciDevice) (c : PktChoice) (pkt : VpciPacket) :
    PayloadSafe dev c pkt ↔
      ((storePtr dev pkt).isSome → (swap32 pkt.hdr.length).toNat ≤ pkt.data.length) ∧
        (pkt.Known → pkt.hdr.type = vpciMsgNack → 4 ≤ pkt.data.length) := by
  have hprocess := vpciPacketProcess_payload dev
  have hnackPtr : pkt.hdr.type = vpciMsgNack → storePtr dev pkt = none := fun htype =>
    storePtr_eq_none (by rw [htype]; decide) (by rw [htype]; decide)
  constructor
  · rintro ⟨⟨reads, hreads, hle⟩, -, -, -⟩
    rw [(hprocess c pkt).1, List.append_cancel_right_eq] at hreads
    subst hreads
    refine ⟨fun hsome => hle _ ?_, fun hknown htype => hle _ ?_⟩
    · simp [payloadDemand, hsome]
    · simp [payloadDemand, hnackPtr htype, hknown, htype]
  · rintro ⟨hstore, hnack⟩
    refine ⟨⟨_, (hprocess c pkt).1, fun n hn => ?_⟩, fun p hp => ?_, fun stray => ?_, ?_⟩
    · unfold payloadDemand at hn
      split_ifs at hn with hsome hnack'
      · obtain rfl := List.mem_singleton.mp hn
        exact hstore hsome
      · obtain rfl := List.mem_singleton.mp hn
        exact hnack hnack'.1 hnack'.2
      · exact absurd hn List.not_mem_nil
    · rw [(hprocess c pkt).2] at hp ⊢
      cases hptr : storePtr dev pkt with
      | none => exact absurd (by rw [hptr]; rfl) hp
      | some ptr =>
        rw [hptr, payloadStored, pkt.payload_of_le (hstore (by simp [hptr]))] at hp
        rw [payloadStored, pkt.payload_of_le (hstore (by simp [hptr]))]
        exact List.mem_of_mem_take (writeMem_mem hp)
    · rw [(hprocess _ pkt).2, (hprocess c pkt).2]
      cases hptr : storePtr dev pkt with
      | none => rfl
      | some ptr =>
        have hlen := hstore (by simp [hptr])
        simp only [payloadStored, pkt.payload_of_le hlen]
    · intro htype hread
      rw [(hprocess c pkt).1] at hread
      refine hnack ?_ htype
      by_contra hunknown
      simp [payloadDemand, hnackPtr htype, hunknown] at hread

/-- A NACK without a payload: four bytes are read of none. -/
theorem vpciHandleNack_overread :
    ¬ PayloadSafe vpciConnected ⟨true, true, true, true, fun _ => 0⟩
      ⟨⟨swap32 vpciMagic, swap16 vpciVersion, vpciMsgNack, 0, 0, 0, 0, 0⟩, []⟩ := by
  intro h
  exact absurd (h.nack rfl (by decide)) (by decide)

end LinuxFunctionTest.VirtualPcie
