import LinuxFunctionTest.VirtualPcie.ConfigSpace

/-!
# The address field of a packet

Five handlers convert the same big-endian field. Four of them take its 64 bits, and the interrupt handler
the low half of what is stored, which is the high half of the address: every interrupt number that fits
its width arrives as zero.
-/

namespace LinuxFunctionTest.VirtualPcie

open Bytes Errno

/-- The value is stored big-endian in the address field. -/
def VpciPacket.AddressStored (pkt : VpciPacket) (a : UInt64) : Prop :=
  toLE 8 pkt.hdr.address.toNat = (toLE 8 a.toNat).reverse

instance (pkt : VpciPacket) (a : UInt64) : Decidable (pkt.AddressStored a) :=
  inferInstanceAs (Decidable (_ = _))

/-- The handlers act on address `a`: those of the config space and of the memory do what the functions
of the same name do at `a`, and an interrupt number is passed on as it is. -/
structure ActsOnAddress (dev : VpciDevice) (c : PktChoice) (pkt : VpciPacket) (a : UInt64) : Prop where
  configRead : vpciHandleConfigRead dev c pkt =
    match vpciConfigRead dev a (swap32 pkt.hdr.length) with
    | .error ret => vpciSendNack dev c (swap32 pkt.hdr.seqNum) ret
    | .ok data =>
      if c.readData then vpciSendData dev c (swap32 pkt.hdr.seqNum) (swap32 pkt.hdr.length) data
      else vpciSendNack dev c (swap32 pkt.hdr.seqNum) (-enomem)
  configWrite : vpciHandleConfigWrite dev c pkt =
    match vpciConfigWrite dev a (pkt.payload c.stray (swap32 pkt.hdr.length).toNat)
        (swap32 pkt.hdr.length) with
    | .error ret => vpciSendNack dev c (swap32 pkt.hdr.seqNum) ret
    | .ok dev =>
      vpciSendAck { dev with payloadReads := (swap32 pkt.hdr.length).toNat :: dev.payloadReads } c
        (swap32 pkt.hdr.seqNum) 0
  memRead : vpciHandleMemRead dev c pkt =
    if c.readData then
      match vpciMemRead dev a (swap32 pkt.hdr.length) with
      | .error ret => vpciSendNack dev c (swap32 pkt.hdr.seqNum) ret
      | .ok data => vpciSendData dev c (swap32 pkt.hdr.seqNum) (swap32 pkt.hdr.length) data
    else vpciSendNack dev c (swap32 pkt.hdr.seqNum) (-enomem)
  memWrite : vpciHandleMemWrite dev c pkt =
    match vpciMemWrite dev a (pkt.payload c.stray (swap32 pkt.hdr.length).toNat)
        (swap32 pkt.hdr.length) with
    | .error ret => vpciSendNack dev c (swap32 pkt.hdr.seqNum) ret
    | .ok dev =>
      vpciSendAck { dev with payloadReads := (swap32 pkt.hdr.length).toNat :: dev.payloadReads } c
        (swap32 pkt.hdr.seqNum) 0
  irq : a.toNat < 2 ^ 32 → dev.irqHandler = true →
    (vpciHandleIrq dev c pkt).irqs = UInt32.ofNat a.toNat :: dev.irqs

section Decode

variable {pkt : VpciPacket} {a : UInt64}

/-- The 64-bit conversion of the field gives the address. -/
theorem VpciPacket.AddressStored.swap64_eq (h : pkt.AddressStored a) : swap64 pkt.hdr.address = a := by
  apply UInt64.toNat_inj.mp
  rw [toNat_swap64, byteSwap, h, List.reverse_reverse, ofLE_toLE]
  exact Nat.mod_eq_of_lt a.toNat_lt

/-- The 32-bit conversion of the field gives the high half of the address. -/
theorem VpciPacket.AddressStored.irqNum (h : pkt.AddressStored a) :
    (swap32 pkt.hdr.address.toUInt32).toNat = a.toNat / 2 ^ 32 := by
  have hfield : pkt.hdr.address.toNat = byteSwap 8 a.toNat := by
    rw [← toNat_swap64, ← h.swap64_eq, swap64_swap64]
  have hhalf := byteSwap_mod 4 4 a.toNat
  have ha := a.toNat_lt
  have hlow : a.toNat / 2 ^ 32 < 256 ^ 4 := by omega
  rw [toNat_swap32, UInt64.toNat_toUInt32, hfield]
  exact (congrArg (byteSwap 4) hhalf).trans (byteSwap_byteSwap hlow)

/-- An ACK calls no interrupt handler. -/
theorem vpciSendAck_irqs (dev : VpciDevice) (c : PktChoice) (seqNum : UInt32) (status : ℤ) :
    (vpciSendAck dev c seqNum status).irqs = dev.irqs := by
  unfold vpciSendAck vpciSendStatus vpciPacketSend
  split_ifs <;> rfl

/-- A registered interrupt handler is called with the high half of the address. -/
theorem vpciHandleIrq_irqs {dev : VpciDevice} (hirq : dev.irqHandler = true) (c : PktChoice)
    (h : pkt.AddressStored a) :
    (vpciHandleIrq dev c pkt).irqs = UInt32.ofNat (a.toNat / 2 ^ 32) :: dev.irqs := by
  have hnum : swap32 pkt.hdr.address.toUInt32 = UInt32.ofNat (a.toNat / 2 ^ 32) := by
    rw [← h.irqNum, UInt32.ofNat_toNat]
  simp only [vpciHandleIrq, vpciSendAck_irqs, if_pos hirq, hnum]

end Decode

/-- The handlers act on the address that is stored in the packet exactly when it is no interrupt number
but zero, or nobody waits for interrupts. -/
theorem actsOnAddress_iff (dev : VpciDevice) (c : PktChoice) (pkt : VpciPacket) (a : UInt64)
    (h : pkt.AddressStored a) :
    ActsOnAddress dev c pkt a ↔ dev.irqHandler = false ∨ a = 0 ∨ 2 ^ 32 ≤ a.toNat := by
  constructor
  · intro hacts
    by_contra hnone
    simp only [not_or, Bool.not_eq_false, not_le] at hnone
    obtain ⟨hirq, hzero, hlt⟩ := hnone
    have hcalled := hacts.irq hlt hirq
    rw [vpciHandleIrq_irqs hirq c h, Nat.div_eq_of_lt hlt] at hcalled
    have hnum := congrArg UInt32.toNat (List.cons.inj hcalled).1
    rw [UInt32.toNat_ofNat_of_lt' hlt] at hnum
    exact hzero (UInt64.toNat_inj.mp hnum.symm)
  · intro hnum
    have haddr := h.swap64_eq
    constructor
    · simp only [vpciHandleConfigRead, vpciConfigRead, haddr]
      split_ifs <;> rfl
    · simp only [vpciHandleConfigWrite, vpciConfigWrite, haddr]
      split_ifs <;> rfl
    · subst haddr
      rfl
    · subst haddr
      rfl
    · intro hlt hirq
      rw [vpciHandleIrq_irqs hirq c h, Nat.div_eq_of_lt hlt]
      rcases hnum with hnone | rfl | hlarge
      · exact absurd hirq (by simp [hnone])
      · rfl
      · omega

/-- A connected device with an interrupt handler. -/
def vpciInterruptible : VpciDevice := { vpciConnected with irqHandler := true }

/-- An interrupt packet with this number in its address field. -/
def irqPacket (num : UInt64) : VpciPacket :=
  ⟨⟨swap32 vpciMagic, swap16 vpciVersion, vpciMsgIrq, 0, 0, 0, 0, swap64 num⟩, []⟩

/-- A packet whose address has a high half. -/
theorem actsOnAddress_iff_high :
    ActsOnAddress vpciInterruptible ⟨true, true, true, true, fun _ => 0⟩ (irqPacket 0x100000007)
        0x100000007 ↔
      vpciInterruptible.irqHandler = false ∨ (0x100000007 : UInt64) = 0 ∨
        2 ^ 32 ≤ (0x100000007 : UInt64).toNat :=
  actsOnAddress_iff _ _ (irqPacket 0x100000007) 0x100000007 (by decide)

/-- Interrupt 7 is announced as interrupt 0. -/
theorem vpciHandleIrq_truncates :
    (vpciHandleIrq vpciInterruptible ⟨true, true, true, true, fun _ => 0⟩ (irqPacket 7)).irqs = [0] ∧
      ¬ ActsOnAddress vpciInterruptible ⟨true, true, true, true, fun _ => 0⟩ (irqPacket 7) 7 := by
  have hcalled :
      (vpciHandleIrq vpciInterruptible ⟨true, true, true, true, fun _ => 0⟩ (irqPacket 7)).irqs = [0] := by
    decide
  refine ⟨hcalled, fun h => ?_⟩
  have hirq := h.irq (by decide) (by decide)
  rw [hcalled] at hirq
  exact absurd hirq (by decide)

end LinuxFunctionTest.VirtualPcie
