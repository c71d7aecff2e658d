import LinuxFunctionTest.Sketh.TransmitCleaning
import LinuxFunctionTest.Library.ByteStore

/-!
# The bytes of a transmitted packet

`sketh_start_xmit` maps the linear part of a packet and posts one descriptor for it, with the length cut
to 16 bits. The page fragments, which the advertised features allow, are in no descriptor. The cleaning
later counts the length of the linear part, which was not cut.
-/

namespace LinuxFunctionTest.Sketh

/-- A packet with its data: the linear part and the page fragments. -/
structure PacketData where
  id : ℕ
  head : List UInt8
  frags : List (List UInt8)
  isGso : Bool
  checksumPartial : Bool

namespace PacketData

/-- The network buffer of the packet. -/
def skb (p : PacketData) : SkBuff where
  id := p.id
  headlen := p.head.length
  dataLen := p.frags.flatten.length
  isGso := p.isGso
  checksumPartial := p.checksumPartial

/-- The bytes of the packet. -/
def bytes (p : PacketData) : List UInt8 := p.head ++ p.frags.flatten

end PacketData

/-- The descriptors that `sketh_start_xmit` posts: `sketh_xmit_desc` writes the one behind the slot. -/
def postedDescs (a : SkethAdapter) (skb : SkBuff) (dma : Option ℕ) : List SkethTxDesc :=
  if skb.len = 0 ∨ a.down ∨ dma.isNone then []
  else [(skethStartXmit a skb dma).txRing.desc (nextToUse a.txRing.nextToUse a.txRing.count)]

/-- The bytes of the memory regions that descriptors name, as the device reads them. -/
def regionBytes (mem : ℕ → UInt8) (descs : List SkethTxDesc) : List UInt8 :=
  descs.flatMap fun d => ByteStore.read mem d.pktAddr d.length

/-- The sum of the lengths stored in descriptors. -/
def descLengths (descs : List SkethTxDesc) : ℕ := (descs.map SkethTxDesc.length).sum

/-- The packet was posted as a whole: the regions are its bytes, and whenever the cleaning comes to the
slot of the packet, it adds the lengths of the descriptors to `tx_bytes`, besides what it adds for the
other slots. -/
structure WholePacket (mem : ℕ → UInt8) (a : SkethAdapter) (p : PacketData) (dma : Option ℕ) : Prop where
  regions : regionBytes mem (postedDescs a p.skb dma) = p.bytes
  counted : ∀ s t, s.txRing.Formed → s.txRing.InFlight a.txRing.nextToUse →
    s.txRing.txBuffer a.txRing.nextToUse =
      (skethStartXmit a p.skb dma).txRing.txBuffer a.txRing.nextToUse →
    skethCleanTxRing s = some t →
    t.statsTxBytes = s.statsTxBytes +
      UInt64.ofNat ((descLengths (postedDescs a p.skb dma) +
        s.txHeldBytes (s.txRing.flightSpan.erase a.txRing.nextToUse)) % 2 ^ 32)

section Posting

variable {a : SkethAdapter} {p : PacketData} {dma : ℕ}

/-- Posting a packet writes one descriptor, with the address of the linear part and its length cut to 16
bits. -/
theorem skethStartXmit_desc {skb : SkBuff} (h : Posts a skb (some dma)) :
    ∃ cso, (skethStartXmit a skb (some dma)).txRing.desc =
      Function.update a.txRing.desc (nextToUse a.txRing.nextToUse a.txRing.count)
        ⟨dma, skb.headlen % 2 ^ 16, cso, skethTxDescCmd⟩ := by
  obtain ⟨hlen, hdown, -⟩ := h
  unfold skethStartXmit
  rw [if_neg hlen, if_neg (by rw [hdown]; exact Bool.false_ne_true)]
  dsimp only [skethXmitDesc]
  rw [if_neg (not_not.mpr rfl)]
  generalize (if skb.isGso = true then skethTxFlagsTso
    else if skb.checksumPartial = true then skethTxFlagsCsum else 0) = txFlags
  by_cases hcsum : txFlags &&& skethTxFlagsCsum ≠ 0
  · rw [if_pos hcsum]
    refine ⟨0, ?_⟩
    split <;> rfl
  · rw [if_neg hcsum]
    refine ⟨(a.txRing.desc (nextToUse a.txRing.nextToUse a.txRing.count)).cso, ?_⟩
    split <;> rfl

/-- The descriptor posted for a packet. -/
theorem postedDescs_eq {skb : SkBuff} (h : Posts a skb (some dma)) :
    ∃ cso, postedDescs a skb (some dma) = [⟨dma, skb.headlen % 2 ^ 16, cso, skethTxDescCmd⟩] := by
  obtain ⟨cso, hdesc⟩ := skethStartXmit_desc h
  refine ⟨cso, ?_⟩
  have hposts : ¬ (skb.len = 0 ∨ a.down = true ∨ (some dma).isNone = true) := by
    rintro (hlen | hdown | hnone)
    · exact h.1 hlen
    · exact absurd (h.2.1.symm.trans hdown) Bool.false_ne_true
    · exact absurd hnone Bool.false_ne_true
  rw [postedDescs, if_neg hposts, hdesc, Function.update_self]

/-- What the device reads for a packet is the start of its linear part. -/
theorem regionBytes_posted {mem : ℕ → UInt8} (hmapped : ByteStore.read mem dma p.head.length = p.head)
    (h : Posts a p.skb (some dma)) :
    regionBytes mem (postedDescs a p.skb (some dma)) = p.head.take (p.head.length % 2 ^ 16) := by
  obtain ⟨cso, hdescs⟩ := postedDescs_eq h
  have hle : p.head.length % 2 ^ 16 ≤ p.head.length := Nat.mod_le _ _
  rw [hdescs, regionBytes, List.flatMap_cons, List.flatMap_nil, List.append_nil]
  change ByteStore.read mem dma (p.head.length % 2 ^ 16) = _
  rw [← ByteStore.read_take hle, hmapped]

/-- The regions are the bytes of the packet exactly when the linear part is shorter than 64 KiB and there is
nothing in the fragments. -/
theorem regionBytes_eq_bytes_iff {mem : ℕ → UInt8}
    (hmapped : ByteStore.read mem dma p.head.length = p.head) (h : Posts a p.skb (some dma)) :
    regionBytes mem (postedDescs a p.skb (some dma)) = p.bytes ↔
      p.head.length < 2 ^ 16 ∧ p.frags.flatten = [] := by
  rw [regionBytes_posted hmapped h, PacketData.bytes]
  constructor
  · intro heq
    have hlen := congrArg List.length heq
    rw [List.length_take, List.length_append] at hlen
    have hmod : p.head.length % 2 ^ 16 < 2 ^ 16 := Nat.mod_lt _ (Nat.two_pow_pos 16)
    have hle : p.head.length % 2 ^ 16 ≤ p.head.length := Nat.mod_le _ _
    exact ⟨by omega, List.length_eq_zero_iff.mp (by omega)⟩
  · rintro ⟨hshort, hnone⟩
    rw [Nat.mod_eq_of_lt hshort, List.take_length, hnone, List.append_nil]

end Posting

section Counting

variable {s t : SkethAdapter} {i : ℕ}

/-- What the slots hold is the sum over one of them and the others. -/
theorem txHeldBytes_erase (a : SkethAdapter) {slots : List ℕ} {i : ℕ} (hi : i ∈ slots) :
    a.txHeldBytes slots =
      (if (a.txSlot i).isSome then (a.txRing.txBuffer i).bytes else 0) +
        a.txHeldBytes (slots.erase i) := by
  rw [← (txHeld_cons a i (slots.erase i)).2]
  exact (((List.perm_cons_erase hi).filter _).map _).sum_eq

/-- Cleaning a ring adds the bytes of a slot in flight that holds a buffer, besides those of the others. -/
theorem skethCleanTxRing_slotBytes (h : s.txRing.Formed) (hi : s.txRing.InFlight i)
    (hskb : (s.txSlot i).isSome) (ht : skethCleanTxRing s = some t) :
    t.statsTxBytes = s.statsTxBytes +
      UInt64.ofNat (((s.txRing.txBuffer i).bytes + s.txHeldBytes (s.txRing.flightSpan.erase i)) % 2 ^ 32) := by
  obtain ⟨-, hbytes⟩ := skethCleanTxRing_stats h ht
  obtain ⟨hpackets, hsum⟩ := cleanTxSlots_counts (c := ⟨s, 0, 0⟩) _ h.flightSpan_nodup
    (Nat.two_pow_pos 32) (Nat.two_pow_pos 32)
  have hmem : i ∈ s.txHeld s.txRing.flightSpan :=
    List.mem_filter.mpr ⟨h.mem_flightSpan.mpr hi, hskb⟩
  have hpos : 0 < (s.txHeld s.txRing.flightSpan).length := List.length_pos_of_mem hmem
  have hle := txHeld_length_le h
  have hsome : (cleanedTxSlots s).totalPackets ≠ 0 := by
    rw [cleanedTxSlots, hpackets]
    change (0 + (s.txHeld s.txRing.flightSpan).length) % 2 ^ 32 ≠ 0
    omega
  rw [hbytes, if_neg hsome, cleanedTxSlots, hsum]
  change _ + UInt64.ofNat ((0 + s.txHeldBytes s.txRing.flightSpan) % 2 ^ 32) = _
  rw [Nat.zero_add, txHeldBytes_erase s (h.mem_flightSpan.mpr hi), if_pos hskb]

end Counting

/-- A packet that `sketh_start_xmit` accepts is posted as a whole exactly when its linear part is shorter
than 64 KiB and it has no data in page fragments. -/
theorem wholePacket_iff (a : SkethAdapter) (p : PacketData) {dma : ℕ} (mem : ℕ → UInt8)
    (hmapped : ByteStore.read mem dma p.head.length = p.head) (hpost : Posts a p.skb (some dma)) :
    WholePacket mem a p (some dma) ↔ p.head.length < 2 ^ 16 ∧ p.frags.flatten = [] := by
  constructor
  · exact fun h => (regionBytes_eq_bytes_iff hmapped hpost).mp h.regions
  · intro h
    refine ⟨(regionBytes_eq_bytes_iff hmapped hpost).mpr h, fun s t hformed hflight hslot ht => ?_⟩
    obtain ⟨cso, hdescs⟩ := postedDescs_eq hpost
    have hbuffer : s.txRing.txBuffer a.txRing.nextToUse = ⟨some p.id, dma, p.head.length, true⟩ := by
      rw [hslot, (skethStartXmit_posted a p.skb dma hpost).txBuffer, Function.update_self]
      rfl
    have hskb : (s.txSlot a.txRing.nextToUse).isSome := by
      rw [SkethAdapter.txSlot, hbuffer]
      rfl
    have hlengths : descLengths (postedDescs a p.skb (some dma)) = p.head.length := by
      rw [hdescs]
      exact Nat.mod_eq_of_lt h.1
    rw [skethCleanTxRing_slotBytes hformed hflight hskb ht, hbuffer, hlengths]

/-- The driver's ring takes a packet of two bytes in its linear part. -/
theorem wholePacket_iff_linear :
    WholePacket (fun i => if i = 4096 then 8 else 9) (txSetup skethProbed (2 ^ 9))
        ⟨0, [8, 9], [], false, false⟩ (some 4096) ↔
      ([8, 9] : List UInt8).length < 2 ^ 16 ∧ ([] : List (List UInt8)).flatten = [] :=
  wholePacket_iff (txSetup skethProbed (2 ^ 9)) ⟨0, [8, 9], [], false, false⟩ _ (by decide)
    ⟨by decide, rfl, rfl⟩

/-- A packet with one byte in its linear part and one in a page fragment is accepted, and the second byte
is in no region. -/
theorem wholePacket_fragment :
    ByteStore.read (fun i => if i = 4096 then (8 : UInt8) else 9) 4096 1 = [8] ∧
      Posts (txSetup skethProbed (2 ^ 9)) (PacketData.skb ⟨0, [8], [[9]], false, false⟩) (some 4096) ∧
      ¬ WholePacket (fun i => if i = 4096 then 8 else 9) (txSetup skethProbed (2 ^ 9))
        ⟨0, [8], [[9]], false, false⟩ (some 4096) := by
  refine ⟨by decide, ⟨by decide, rfl, rfl⟩, fun h => ?_⟩
  exact absurd h.regions (by decide)

end LinuxFunctionTest.Sketh
