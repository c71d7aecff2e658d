import LinuxFunctionTest.Sketh.TransmitConservation
import Mathlib.Algebra.BigOperators.Group.List.Basic
import Mathlib.Algebra.Order.BigOperators.Group.List
import Mathlib.Algebra.Order.Group.Nat

/-!
# One call of the TX cleaning function

`sketh_clean_tx_ring` on a ring with arbitrary contents. The measure of its loop is the cyclic
distance from its index to `next_to_use`, which every iteration lowers by one. What it frees and
counts is read off the slots of the interval it walks through, each of them visited once.
-/

namespace LinuxFunctionTest.Sketh

/-- Those of the slots that hold an `skb`. -/
def SkethAdapter.txHeld (a : SkethAdapter) (slots : List ℕ) : List ℕ :=
  slots.filter fun i => (a.txSlot i).isSome

instance (r : SkethTxRing) (i : ℕ) : Decidable (r.InFlight i) :=
  inferInstanceAs (Decidable (_ ∧ _))

/-- The sum of the lengths of what the slots hold. -/
def SkethAdapter.txHeldBytes (a : SkethAdapter) (slots : List ℕ) : ℕ :=
  ((a.txHeld slots).map fun i => (a.txRing.txBuffer i).bytes).sum

/-- No buffer is stored in two slots of the ring. -/
def TxDistinct (a : SkethAdapter) : Prop :=
  ∀ i < a.txRing.count, ∀ j < a.txRing.count, ∀ id, a.txSlot i = some id → a.txSlot j = some id → i = j

/-- What one call does to the ring, the buffers and the counters. -/
structure TxCleaned (a b : SkethAdapter) : Prop where
  cleaned : b.txRing.nextToClean = a.txRing.nextToUse
  kept : b.txRing.nextToUse = a.txRing.nextToUse ∧ b.txRing.count = a.txRing.count ∧
    b.txRing.desc = a.txRing.desc
  slots : ∀ i, b.txRing.txBuffer i =
    if a.txRing.InFlight i ∧ (a.txSlot i).isSome then .empty else a.txRing.txBuffer i
  freed : ∀ id, (∃ i, a.txRing.InFlight i ∧ a.txSlot i = some id) →
    b.freed.count id = a.freed.count id + 1
  unfreed : ∀ id, (¬ ∃ i, a.txRing.InFlight i ∧ a.txSlot i = some id) →
    b.freed.count id = a.freed.count id
  packets : b.statsTxPackets = a.statsTxPackets + UInt64.ofNat (a.txHeld a.txRing.flightSpan).length
  bytes : b.statsTxBytes = a.statsTxBytes + UInt64.ofNat (a.txHeldBytes a.txRing.flightSpan)

section Loop

variable {c : TxCleaning}

/-- The loop returns with the fuel for the distance to `next_to_use`, and with no less. -/
theorem skethCleanTxLoop_isSome_iff (fuel : ℕ) {i : ℕ} (h : c.adapter.txRing.Formed)
    (hi : i < c.adapter.txRing.count) :
    (skethCleanTxLoop fuel c i).isSome ↔
      Cyclic.dist c.adapter.txRing.count i c.adapter.txRing.nextToUse ≤ fuel := by
  induction fuel generalizing c i with
  | zero =>
    rw [skethCleanTxLoop, Nat.le_zero, Cyclic.dist_eq_zero_iff hi h.use_lt]
    split_ifs with heq <;> simp [heq]
  | succ fuel ih =>
    by_cases heq : i = c.adapter.txRing.nextToUse
    · rw [skethCleanTxLoop, if_pos heq, heq, Cyclic.dist_self]
      simp
    · obtain ⟨hcount, huse, hclean⟩ := cleanTxSlot_shape c i
      have hformed : (cleanTxSlot c i).adapter.txRing.Formed :=
        ⟨by rw [hcount]; exact h.pow, by rw [huse, hcount]; exact h.use_lt,
          by rw [hclean, hcount]; exact h.clean_lt⟩
      have hnext : Cyclic.next c.adapter.txRing.count i < (cleanTxSlot c i).adapter.txRing.count := by
        rw [hcount]
        exact Cyclic.next_lt h.count_pos i
      have hstep := Cyclic.dist_next_left hi h.use_lt heq
      rw [skethCleanTxLoop, if_neg heq, h.next_eq hi, ih hformed hnext, hcount, huse]
      omega

/-- Cleaning a slot leaves the other slots as they are. -/
theorem cleanTxSlot_other {i j : ℕ} (hj : j ≠ i) :
    (cleanTxSlot c i).adapter.txRing.txBuffer j = c.adapter.txRing.txBuffer j := by
  rw [cleanTxSlot_txRing]
  split_ifs
  · exact Function.update_of_ne hj _ _
  · rfl

/-- What other slots hold is the same after cleaning a slot. -/
theorem cleanTxSlot_txHeld {i : ℕ} {slots : List ℕ} (hi : i ∉ slots) :
    (cleanTxSlot c i).adapter.txHeld slots = c.adapter.txHeld slots ∧
      (cleanTxSlot c i).adapter.txHeldBytes slots = c.adapter.txHeldBytes slots ∧
      slots.filterMap (cleanTxSlot c i).adapter.txSlot = slots.filterMap c.adapter.txSlot := by
  have hother : ∀ j ∈ slots, (cleanTxSlot c i).adapter.txRing.txBuffer j =
      c.adapter.txRing.txBuffer j := fun j hj => cleanTxSlot_other fun heq => hi (heq ▸ hj)
  have hskb : ∀ j ∈ slots, (cleanTxSlot c i).adapter.txSlot j = c.adapter.txSlot j :=
    fun j hj => congrArg SkethTxBuffer.skb (hother j hj)
  have hheld : (cleanTxSlot c i).adapter.txHeld slots = c.adapter.txHeld slots :=
    List.filter_congr fun j hj => by rw [hskb j hj]
  refine ⟨hheld, ?_, List.filterMap_congr hskb⟩
  unfold SkethAdapter.txHeldBytes
  rw [hheld]
  congr 1
  exact List.map_congr_left fun j hj => by rw [hother j (List.mem_of_mem_filter hj)]

/-- The first of several slots, taken apart. -/
theorem txHeld_cons (a : SkethAdapter) (i : ℕ) (rest : List ℕ) :
    (a.txHeld (i :: rest)).length =
        (if (a.txSlot i).isSome then 1 else 0) + (a.txHeld rest).length ∧
      a.txHeldBytes (i :: rest) =
        (if (a.txSlot i).isSome then (a.txRing.txBuffer i).bytes else 0) + a.txHeldBytes rest := by
  unfold SkethAdapter.txHeldBytes SkethAdapter.txHeld
  rw [List.filter_cons]
  split_ifs
  · simp [Nat.add_comm]
  · simp

/-- Cleaning a slot counts the buffer it holds, with its bytes. -/
theorem cleanTxSlot_counts (hpackets : c.totalPackets < 2 ^ 32) (hbytes : c.totalBytes < 2 ^ 32)
    (i : ℕ) :
    (cleanTxSlot c i).totalPackets =
        (c.totalPackets + if (c.adapter.txSlot i).isSome then 1 else 0) % 2 ^ 32 ∧
      (cleanTxSlot c i).totalBytes = (c.totalBytes +
        if (c.adapter.txSlot i).isSome then (c.adapter.txRing.txBuffer i).bytes else 0) % 2 ^ 32 := by
  unfold cleanTxSlot
  cases c.adapter.txSlot i with
  | none => exact ⟨(Nat.mod_eq_of_lt hpackets).symm, (Nat.mod_eq_of_lt hbytes).symm⟩
  | some id => exact ⟨rfl, rfl⟩

/-- Cleaning distinct slots counts the buffers they hold, with their bytes. -/
theorem cleanTxSlots_counts (slots : List ℕ) (hnodup : slots.Nodup)
    (hpackets : c.totalPackets < 2 ^ 32) (hbytes : c.totalBytes < 2 ^ 32) :
    (slots.foldl cleanTxSlot c).totalPackets =
        (c.totalPackets + (c.adapter.txHeld slots).length) % 2 ^ 32 ∧
      (slots.foldl cleanTxSlot c).totalBytes =
        (c.totalBytes + c.adapter.txHeldBytes slots) % 2 ^ 32 := by
  induction slots generalizing c with
  | nil => exact ⟨(Nat.mod_eq_of_lt hpackets).symm, (Nat.mod_eq_of_lt hbytes).symm⟩
  | cons i rest ih =>
    obtain ⟨hi, hrest⟩ := List.nodup_cons.mp hnodup
    obtain ⟨hpackets', hbytes'⟩ := cleanTxSlot_counts hpackets hbytes i
    obtain ⟨hlength, hsum⟩ := txHeld_cons c.adapter i rest
    obtain ⟨hheld, hheldBytes, -⟩ := cleanTxSlot_txHeld (c := c) hi
    obtain ⟨htotal, htotalBytes⟩ := ih (c := cleanTxSlot c i) hrest (by omega) (by omega)
    rw [List.foldl_cons, htotal, htotalBytes, hheld, hheldBytes, hpackets', hbytes', hlength, hsum,
      Nat.mod_add_mod, Nat.mod_add_mod, Nat.add_assoc, Nat.add_assoc]
    exact ⟨rfl, rfl⟩

/-- Cleaning distinct slots frees the buffers they hold, in order. -/
theorem cleanTxSlots_freed (slots : List ℕ) (hnodup : slots.Nodup) :
    (slots.foldl cleanTxSlot c).adapter.freed =
      (slots.filterMap c.adapter.txSlot).reverse ++ c.adapter.freed := by
  induction slots generalizing c with
  | nil => rfl
  | cons i rest ih =>
    obtain ⟨hi, hrest⟩ := List.nodup_cons.mp hnodup
    rw [List.foldl_cons, ih hrest, (cleanTxSlot_txHeld hi).2.2, (cleanTxSlot_ledger c i).2,
      List.filterMap_cons]
    cases c.adapter.txSlot i <;> simp

/-- Cleaning a slot leaves the counters of the device and the descriptors. -/
theorem cleanTxSlot_stats (c : TxCleaning) (i : ℕ) :
    (cleanTxSlot c i).adapter.statsTxPackets = c.adapter.statsTxPackets ∧
      (cleanTxSlot c i).adapter.statsTxBytes = c.adapter.statsTxBytes ∧
      (cleanTxSlot c i).adapter.txRing.desc = c.adapter.txRing.desc := by
  unfold cleanTxSlot
  cases c.adapter.txSlot i with
  | none => exact ⟨rfl, rfl, rfl⟩
  | some id =>
    simp only [skethUnmapAndFreeTxBuffer, SkethAdapter.setTxBuffer]
    cases (c.adapter.txRing.txBuffer i).skb <;> cases (c.adapter.txRing.txBuffer i).mapped <;>
      exact ⟨rfl, rfl, rfl⟩

/-- Cleaning slots leaves the counters of the device and the descriptors. -/
theorem cleanTxSlots_stats (c : TxCleaning) (slots : List ℕ) :
    (slots.foldl cleanTxSlot c).adapter.statsTxPackets = c.adapter.statsTxPackets ∧
      (slots.foldl cleanTxSlot c).adapter.statsTxBytes = c.adapter.statsTxBytes ∧
      (slots.foldl cleanTxSlot c).adapter.txRing.desc = c.adapter.txRing.desc := by
  induction slots generalizing c with
  | nil => exact ⟨rfl, rfl, rfl⟩
  | cons i rest ih =>
    obtain ⟨hpackets, hbytes, hdesc⟩ := cleanTxSlot_stats c i
    obtain ⟨hpackets', hbytes', hdesc'⟩ := ih (cleanTxSlot c i)
    exact ⟨hpackets'.trans hpackets, hbytes'.trans hbytes, hdesc'.trans hdesc⟩

end Loop

section Call

variable {a : SkethAdapter}

/-- The call adds the totals of the walk to the counters of the device. -/
theorem skethCleanTxRing_stats (h : a.txRing.Formed) {b : SkethAdapter}
    (hb : skethCleanTxRing a = some b) :
    b.statsTxPackets = a.statsTxPackets + UInt64.ofNat (cleanedTxSlots a).totalPackets ∧
      b.statsTxBytes = a.statsTxBytes +
        UInt64.ofNat (if (cleanedTxSlots a).totalPackets = 0 then 0 else (cleanedTxSlots a).totalBytes) := by
  have hloop : skethCleanTxLoop a.txRing.count ⟨a, 0, 0⟩ a.txRing.nextToClean =
      some (cleanedTxSlots a, a.txRing.nextToUse) :=
    skethCleanTxLoop_eq a.txRing.count ⟨a, 0, 0⟩ a.txRing.nextToClean h h.clean_lt
      (Cyclic.dist_lt h.count_pos _ _).le
  obtain ⟨hpackets, hbytes, -⟩ := cleanTxSlots_stats ⟨a, 0, 0⟩ a.txRing.flightSpan
  unfold skethCleanTxRing at hb
  rw [hloop] at hb
  obtain rfl := Option.some.inj hb
  change (cleanedTxSlots a).adapter.statsTxPackets = a.statsTxPackets at hpackets
  change (cleanedTxSlots a).adapter.statsTxBytes = a.statsTxBytes at hbytes
  rw [← hpackets, ← hbytes]
  by_cases hnone : (cleanedTxSlots a).totalPackets = 0
  · rw [if_pos hnone, hnone]
    dsimp only
    rw [if_neg (not_not.mpr hnone)]
    exact ⟨(UInt64.add_zero _).symm, (UInt64.add_zero _).symm⟩
  · rw [if_neg hnone]
    dsimp only
    rw [if_pos hnone]
    exact ⟨rfl, rfl⟩

/-- A formed ring has at most 2^15 buffers in flight. -/
theorem txHeld_length_le (h : a.txRing.Formed) : (a.txHeld a.txRing.flightSpan).length ≤ 2 ^ 15 := by
  obtain ⟨k, hk, hcount⟩ := h.pow
  have hpow : 2 ^ k ≤ 2 ^ 15 := Nat.pow_le_pow_right (by omega) hk
  have hspan : a.txRing.flightSpan.length < a.txRing.count := by
    rw [SkethTxRing.flightSpan, Cyclic.span_length]
    exact Cyclic.dist_lt h.count_pos _ _
  have hle := List.length_filter_le (fun i => (a.txSlot i).isSome) a.txRing.flightSpan
  unfold SkethAdapter.txHeld
  omega

/-- The totals of the walk are exact: the slots of a ring are few and their bytes bounded. -/
theorem cleanedTxSlots_totals (h : a.txRing.Formed)
    (hbytes : ∀ i < a.txRing.count, (a.txRing.txBuffer i).bytes ≤ 65535) :
    (cleanedTxSlots a).totalPackets = (a.txHeld a.txRing.flightSpan).length ∧
      (cleanedTxSlots a).totalBytes = a.txHeldBytes a.txRing.flightSpan := by
  obtain ⟨hpackets, hsum⟩ := cleanTxSlots_counts (c := ⟨a, 0, 0⟩) _ h.flightSpan_nodup
    (Nat.two_pow_pos 32) (Nat.two_pow_pos 32)
  have hlength := txHeld_length_le h
  have hle : a.txHeldBytes a.txRing.flightSpan ≤ (a.txHeld a.txRing.flightSpan).length * 65535 := by
    have hall : ∀ n ∈ (a.txHeld a.txRing.flightSpan).map fun i => (a.txRing.txBuffer i).bytes,
        n ≤ 65535 := by
      intro n hn
      obtain ⟨i, hi, rfl⟩ := List.mem_map.mp hn
      exact hbytes i (h.mem_flightSpan.mp (List.mem_of_mem_filter hi)).1
    simpa [SkethAdapter.txHeldBytes] using List.sum_le_card_nsmul _ _ hall
  constructor
  · refine hpackets.trans ?_
    change (0 + (a.txHeld a.txRing.flightSpan).length) % 2 ^ 32 = _
    omega
  · refine hsum.trans ?_
    change (0 + a.txHeldBytes a.txRing.flightSpan) % 2 ^ 32 = _
    omega

/-- The buffers in the slots in flight are distinct. -/
theorem flightSpan_skbs_nodup (h : a.txRing.Formed) (hdistinct : TxDistinct a) :
    (a.txRing.flightSpan.filterMap a.txSlot).Nodup := by
  rw [List.Nodup, List.pairwise_filterMap]
  refine h.flightSpan_nodup.imp_of_mem fun hi hj hne id hid id' hid' heq => hne ?_
  subst heq
  exact hdistinct _ (h.mem_flightSpan.mp hi).1 _ (h.mem_flightSpan.mp hj).1 id hid hid'

/-- Cleaning a formed ring returns after as many iterations as there are slots from `next_to_clean` up
to `next_to_use`. It frees each buffer stored there once, clears the slots of these buffers and no
other, moves `next_to_clean`, and counts what it freed. -/
theorem skethCleanTxRing_exact (h : a.txRing.Formed) (hdistinct : TxDistinct a)
    (hbytes : ∀ i < a.txRing.count, (a.txRing.txBuffer i).bytes ≤ 65535) :
    (∀ fuel, (skethCleanTxLoop fuel ⟨a, 0, 0⟩ a.txRing.nextToClean).isSome ↔
      (a.txRing.nextToUse + a.txRing.count - a.txRing.nextToClean) % a.txRing.count ≤ fuel) ∧
      ∃ b, skethCleanTxRing a = some b ∧ TxCleaned a b := by
  refine ⟨fun fuel => skethCleanTxLoop_isSome_iff fuel h h.clean_lt, ?_⟩
  obtain ⟨b, hb, hring, hlog, -, -⟩ := skethCleanTxRing_eq a h
  obtain ⟨hcount, huse, -⟩ := cleanTxSlots_shape ⟨a, 0, 0⟩ a.txRing.flightSpan
  obtain ⟨hpackets, hbytesStat⟩ := skethCleanTxRing_stats h hb
  obtain ⟨htotal, htotalBytes⟩ := cleanedTxSlots_totals h hbytes
  have hfreed : b.freed = (a.txRing.flightSpan.filterMap a.txSlot).reverse ++ a.freed :=
    (freed_congr hlog).trans (cleanTxSlots_freed _ h.flightSpan_nodup)
  have hmem : ∀ id, id ∈ a.txRing.flightSpan.filterMap a.txSlot ↔
      ∃ i, a.txRing.InFlight i ∧ a.txSlot i = some id := by
    intro id
    rw [List.mem_filterMap]
    simp only [h.mem_flightSpan]
  refine ⟨b, hb, ⟨by rw [hring], ?_, fun i => ?_, fun id hid => ?_, fun id hid => ?_, ?_, ?_⟩⟩
  · rw [hring]
    exact ⟨huse, hcount, (cleanTxSlots_stats ⟨a, 0, 0⟩ _).2.2⟩
  · rw [hring]
    change (cleanedTxSlots a).adapter.txRing.txBuffer i = _
    rw [cleanedTxSlots, cleanTxSlots_txBuffer _ _ h.flightSpan_nodup]
    simp only [h.mem_flightSpan]
  · have hone := List.count_eq_one_of_mem (flightSpan_skbs_nodup h hdistinct) ((hmem id).mpr hid)
    rw [hfreed, List.count_append, List.count_reverse, hone, Nat.add_comm]
  · have hzero := List.count_eq_zero.mpr ((hmem id).not.mpr hid)
    rw [hfreed, List.count_append, List.count_reverse, hzero, Nat.zero_add]
  · rw [hpackets, htotal]
  · rw [hbytesStat, htotal, htotalBytes]
    split_ifs with hnone
    · rw [SkethAdapter.txHeldBytes, List.length_eq_zero_iff.mp hnone]
      rfl
    · rfl

/-- A ring of four slots whose interval wraps around: slot 3 holds a buffer, slot 0 none. -/
def wrappedTxAdapter : SkethAdapter where
  __ := skethProbed
  txRing :=
    { skethSetupTxResources (2 ^ 2) with
      nextToUse := 1
      nextToClean := 3
      txBuffer := Function.update (fun _ => .empty) 3 ⟨some 7, 4096, 60, true⟩ }

/-- Cleaning the wrapped interval frees the one buffer in it. -/
theorem skethCleanTxRing_exact_wrapped :
    (∀ fuel, (skethCleanTxLoop fuel ⟨wrappedTxAdapter, 0, 0⟩ 3).isSome ↔ (1 + 4 - 3) % 4 ≤ fuel) ∧
      ∃ b, skethCleanTxRing wrappedTxAdapter = some b ∧ TxCleaned wrappedTxAdapter b :=
  skethCleanTxRing_exact (a := wrappedTxAdapter) ⟨⟨2, by decide, rfl⟩, by decide, by decide⟩
    (by
      intro i hi j hj id hid hjd
      have hone : ∀ i < 4, wrappedTxAdapter.txSlot i = some id → i = 3 := by
        intro i hi hid
        by_contra hne
        simp [wrappedTxAdapter, SkethAdapter.txSlot, hne, SkethTxBuffer.empty] at hid
      exact (hone i hi hid).trans (hone j hj hjd).symm)
    (by decide)

end Call

end LinuxFunctionTest.Sketh
