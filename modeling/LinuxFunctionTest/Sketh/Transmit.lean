import LinuxFunctionTest.Sketh.Adapter

/-!
# The sketh transmit path

`sketh_start_xmit`, `sketh_xmit_desc`, `sketh_xdp_tx`, `sketh_unmap_and_free_tx_buffer` and
`sketh_clean_tx_ring`, with the setup of a TX ring. A mapping result is `none` when
`dma_mapping_error` reports a failure. The cleaning loop runs on fuel; a well-formed ring needs
at most `count` iterations, and the loop is then the walk over the slots in flight.
-/

namespace LinuxFunctionTest.Sketh

/-- The ring `sketh_setup_tx_resources` leaves: zeroed slots and both indices zero. -/
def skethSetupTxResources (count : ℕ) : SkethTxRing where
  count := count
  nextToUse := 0
  nextToClean := 0
  txBuffer := fun _ => .empty
  desc := fun _ => ⟨0, 0, 0, 0⟩

/-- `sketh_xmit_desc` writes the descriptor at `next_to_use` and advances the index. -/
def skethXmitDesc (a : SkethAdapter) (dma len txFlags : ℕ) : SkethAdapter × ℤ :=
  let i := a.txRing.nextToUse
  let d := a.txRing.desc i
  let d := { d with pktAddr := dma, length := len % 2 ^ 16, cmd := skethTxDescCmd }
  let d := if txFlags &&& skethTxFlagsCsum ≠ 0 then { d with cso := 0 } else d
  let a := { a with txRing := { a.txRing with desc := Function.update a.txRing.desc i d } }
  (a.advanceTxUse, 0)

/-- `sketh_unmap_and_free_tx_buffer` on slot `i`. -/
def skethUnmapAndFreeTxBuffer (a : SkethAdapter) (i : ℕ) : SkethAdapter :=
  let b := a.txRing.txBuffer i
  let a := if b.mapped then a.emit (.txUnmap i b.dma b.bytes) else a
  let a := match b.skb with
    | some id => a.kfreeSkb id
    | none => a
  a.setTxBuffer i .empty

/-- `sketh_start_xmit` on the ring selected by the queue mapping. -/
def skethStartXmit (a : SkethAdapter) (skb : SkBuff) (dma : Option ℕ) : SkethAdapter :=
  if skb.len = 0 then a.kfreeSkb skb.id
  else if a.down then { a.kfreeSkb skb.id with statsTxDropped := a.statsTxDropped + 1 }
  else
    let txFlags := if skb.isGso then skethTxFlagsTso
      else if skb.checksumPartial then skethTxFlagsCsum else 0
    let len := skb.headlen
    match dma with
    | none => { a with txDropped := a.txDropped + 1 }.kfreeSkb skb.id
    | some dma =>
      let i := a.txRing.nextToUse
      let a := (a.emit (.txHold i skb.id (a.txSlot i))).emit (.txMap i dma len skb.id)
      let a := a.setTxBuffer i ⟨some skb.id, dma, len, true⟩
      let a := a.advanceTxUse
      let (a, ret) := skethXmitDesc a dma len txFlags
      if ret ≠ 0 then skethUnmapAndFreeTxBuffer { a with txDropped := a.txDropped + 1 } i
      else if a.txRing.nextToUse = a.txRing.nextToClean then { a with txRestart := a.txRestart + 1 }
      else a

/-- `sketh_xdp_tx` on the `len` bytes of packet memory `id`: the slot's `skb` is left as it is and
no descriptor is written. -/
def skethXdpTx (a : SkethAdapter) (id len : ℕ) (dma : Option ℕ) : SkethAdapter :=
  match dma with
  | none => a
  | some dma =>
    let i := a.txRing.nextToUse
    let a := a.emit (.txMap i dma len id)
    let a := a.setTxBuffer i { a.txRing.txBuffer i with dma := dma, bytes := len, mapped := true }
    a.advanceTxUse

/-- The `XDP_TX` verdict of `sketh_receive_skb`: transmit, count, free the buffer. -/
def xdpTxVerdict (a : SkethAdapter) (id len : ℕ) (dma : Option ℕ) : SkethAdapter :=
  let a := skethXdpTx a id len dma
  { a with xdpTx := a.xdpTx + 1 }.kfreeSkb id

/-- Progress of the cleaning loop: the adapter, `total_packets` and `total_bytes`. -/
structure TxCleaning where
  adapter : SkethAdapter
  totalPackets : ℕ
  totalBytes : ℕ

/-- The body of the cleaning loop at slot `i`. Only a slot with an `skb` is unmapped and freed. -/
def cleanTxSlot (c : TxCleaning) (i : ℕ) : TxCleaning :=
  match c.adapter.txSlot i with
  | some _ =>
    { adapter := (skethUnmapAndFreeTxBuffer c.adapter i).emit (.txPass i)
      totalPackets := (c.totalPackets + 1) % 2 ^ 32
      totalBytes := (c.totalBytes + (c.adapter.txRing.txBuffer i).bytes) % 2 ^ 32 }
  | none => { c with adapter := c.adapter.emit (.txPass i) }

/-- The loop of `sketh_clean_tx_ring`, from index `i` until it meets `next_to_use`. -/
def skethCleanTxLoop : ℕ → TxCleaning → ℕ → Option (TxCleaning × ℕ)
  | 0, c, i => if i = c.adapter.txRing.nextToUse then some (c, i) else none
  | fuel + 1, c, i =>
    if i = c.adapter.txRing.nextToUse then some (c, i)
    else skethCleanTxLoop fuel (cleanTxSlot c i) (nextToUse i c.adapter.txRing.count)

/-- `sketh_clean_tx_ring`; `none` means that the loop is still running after `count` iterations. -/
def skethCleanTxRing (a : SkethAdapter) : Option SkethAdapter :=
  (skethCleanTxLoop a.txRing.count ⟨a, 0, 0⟩ a.txRing.nextToClean).map fun (c, i) =>
    let a := c.adapter
    let a := if c.totalPackets ≠ 0 then
        { a with
          statsTxPackets := a.statsTxPackets + UInt64.ofNat c.totalPackets
          statsTxBytes := a.statsTxBytes + UInt64.ofNat c.totalBytes }
      else a
    { a with txRing := { a.txRing with nextToClean := i } }

/-- The shape of a TX ring the driver can set up, with both indices in range. -/
structure SkethTxRing.Formed (r : SkethTxRing) : Prop where
  pow : ∃ k ≤ 15, r.count = 2 ^ k
  use_lt : r.nextToUse < r.count
  clean_lt : r.nextToClean < r.count

/-- The number of slots in the cyclic interval from `next_to_clean` up to `next_to_use`. -/
def SkethTxRing.inFlight (r : SkethTxRing) : ℕ := Cyclic.dist r.count r.nextToClean r.nextToUse

/-- Slot `i` lies in the cyclic interval from `next_to_clean` up to `next_to_use`. -/
def SkethTxRing.InFlight (r : SkethTxRing) (i : ℕ) : Prop :=
  i < r.count ∧ Cyclic.dist r.count r.nextToClean i < r.inFlight

/-- The slots the cleaning loop visits, in order. -/
def SkethTxRing.flightSpan (r : SkethTxRing) : List ℕ := Cyclic.span r.count r.nextToClean r.inFlight

/-- A formed ring has slots. -/
theorem SkethTxRing.Formed.count_pos {r : SkethTxRing} (h : r.Formed) : 0 < r.count :=
  Nat.lt_of_le_of_lt (Nat.zero_le _) h.use_lt

/-- On a formed ring the index macro is the cyclic successor. -/
theorem SkethTxRing.Formed.next_eq {r : SkethTxRing} (h : r.Formed) {i : ℕ} (hi : i < r.count) :
    Sketh.nextToUse i r.count = Cyclic.next r.count i := by
  obtain ⟨k, hk, hcount⟩ := h.pow
  rw [hcount] at hi ⊢
  exact nextToUse_eq hk hi

/-- The loop visits exactly the slots in flight. -/
theorem SkethTxRing.Formed.mem_flightSpan {r : SkethTxRing} (h : r.Formed) {i : ℕ} :
    i ∈ r.flightSpan ↔ r.InFlight i := by
  have hle : r.inFlight ≤ r.count := (Cyclic.dist_lt h.count_pos _ _).le
  constructor
  · intro hi
    have hlt : i < r.count := Cyclic.lt_of_mem_span h.count_pos hi
    exact ⟨hlt, (Cyclic.mem_span h.clean_lt hlt hle).mp hi⟩
  · rintro ⟨hlt, hi⟩
    exact (Cyclic.mem_span h.clean_lt hlt hle).mpr hi

/-- The loop visits no slot twice. -/
theorem SkethTxRing.Formed.flightSpan_nodup {r : SkethTxRing} (h : r.Formed) : r.flightSpan.Nodup :=
  Cyclic.span_nodup h.clean_lt (Cyclic.dist_lt h.count_pos _ _).le

/-- A freshly set up ring is formed. -/
theorem skethSetupTxResources_formed {k : ℕ} (hk : k ≤ 15) :
    (skethSetupTxResources (2 ^ k)).Formed where
  pow := ⟨k, hk, rfl⟩
  use_lt := Nat.two_pow_pos k
  clean_lt := Nat.two_pow_pos k

section Frames

variable (a : SkethAdapter)

@[simp] theorem emit_txRing (e : SkethEvent) : (a.emit e).txRing = a.txRing := rfl

@[simp] theorem emit_rxRing (e : SkethEvent) : (a.emit e).rxRing = a.rxRing := rfl

@[simp] theorem emit_log (e : SkethEvent) : (a.emit e).log = e :: a.log := rfl

@[simp] theorem emit_fresh (e : SkethEvent) : (a.emit e).fresh = a.fresh := rfl

@[simp] theorem emit_down (e : SkethEvent) : (a.emit e).down = a.down := rfl

/-- Numbering a new buffer touches no ring. -/
@[simp] theorem nextBuffer_txRing : a.nextBuffer.txRing = a.txRing := rfl

@[simp] theorem nextBuffer_rxRing : a.nextBuffer.rxRing = a.rxRing := rfl

@[simp] theorem nextBuffer_log : a.nextBuffer.log = a.log := rfl

@[simp] theorem nextBuffer_down : a.nextBuffer.down = a.down := rfl

/-- Freeing touches no ring. -/
@[simp] theorem kfreeSkb_txRing (id : ℕ) : (a.kfreeSkb id).txRing = a.txRing := rfl

@[simp] theorem kfreeSkb_rxRing (id : ℕ) : (a.kfreeSkb id).rxRing = a.rxRing := rfl

@[simp] theorem kfreeSkb_log (id : ℕ) : (a.kfreeSkb id).log = .kfree id :: a.log := rfl

@[simp] theorem kfreeSkb_fresh (id : ℕ) : (a.kfreeSkb id).fresh = a.fresh := rfl

@[simp] theorem kfreeSkb_down (id : ℕ) : (a.kfreeSkb id).down = a.down := rfl

end Frames

/-- What unmapping and freeing a slot does: the slot is zeroed, the rest of the ring is kept. -/
theorem skethUnmapAndFreeTxBuffer_txRing (a : SkethAdapter) (i : ℕ) :
    (skethUnmapAndFreeTxBuffer a i).txRing =
      { a.txRing with txBuffer := Function.update a.txRing.txBuffer i .empty } := by
  simp only [skethUnmapAndFreeTxBuffer, SkethAdapter.setTxBuffer]
  cases (a.txRing.txBuffer i).skb <;> cases (a.txRing.txBuffer i).mapped <;> rfl

/-- The events of unmapping and freeing a slot, newest first. -/
def unmapAndFreeEvents (b : SkethTxBuffer) (i : ℕ) : List SkethEvent :=
  (match b.skb with | some id => [.kfree id] | none => []) ++
    if b.mapped then [.txUnmap i b.dma b.bytes] else []

/-- The log after unmapping and freeing a slot. -/
theorem skethUnmapAndFreeTxBuffer_log (a : SkethAdapter) (i : ℕ) :
    (skethUnmapAndFreeTxBuffer a i).log = unmapAndFreeEvents (a.txRing.txBuffer i) i ++ a.log := by
  simp only [skethUnmapAndFreeTxBuffer, SkethAdapter.setTxBuffer, unmapAndFreeEvents]
  cases (a.txRing.txBuffer i).skb <;> cases (a.txRing.txBuffer i).mapped <;> rfl

/-- Unmapping and freeing hands out no new buffer and leaves the device state. -/
theorem skethUnmapAndFreeTxBuffer_frame (a : SkethAdapter) (i : ℕ) :
    (skethUnmapAndFreeTxBuffer a i).fresh = a.fresh ∧
      (skethUnmapAndFreeTxBuffer a i).down = a.down := by
  simp only [skethUnmapAndFreeTxBuffer, SkethAdapter.setTxBuffer]
  cases (a.txRing.txBuffer i).skb <;> cases (a.txRing.txBuffer i).mapped <;> exact ⟨rfl, rfl⟩

/-- Cleaning a slot empties it when it holds an `skb` and writes no other slot and no index. -/
theorem cleanTxSlot_txRing (c : TxCleaning) (i : ℕ) :
    (cleanTxSlot c i).adapter.txRing =
      if (c.adapter.txSlot i).isSome then
        { c.adapter.txRing with txBuffer := Function.update c.adapter.txRing.txBuffer i .empty }
      else c.adapter.txRing := by
  unfold cleanTxSlot
  cases c.adapter.txSlot i with
  | none => rfl
  | some id => exact skethUnmapAndFreeTxBuffer_txRing c.adapter i

/-- Cleaning a slot keeps the ring's shape and indices. -/
theorem cleanTxSlot_shape (c : TxCleaning) (i : ℕ) :
    (cleanTxSlot c i).adapter.txRing.count = c.adapter.txRing.count ∧
      (cleanTxSlot c i).adapter.txRing.nextToUse = c.adapter.txRing.nextToUse ∧
      (cleanTxSlot c i).adapter.txRing.nextToClean = c.adapter.txRing.nextToClean := by
  rw [cleanTxSlot_txRing]
  split <;> exact ⟨rfl, rfl, rfl⟩

/-- Cleaning a slot hands out no new buffer and leaves the device state. -/
theorem cleanTxSlot_frame (c : TxCleaning) (i : ℕ) :
    (cleanTxSlot c i).adapter.fresh = c.adapter.fresh ∧
      (cleanTxSlot c i).adapter.down = c.adapter.down := by
  unfold cleanTxSlot
  cases c.adapter.txSlot i with
  | none => exact ⟨rfl, rfl⟩
  | some id => exact skethUnmapAndFreeTxBuffer_frame c.adapter i

/-- Cleaning a list of slots keeps the ring's shape and indices. -/
theorem cleanTxSlots_shape (c : TxCleaning) (slots : List ℕ) :
    (slots.foldl cleanTxSlot c).adapter.txRing.count = c.adapter.txRing.count ∧
      (slots.foldl cleanTxSlot c).adapter.txRing.nextToUse = c.adapter.txRing.nextToUse ∧
      (slots.foldl cleanTxSlot c).adapter.txRing.nextToClean = c.adapter.txRing.nextToClean := by
  induction slots generalizing c with
  | nil => exact ⟨rfl, rfl, rfl⟩
  | cons i rest ih =>
    obtain ⟨hcount, huse, hclean⟩ := cleanTxSlot_shape c i
    obtain ⟨hcount', huse', hclean'⟩ := ih (cleanTxSlot c i)
    exact ⟨hcount'.trans hcount, huse'.trans huse, hclean'.trans hclean⟩

/-- With fuel for the distance to `next_to_use`, the loop cleans the slots on the way and stops
there. -/
theorem skethCleanTxLoop_eq (fuel : ℕ) (c : TxCleaning) (i : ℕ) (h : c.adapter.txRing.Formed)
    (hi : i < c.adapter.txRing.count)
    (hfuel : Cyclic.dist c.adapter.txRing.count i c.adapter.txRing.nextToUse ≤ fuel) :
    skethCleanTxLoop fuel c i =
      some ((Cyclic.span c.adapter.txRing.count i
          (Cyclic.dist c.adapter.txRing.count i c.adapter.txRing.nextToUse)).foldl cleanTxSlot c,
        c.adapter.txRing.nextToUse) := by
  induction fuel generalizing c i with
  | zero =>
    have hzero := Nat.le_zero.mp hfuel
    have heq : i = c.adapter.txRing.nextToUse := (Cyclic.dist_eq_zero_iff hi h.use_lt).mp hzero
    rw [skethCleanTxLoop, if_pos heq, hzero, Cyclic.span_zero, heq]
    rfl
  | succ fuel ih =>
    by_cases heq : i = c.adapter.txRing.nextToUse
    · rw [skethCleanTxLoop, if_pos heq, heq, Cyclic.dist_self, Cyclic.span_zero]
      rfl
    · obtain ⟨hcount, huse, hclean⟩ := cleanTxSlot_shape c i
      have hformed : (cleanTxSlot c i).adapter.txRing.Formed :=
        ⟨by rw [hcount]; exact h.pow, by rw [huse, hcount]; exact h.use_lt,
          by rw [hclean, hcount]; exact h.clean_lt⟩
      have hstep := Cyclic.dist_next_left hi h.use_lt heq
      have hrest := ih (cleanTxSlot c i) (Cyclic.next c.adapter.txRing.count i) hformed
        (by rw [hcount]; exact Cyclic.next_lt h.count_pos i) (by rw [hcount, huse]; omega)
      rw [skethCleanTxLoop, if_neg heq, h.next_eq hi, hrest, hcount, huse, ← hstep,
        Cyclic.span_succ hi, List.foldl_cons]

/-- The adapter after the loop has cleaned the slots in flight. -/
def cleanedTxSlots (a : SkethAdapter) : TxCleaning := a.txRing.flightSpan.foldl cleanTxSlot ⟨a, 0, 0⟩

/-- On a formed ring cleaning terminates: it cleans the slots in flight, counts what it freed and
moves `next_to_clean` to `next_to_use`. -/
theorem skethCleanTxRing_eq (a : SkethAdapter) (h : a.txRing.Formed) :
    ∃ b, skethCleanTxRing a = some b ∧
      b.txRing = { (cleanedTxSlots a).adapter.txRing with nextToClean := a.txRing.nextToUse } ∧
      b.log = (cleanedTxSlots a).adapter.log ∧
      b.fresh = (cleanedTxSlots a).adapter.fresh ∧ b.down = (cleanedTxSlots a).adapter.down := by
  have hloop := skethCleanTxLoop_eq a.txRing.count ⟨a, 0, 0⟩ a.txRing.nextToClean h h.clean_lt
    (Cyclic.dist_lt h.count_pos _ _).le
  unfold skethCleanTxRing
  rw [hloop]
  refine ⟨_, rfl, ?_⟩
  dsimp only
  split <;> exact ⟨rfl, rfl, rfl, rfl⟩

/-- Cleaning a list of distinct slots empties exactly those of them that hold an `skb`. -/
theorem cleanTxSlots_txBuffer (c : TxCleaning) (slots : List ℕ) (hnodup : slots.Nodup) (j : ℕ) :
    (slots.foldl cleanTxSlot c).adapter.txRing.txBuffer j =
      if j ∈ slots ∧ (c.adapter.txSlot j).isSome then .empty else c.adapter.txRing.txBuffer j := by
  induction slots generalizing c with
  | nil => simp
  | cons i rest ih =>
    obtain ⟨hi, hrest⟩ := List.nodup_cons.mp hnodup
    have hslot : ∀ k, k ≠ i → (cleanTxSlot c i).adapter.txRing.txBuffer k =
        c.adapter.txRing.txBuffer k := by
      intro k hk
      rw [cleanTxSlot_txRing]
      split
      · exact Function.update_of_ne hk _ _
      · rfl
    rw [List.foldl_cons, ih (cleanTxSlot c i) hrest]
    by_cases hj : j = i
    · subst hj
      rw [if_neg (fun hmem => hi hmem.1), cleanTxSlot_txRing]
      cases hskb : c.adapter.txSlot j with
      | none => simp
      | some id => simp
    · have hkeep : (cleanTxSlot c i).adapter.txSlot j = c.adapter.txSlot j :=
        congrArg SkethTxBuffer.skb (hslot j hj)
      rw [hslot j hj, hkeep]
      simp [hj]

/-- Cleaning hands out no new buffer and leaves the device state. -/
theorem cleanTxSlots_frame (c : TxCleaning) (slots : List ℕ) :
    (slots.foldl cleanTxSlot c).adapter.fresh = c.adapter.fresh ∧
      (slots.foldl cleanTxSlot c).adapter.down = c.adapter.down := by
  induction slots generalizing c with
  | nil => exact ⟨rfl, rfl⟩
  | cons i rest ih =>
    obtain ⟨hfresh, hdown⟩ := cleanTxSlot_frame c i
    obtain ⟨hfresh', hdown'⟩ := ih (cleanTxSlot c i)
    exact ⟨hfresh'.trans hfresh, hdown'.trans hdown⟩

end LinuxFunctionTest.Sketh
