import LinuxFunctionTest.Sketh.Transmit

/-!
# The sketh receive path

`sketh_setup_rx_resources`, `sketh_alloc_rx_buffers`, `sketh_receive_skb` and
`sketh_clean_rx_ring`. An allocation iteration has one of three outcomes, chosen by the
environment, and so has the handling of a packet: the XDP verdict and the results of the calls
it leads to.
-/

namespace LinuxFunctionTest.Sketh

/-- The ring `sketh_setup_rx_resources` leaves: zeroed slots and both indices zero. -/
def skethSetupRxResources (count : ℕ) : SkethRxRing where
  count := count
  nextToUse := 0
  nextToClean := 0
  rxBuffer := fun _ => .empty

/-- The outcome of one iteration of the refill loop: `__netdev_alloc_skb` fails, the mapping
fails, or the buffer is mapped. -/
inductive RxAlloc where
  | noSkb
  | mapError
  | mapped (dma : ℕ)
  deriving DecidableEq

/-- The size of an RX buffer under an MTU: `netdev->mtu + ETH_HLEN + VLAN_HLEN`, computed as an `unsigned int`. -/
def rxBufferSize (mtu : UInt32) : ℕ := (mtu + UInt32.ofNat ethHlen + UInt32.ofNat vlanHlen).toNat

/-- The size of the RX buffers allocated now. -/
def SkethAdapter.rxBufferLen (a : SkethAdapter) : ℕ := rxBufferSize a.mtu

/-- The length handed to `sketh_receive_skb`: `netdev->mtu + ETH_HLEN`, computed as an `unsigned int`. -/
def SkethAdapter.rxLength (a : SkethAdapter) : ℕ := (a.mtu + UInt32.ofNat ethHlen).toNat

/-- Store a new buffer in RX slot `i` with the mapping result `dma`. -/
def putRxBuffer (a : SkethAdapter) (i dma : ℕ) : SkethAdapter :=
  (a.nextBuffer.emit (.rxHold i a.fresh (a.rxSlot i))).setRxBuffer i ⟨some a.fresh, dma⟩

/-- The loop of `sketh_alloc_rx_buffers` from slot `i`. -/
def skethAllocRxLoop : ℕ → (ℕ → RxAlloc) → SkethAdapter → ℕ → SkethAdapter × ℕ
  | 0, _, a, i => (a, i)
  | cleanedCount + 1, outcome, a, i =>
    match outcome 0 with
    | .noSkb => ({ a with rxDrops := a.rxDrops + 1 }, i)
    | .mapError =>
      let b := (putRxBuffer a i dmaMappingError).kfreeSkb a.fresh
      let b := b.setRxBuffer i { b.rxRing.rxBuffer i with skb := none }
      ({ b with rxDrops := b.rxDrops + 1 }, i)
    | .mapped dma =>
      let b := (putRxBuffer a i dma).emit (.rxMap i dma a.rxBufferLen)
      skethAllocRxLoop cleanedCount (fun n => outcome (n + 1)) b (nextToUse i b.rxRing.count)

/-- `sketh_alloc_rx_buffers`. -/
def skethAllocRxBuffers (a : SkethAdapter) (cleanedCount : ℕ) (outcome : ℕ → RxAlloc) :
    SkethAdapter :=
  let (a, i) := skethAllocRxLoop cleanedCount outcome a a.rxRing.nextToUse
  { a with rxRing := { a.rxRing with nextToUse := i } }

/-- The verdict of the XDP program; any other value warns and falls through to `XDP_ABORTED`. -/
inductive XdpAct where
  | pass
  | tx
  | redirect
  | drop
  | aborted
  | other
  deriving DecidableEq

/-- What the environment decides about one received packet: the verdict, the mapping result of
`sketh_xdp_tx`, whether `xdp_do_redirect` succeeds and whether `netif_receive_skb` drops. -/
structure RxVerdict where
  act : XdpAct
  txDma : Option ℕ
  redirected : Bool
  netRxDrop : Bool

/-- The tail of `sketh_receive_skb`: hand the buffer to the stack. -/
def netifReceiveSkb (a : SkethAdapter) (id length : ℕ) (v : RxVerdict) : SkethAdapter :=
  let a := a.emit (.netifReceive id length)
  if v.netRxDrop then { a with rxDrops := a.rxDrops + 1 } else a

/-- `sketh_receive_skb`. -/
def skethReceiveSkb (a : SkethAdapter) (id length : ℕ) (v : RxVerdict) : SkethAdapter :=
  if a.xdpProg then
    match v.act with
    | .pass => netifReceiveSkb a id length v
    | .tx => xdpTxVerdict a id length v.txDma
    | .redirect =>
      (if v.redirected then { a with xdpRedirect := a.xdpRedirect + 1 }
        else { a with xdpDrops := a.xdpDrops + 1 }).kfreeSkb id
    | .drop => { a with xdpDrops := a.xdpDrops + 1 }.kfreeSkb id
    | .aborted | .other => { a with xdpDrops := a.xdpDrops + 1 }.kfreeSkb id
  else netifReceiveSkb a id length v

/-- Progress of the receive loop: the adapter, `total_packets`, `total_bytes` and `cleaned`. -/
structure RxCleaning where
  adapter : SkethAdapter
  totalPackets : ℕ
  totalBytes : ℕ
  cleaned : ℕ

/-- `rx_ring->next_to_clean = next_to_use(rx_ring->next_to_clean, rx_ring->count)`. -/
def SkethAdapter.advanceRxClean (a : SkethAdapter) : SkethAdapter :=
  { a with
    rxRing := { a.rxRing with nextToClean := nextToUse a.rxRing.nextToClean a.rxRing.count } }

/-- The body of the receive loop on the slot at `next_to_clean`, which holds buffer `id`. -/
def cleanRxSlot (c : RxCleaning) (id : ℕ) (v : RxVerdict) : RxCleaning :=
  let a := c.adapter
  let i := a.rxRing.nextToClean
  let length := a.rxLength
  let a := a.emit (.rxUnmap i (a.rxRing.rxBuffer i).dma a.rxBufferLen)
  let a := a.setRxBuffer i .empty
  let a := skethReceiveSkb a id length v
  { adapter := a.advanceRxClean
    totalPackets := c.totalPackets + 1
    totalBytes := (c.totalBytes + length) % 2 ^ 32
    cleaned := c.cleaned + 1 }

/-- The loop of `sketh_clean_rx_ring`; the first argument is `budget - total_packets`. -/
def skethCleanRxLoop : ℕ → (ℕ → RxVerdict) → RxCleaning → RxCleaning
  | 0, _, c => c
  | remaining + 1, verdict, c =>
    match c.adapter.rxSlot c.adapter.rxRing.nextToClean with
    | none => c
    | some id =>
      skethCleanRxLoop remaining (fun n => verdict (n + 1)) (cleanRxSlot c id (verdict 0))

/-- `sketh_clean_rx_ring`. The comparison `total_packets < budget` converts the budget to
`unsigned int`. -/
def skethCleanRxRing (a : SkethAdapter) (budget : ℤ) (verdict : ℕ → RxVerdict)
    (outcome : ℕ → RxAlloc) : SkethAdapter × ℕ :=
  let c := skethCleanRxLoop (budget % 2 ^ 32).toNat verdict ⟨a, 0, 0, 0⟩
  let a := c.adapter
  let a := if c.cleaned ≠ 0 then
      let a := skethAllocRxBuffers a c.cleaned outcome
      { a with
        statsRxPackets := a.statsRxPackets + UInt64.ofNat c.totalPackets
        statsRxBytes := a.statsRxBytes + UInt64.ofNat c.totalBytes }
    else a
  (a, c.totalPackets)

/-- The shape of an RX ring the driver can set up, with both indices in range. -/
structure SkethRxRing.Formed (r : SkethRxRing) : Prop where
  pow : ∃ k ≤ 15, r.count = 2 ^ k
  use_lt : r.nextToUse < r.count
  clean_lt : r.nextToClean < r.count

/-- On a ring with a power-of-two count the index macro is the cyclic successor. -/
theorem nextToUse_rx {r : SkethRxRing} (hpow : ∃ k ≤ 15, r.count = 2 ^ k) {i : ℕ}
    (hi : i < r.count) : nextToUse i r.count = Cyclic.next r.count i := by
  obtain ⟨k, hk, hcount⟩ := hpow
  rw [hcount] at hi ⊢
  exact nextToUse_eq hk hi

/-- Writing an RX slot changes the buffer that slot holds. -/
@[simp] theorem rxSlot_setRxBuffer (a : SkethAdapter) (i : ℕ) (b : SkethRxBuffer) :
    (a.setRxBuffer i b).rxSlot = Function.update a.rxSlot i b.skb := by
  funext j
  by_cases hj : j = i <;> simp [SkethAdapter.rxSlot, SkethAdapter.setRxBuffer, hj]

/-- Between the adapters, buffer `id` is disposed of exactly once, to the stack or by freeing it.
The RX ring and its stores are untouched and no buffer is numbered. -/
structure Disposes (id : ℕ) (a b : SkethAdapter) : Prop where
  rxRing : b.rxRing = a.rxRing
  fresh : b.fresh = a.fresh
  rxStored : b.rxStored = a.rxStored
  rxHold : ∀ i x old, SkethEvent.rxHold i x old ∈ b.log → SkethEvent.rxHold i x old ∈ a.log
  taken : b.freed = a.freed ∧ b.received = id :: a.received ∨
    b.freed = id :: a.freed ∧ b.received = a.received

/-- Freeing a buffer disposes of it, whatever counters changed. -/
theorem kfreeSkb_disposes (a b : SkethAdapter) (id : ℕ) (hring : b.rxRing = a.rxRing)
    (hfresh : b.fresh = a.fresh) (hlog : b.log = a.log) : Disposes id a (b.kfreeSkb id) where
  rxRing := hring
  fresh := hfresh
  rxStored := by simp [SkethAdapter.rxStored, SkethAdapter.kfreeSkb, SkethAdapter.emit, hlog]
  rxHold := by simp [SkethAdapter.kfreeSkb, SkethAdapter.emit, hlog]
  taken := Or.inr (by
    simp [SkethAdapter.freed, SkethAdapter.received, SkethAdapter.kfreeSkb, SkethAdapter.emit,
      hlog])

/-- The transmit verdict frees the buffer, whether or not the frame was mapped. -/
theorem xdpTxVerdict_disposes (a : SkethAdapter) (id length : ℕ) (dma : Option ℕ) :
    Disposes id a (xdpTxVerdict a id length dma) := by
  cases dma with
  | none => exact ⟨rfl, rfl, rfl, by simp [xdpTxVerdict, skethXdpTx, SkethAdapter.kfreeSkb,
      SkethAdapter.emit], Or.inr ⟨rfl, rfl⟩⟩
  | some d => exact ⟨rfl, rfl, rfl, by simp [xdpTxVerdict, skethXdpTx,
      SkethAdapter.kfreeSkb, SkethAdapter.emit, SkethAdapter.setTxBuffer,
      SkethAdapter.advanceTxUse], Or.inr ⟨rfl, rfl⟩⟩

/-- The tail of `sketh_receive_skb` hands the buffer to the stack and may count a drop. -/
theorem netifReceiveSkb_eq (a : SkethAdapter) (id length : ℕ) (v : RxVerdict) :
    ∃ drops, netifReceiveSkb a id length v = { a.emit (.netifReceive id length) with rxDrops := drops } := by
  unfold netifReceiveSkb
  split <;> exact ⟨_, rfl⟩

/-- Under every verdict `sketh_receive_skb` hands the buffer to the stack, transmits it and frees it, or only
frees it. -/
theorem skethReceiveSkb_cases (a : SkethAdapter) (id length : ℕ) (v : RxVerdict) :
    (∃ drops, skethReceiveSkb a id length v = { a.emit (.netifReceive id length) with rxDrops := drops }) ∨
    skethReceiveSkb a id length v = xdpTxVerdict a id length v.txDma ∨
    ∃ redirect drops,
      skethReceiveSkb a id length v = { a with xdpRedirect := redirect, xdpDrops := drops }.kfreeSkb id := by
  have hstack := netifReceiveSkb_eq a id length v
  unfold skethReceiveSkb
  split
  · cases v.act with
    | pass => exact .inl hstack
    | tx => exact .inr (.inl rfl)
    | redirect => cases v.redirected <;> exact .inr (.inr ⟨_, _, rfl⟩)
    | drop => exact .inr (.inr ⟨_, _, rfl⟩)
    | aborted => exact .inr (.inr ⟨_, _, rfl⟩)
    | other => exact .inr (.inr ⟨_, _, rfl⟩)
  · exact .inl hstack

/-- `sketh_receive_skb` disposes of its buffer under every verdict. -/
theorem skethReceiveSkb_disposes (a : SkethAdapter) (id length : ℕ) (v : RxVerdict) :
    Disposes id a (skethReceiveSkb a id length v) := by
  obtain ⟨drops, heq⟩ | heq | ⟨redirect, drops, heq⟩ := skethReceiveSkb_cases a id length v
  · rw [heq]
    exact ⟨rfl, rfl, rfl, by simp [SkethAdapter.emit], Or.inl ⟨rfl, rfl⟩⟩
  · rw [heq]
    exact xdpTxVerdict_disposes a id length v.txDma
  · rw [heq]
    exact kfreeSkb_disposes a _ id rfl rfl rfl

/-- What the body of the receive loop keeps, the loop keeps. -/
theorem skethCleanRxLoop_keeps {P : RxCleaning → Prop}
    (hbody : ∀ c id v, P c → P (cleanRxSlot c id v)) (remaining : ℕ) (verdict : ℕ → RxVerdict)
    {c : RxCleaning} (h : P c) : P (skethCleanRxLoop remaining verdict c) := by
  induction remaining generalizing c verdict with
  | zero => exact h
  | succ n ih =>
    unfold skethCleanRxLoop
    cases c.adapter.rxSlot c.adapter.rxRing.nextToClean with
    | none => exact h
    | some id => exact ih _ (hbody c id (verdict 0) h)

end LinuxFunctionTest.Sketh
