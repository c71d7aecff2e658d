import LinuxFunctionTest.Library.Cyclic
import Mathlib.Logic.Function.Basic

/-!
# The sketh adapter

Rings, buffers, descriptors and counters of the sketh Ethernet driver as one queue pair sees them:
one RX ring, the TX ring it transmits on, and the adapter fields their functions touch. Network
buffers are identified by the number of the object, taken from a counter, so that an address the
allocator hands out again is a new object.

The log records, newest first, what the code does to buffers and mappings. It is an observation:
no function of the driver reads it.
-/

namespace LinuxFunctionTest.Sketh

/-- Ethernet header length. -/
def ethHlen : ℕ := 14

/-- VLAN tag length. -/
def vlanHlen : ℕ := 4

/-- `SKETH_TX_FLAGS_TSO`. -/
def skethTxFlagsTso : ℕ := 0x01

/-- `SKETH_TX_FLAGS_CSUM`. -/
def skethTxFlagsCsum : ℕ := 0x02

/-- `SKETH_TX_DESC_CMD_EOP | SKETH_TX_DESC_CMD_RS`. -/
def skethTxDescCmd : ℕ := 0x01 ||| 0x02

/-- The mapping error cookie, all ones. -/
def dmaMappingError : ℕ := 2 ^ 64 - 1

/-- `next_to_use` of the header: both arguments are truncated to 16 bits. -/
def nextToUse (index count : ℕ) : ℕ :=
  ((UInt16.ofNat index + 1) &&& (UInt16.ofNat count - 1)).toNat

/-- A transmitted network buffer: the linear part, the part held in page fragments, and the
offload marks that select the descriptor flags. -/
structure SkBuff where
  id : ℕ
  headlen : ℕ
  dataLen : ℕ
  isGso : Bool
  checksumPartial : Bool
  deriving DecidableEq

/-- `skb->len` counts the linear part and the fragments. -/
def SkBuff.len (skb : SkBuff) : ℕ := skb.headlen + skb.dataLen

/-- A TX slot. -/
structure SkethTxBuffer where
  skb : Option ℕ
  dma : ℕ
  bytes : ℕ
  mapped : Bool
  deriving DecidableEq

/-- A zeroed TX slot. -/
def SkethTxBuffer.empty : SkethTxBuffer := ⟨none, 0, 0, false⟩

/-- The fields of a TX descriptor that the driver writes. -/
structure SkethTxDesc where
  pktAddr : ℕ
  length : ℕ
  cso : ℕ
  cmd : ℕ
  deriving DecidableEq

/-- A TX ring. -/
structure SkethTxRing where
  count : ℕ
  nextToUse : ℕ
  nextToClean : ℕ
  txBuffer : ℕ → SkethTxBuffer
  desc : ℕ → SkethTxDesc

/-- An RX slot. -/
structure SkethRxBuffer where
  skb : Option ℕ
  dma : ℕ
  deriving DecidableEq

/-- A zeroed RX slot. -/
def SkethRxBuffer.empty : SkethRxBuffer := ⟨none, 0⟩

/-- An RX ring. -/
structure SkethRxRing where
  count : ℕ
  nextToUse : ℕ
  nextToClean : ℕ
  rxBuffer : ℕ → SkethRxBuffer

/-- What the code does to buffers and mappings. A `Hold` event carries the slot's old content. -/
inductive SkethEvent where
  | txHold (slot id : ℕ) (old : Option ℕ)
  | txMap (slot dma len id : ℕ)
  | txUnmap (slot dma len : ℕ)
  | txPass (slot : ℕ)
  | txComplete (slot : ℕ)
  | rxHold (slot id : ℕ) (old : Option ℕ)
  | rxMap (slot dma len : ℕ)
  | rxUnmap (slot dma len : ℕ)
  | netifReceive (id len : ℕ)
  | kfree (id : ℕ)
  deriving DecidableEq

/-- The adapter and device fields used by one queue pair. The counters are `u64` of the adapter and `unsigned long` of
the statistics of the network device, on a 64-bit kernel. -/
structure SkethAdapter where
  down : Bool
  mtu : UInt32
  xdpProg : Bool
  txRing : SkethTxRing
  rxRing : SkethRxRing
  txDropped : UInt64
  txRestart : UInt64
  rxDrops : UInt64
  xdpTx : UInt64
  xdpDrops : UInt64
  xdpRedirect : UInt64
  statsTxPackets : UInt64
  statsTxBytes : UInt64
  statsTxDropped : UInt64
  statsRxPackets : UInt64
  statsRxBytes : UInt64
  fresh : ℕ
  log : List SkethEvent

namespace SkethAdapter

/-- Record an event. -/
def emit (a : SkethAdapter) (e : SkethEvent) : SkethAdapter := { a with log := e :: a.log }

/-- Number a new buffer: it is the one called `a.fresh`. -/
def nextBuffer (a : SkethAdapter) : SkethAdapter := { a with fresh := a.fresh + 1 }

/-- `dev_kfree_skb` and `dev_kfree_skb_any`. -/
def kfreeSkb (a : SkethAdapter) (id : ℕ) : SkethAdapter := a.emit (.kfree id)

/-- Write one TX slot. -/
def setTxBuffer (a : SkethAdapter) (i : ℕ) (b : SkethTxBuffer) : SkethAdapter :=
  { a with txRing := { a.txRing with txBuffer := Function.update a.txRing.txBuffer i b } }

/-- Write one RX slot. -/
def setRxBuffer (a : SkethAdapter) (i : ℕ) (b : SkethRxBuffer) : SkethAdapter :=
  { a with rxRing := { a.rxRing with rxBuffer := Function.update a.rxRing.rxBuffer i b } }

/-- `tx_ring->next_to_use = next_to_use(tx_ring->next_to_use, tx_ring->count)`. -/
def advanceTxUse (a : SkethAdapter) : SkethAdapter :=
  { a with txRing := { a.txRing with nextToUse := Sketh.nextToUse a.txRing.nextToUse a.txRing.count } }

/-- The buffer each TX slot holds. -/
def txSlot (a : SkethAdapter) (i : ℕ) : Option ℕ := (a.txRing.txBuffer i).skb

/-- The buffer each RX slot holds. -/
def rxSlot (a : SkethAdapter) (i : ℕ) : Option ℕ := (a.rxRing.rxBuffer i).skb

/-- Buffers stored in a TX slot so far. -/
def txStored (a : SkethAdapter) : List ℕ :=
  a.log.filterMap fun e => match e with | .txHold _ id _ => some id | _ => none

/-- Buffers stored in an RX slot so far. -/
def rxStored (a : SkethAdapter) : List ℕ :=
  a.log.filterMap fun e => match e with | .rxHold _ id _ => some id | _ => none

/-- Buffers freed so far. -/
def freed (a : SkethAdapter) : List ℕ :=
  a.log.filterMap fun e => match e with | .kfree id => some id | _ => none

/-- Buffers handed to `netif_receive_skb` so far. -/
def received (a : SkethAdapter) : List ℕ :=
  a.log.filterMap fun e => match e with | .netifReceive id _ => some id | _ => none

end SkethAdapter

/-- A zeroed adapter with the default MTU, before its rings are set up. -/
def skethProbed : SkethAdapter where
  down := false
  mtu := 1500
  xdpProg := false
  txRing := ⟨0, 0, 0, fun _ => .empty, fun _ => ⟨0, 0, 0, 0⟩⟩
  rxRing := ⟨0, 0, 0, fun _ => .empty⟩
  txDropped := 0
  txRestart := 0
  rxDrops := 0
  xdpTx := 0
  xdpDrops := 0
  xdpRedirect := 0
  statsTxPackets := 0
  statsTxBytes := 0
  statsTxDropped := 0
  statsRxPackets := 0
  statsRxBytes := 0
  fresh := 0
  log := []

/-- Under a power-of-two count the macro is the cyclic successor. -/
theorem nextToUse_eq {k i : ℕ} (hk : k ≤ 15) (hi : i < 2 ^ k) :
    nextToUse i (2 ^ k) = Cyclic.next (2 ^ k) i := by
  have hpow : 2 ^ k ≤ 2 ^ 15 := Nat.pow_le_pow_right (by omega) hk
  have hpos : 0 < 2 ^ k := Nat.two_pow_pos k
  have hone : (1 : UInt16).toNat = 1 := rfl
  have hcount : (UInt16.ofNat (2 ^ k)).toNat = 2 ^ k := by
    rw [UInt16.toNat_ofNat']
    omega
  have hindex : (UInt16.ofNat i + 1).toNat = i + 1 := by
    rw [UInt16.toNat_add, UInt16.toNat_ofNat', hone]
    omega
  have hmask : (UInt16.ofNat (2 ^ k) - 1).toNat = 2 ^ k - 1 := by
    rw [UInt16.toNat_sub_of_le _ _ (by rw [UInt16.le_iff_toNat_le, hone, hcount]; omega), hone, hcount]
  rw [nextToUse, UInt16.toNat_and, hindex, hmask, Cyclic.and_mask_eq_next]

end LinuxFunctionTest.Sketh
