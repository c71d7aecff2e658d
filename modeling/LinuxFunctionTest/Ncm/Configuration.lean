import LinuxFunctionTest.Ncm.Aggregation

/-!
# Settings of the link

When the driver binds to a device it reads the parameters of the device and settles the format, the
sizes and the alignment of the blocks. The administrator changes some of them later, while datagrams
are being collected. The sizes are those of the class header and of the driver's own header.
-/

namespace LinuxFunctionTest.Ncm

open LinuxFunctionTest.Alignment

/-- `CDC_NCM_NTB_DEF_SIZE_RX` -/
def ntbDefSizeRx : ℕ := 16384

/-- `CDC_NCM_NTB_DEF_SIZE_TX` -/
def ntbDefSizeTx : ℕ := 16384

/-- `CDC_NCM_NTB_MAX_SIZE_RX` -/
def ntbMaxSizeRx : ℕ := 65536

/-- `CDC_NCM_NTB_MAX_SIZE_TX` -/
def ntbMaxSizeTx : ℕ := 65536

/-- `USB_CDC_NCM_NTB_MIN_IN_SIZE` -/
def ntbMinInSize : ℕ := 2048

/-- `USB_CDC_NCM_NDP_ALIGN_MIN_SIZE` -/
def ndpAlignMinSize : ℕ := 4

/-- `CDC_NCM_MIN_TX_PKT` -/
def minTxPktSize : ℕ := 512

/-- `CDC_NCM_MIN_DATAGRAM_SIZE` -/
def minDatagramSize : ℕ := 1514

/-- `CDC_MBIM_MIN_DATAGRAM_SIZE` -/
def mbimMinDatagramSize : ℕ := 2048

/-- `CDC_NCM_MAX_DATAGRAM_SIZE` -/
def maxDatagramSize : ℕ := 8192

/-- `CDC_NCM_TIMER_INTERVAL_USEC` -/
def timerIntervalUsec : ℕ := 400

/-- `CDC_NCM_TIMER_INTERVAL_MIN` -/
def timerIntervalMin : ℕ := 5

/-- `NSEC_PER_USEC` -/
def nsecPerUsec : ℕ := 1000

/-- `CDC_NCM_TIMER_INTERVAL_MAX` -/
def timerIntervalMax : ℕ := (2 ^ 32 - 1) / nsecPerUsec

/-- `USB_CDC_NCM_NTB32_SUPPORTED` -/
def ntb32Supported : UInt16 := 2

/-- `clamp_t` -/
def clamp (val least most : ℕ) : ℕ := min (max val least) most

/-- The fields of `struct usb_cdc_ncm_ntb_parameters` that the driver acts on. -/
structure NcmParm where
  bmNtbFormatsSupported : UInt16
  dwNtbInMaxSize : UInt32
  wNdpOutDivisor : UInt16
  wNdpOutPayloadRemainder : UInt16
  wNdpOutAlignment : UInt16
  wNtbOutMaxDatagrams : UInt16
  dwNtbOutMaxSize : UInt32

/-- What the descriptors of the control interface say; a size is none without its descriptor. -/
structure NcmDesc where
  isMbim : Bool
  mbimMaxSegmentSize : Option UInt16
  etherMaxSegmentSize : Option UInt16
  /-- `wMTU` of the extended MBIM descriptor -/
  mbimMtu : Option UInt16

/-- The device as the driver keeps it. -/
structure NcmDev where
  desc : NcmDesc
  parm : NcmParm
  tx : TxCtx
  rx : RxCtx
  maxDatagramSize : ℕ
  mtu : ℕ

/-- `cdc_ncm_eth_hlen` -/
def NcmDesc.ethHlen (desc : NcmDesc) : ℕ := if desc.isMbim then 0 else Ncm.ethHlen

/-- `cdc_ncm_min_dgram_size` -/
def minDgramSize (desc : NcmDesc) : ℕ := if desc.isMbim then mbimMinDatagramSize else minDatagramSize

/-- `cdc_ncm_max_dgram_size` -/
def maxDgramSize (desc : NcmDesc) : ℕ :=
  match (if desc.isMbim then desc.mbimMaxSegmentSize else none), desc.etherMaxSegmentSize with
  | some size, _ => size.toNat
  | none, some size => size.toNat
  | none, none => maxDatagramSize

/-- `cdc_ncm_check_rx_max` -/
def checkRxMax (parm : NcmParm) (newRx : ℕ) : ℕ :=
  let most := min ntbMaxSizeRx parm.dwNtbInMaxSize.toNat
  clamp newRx ntbMinInSize (if most < ntbMinInSize then ntbMinInSize else most)

/-- `cdc_ncm_check_tx_max` -/
def checkTxMax (dev : NcmDev) (newTx : ℕ) : ℕ :=
  let least := dev.maxDatagramSize + dev.tx.set.maxNdpSize + dev.tx.set.format.nthSize
  let most :=
    if dev.parm.dwNtbOutMaxSize = 0 then ntbMaxSizeTx
    else clamp dev.parm.dwNtbOutMaxSize.toNat ntbMinOutSize ntbMaxSizeTx
  clamp newTx (min least most) most

/-- The size of outgoing blocks, and with it the size from which they are padded. -/
def TxSettings.setTxMax (set : TxSettings) (val : ℕ) : TxSettings :=
  { set with
    txMax := val
    minTxPkt := clamp (subWord 32 val (3 * set.maxpacket) % 2 ^ 16) minTxPktSize (val % 2 ^ 16) }

/-- The device with other settings. -/
def NcmDev.withSettings (dev : NcmDev) (set : TxSettings) : NcmDev := { dev with tx := { dev.tx with set := set } }

/-- The size `cdc_ncm_update_rxtx_max` sets: one byte more than asked for where a full block would end with a full
packet and the device could not tell its end. -/
def paddedTxMax (dev : NcmDev) (newTx : ℕ) : ℕ :=
  let val := checkTxMax dev newTx
  if val ≠ dev.parm.dwNtbOutMaxSize.toNat ∧ val % dev.tx.set.maxpacket = 0 then val + 1 else val

/-- `cdc_ncm_update_rxtx_max`: the device, and the block that goes out where the one in the making must be flushed.
`reply` says whether the device took its new input size. -/
def updateRxtxMax (dev : NcmDev) (running : Bool) (newRx newTx : ℕ) (reply : Bool) (mem : Memory) :
    Option (NcmDev × Option SkbOut) :=
  let val := checkRxMax dev.parm newRx
  let dev := if val ≠ dev.rx.rxMax ∧ reply then { dev with rx := { dev.rx with rxMax := val } } else dev
  let val := paddedTxMax dev newTx
  if running ∧ val > dev.tx.set.txMax then
    (txFixup dev.tx none mem).map fun sent =>
      ({ dev with tx := { sent.1 with txCurrSkb := none, set := sent.1.set.setTxMax val } }, sent.2)
  else some (dev.withSettings (dev.tx.set.setTxMax val), none)

/-- `cdc_ncm_set_dgram_size` -/
def setDgramSize (dev : NcmDev) (newSize : ℕ) : NcmDev :=
  let size := clamp newSize (minDgramSize dev.desc) maxDatagramSize
  let mtu := min dev.mtu (size - dev.desc.ethHlen)
  let mtu := match dev.desc.mbimMtu with
    | some wMTU => if wMTU ≠ 0 ∧ wMTU.toNat < mtu then wMTU.toNat else mtu
    | none => mtu
  { dev with maxDatagramSize := size, mtu := mtu }

/-- An alignment of the device, or the default for one that is no power of two, too small or too large. -/
def fixedModulus (txMax val : ℕ) : ℕ :=
  if val < ndpAlignMinSize ∨ val ≠ (subWord 32 0 val &&& val) ∨ val ≥ txMax then ndpAlignMinSize else val

/-- `cdc_ncm_fix_modulus` -/
def fixModulus (desc : NcmDesc) (set : TxSettings) : TxSettings :=
  let modulus := fixedModulus set.txMax set.txModulus
  let remainder := if set.txRemainder ≥ modulus then 0 else set.txRemainder
  { set with
    txNdpModulus := fixedModulus set.txMax set.txNdpModulus
    txModulus := modulus
    txRemainder := subWord 32 remainder desc.ethHlen &&& (modulus - 1) }

/-- What the driver is given when it binds: descriptors, flags, and how the device and memory answer. -/
structure Binding where
  desc : NcmDesc
  mtu : ℕ
  maxpacket : ℕ
  /-- `CDC_NCM_FLAG_PREFER_NTB32` -/
  preferNtb32 : Bool
  /-- `CDC_NCM_FLAG_NDP_TO_END` -/
  ndpToEnd : Bool
  /-- `FLAG_SEND_ZLP` -/
  sendZlp : Bool
  /-- The parameters, none where the device does not tell them. -/
  parm : Option NcmParm
  /-- Whether the device takes the block format. -/
  setFormat : Bool
  /-- Whether the device takes the size of its input blocks. -/
  setInputSize : Bool
  /-- Whether there is memory for a delayed table. -/
  delayedMemory : Bool

/-- The settings that `cdc_ncm_init` derives from the parameters. -/
def Binding.settings (b : Binding) (parm : NcmParm) : TxSettings :=
  let isNdp16 := ¬ (parm.bmNtbFormatsSupported &&& ntb32Supported ≠ 0 ∧ b.preferNtb32 ∧ b.setFormat)
  let datagrams := parm.wNtbOutMaxDatagrams.toNat
  let txMaxDatagrams := if datagrams = 0 ∨ datagrams > dptDatagramsMax then dptDatagramsMax else datagrams
  let f := ntbFormat isNdp16
  { isNdp16 := isNdp16
    ndpToEnd := b.ndpToEnd
    delayedAllocated := false
    maxNdpSize := f.ndpSize + (txMaxDatagrams + 1) * f.dpeSize
    txNdpModulus := parm.wNdpOutAlignment.toNat
    txModulus := parm.wNdpOutDivisor.toNat
    txRemainder := parm.wNdpOutPayloadRemainder.toNat
    txMaxDatagrams := txMaxDatagrams
    txMax := parm.dwNtbOutMaxSize.toNat
    minTxPkt := 0
    timerInterval := timerIntervalUsec * nsecPerUsec
    sendZlp := b.sendZlp
    maxpacket := b.maxpacket }

/-- A context with these settings and no datagrams, as it is allocated. -/
def TxCtx.new (set : TxSettings) : TxCtx where
  set := set
  delayedNdp := List.replicate set.maxNdpSize 0
  txRemSkb := none
  txRemSign := 0
  txCurrSkb := none
  txCurrSize := 0
  txCurrFrameNum := 0
  txCurrFramePayload := 0
  txLowMemVal := 0
  txLowMemMaxCnt := 0
  txSeq := 0
  txTimerPending := 0
  timerActive := false
  stop := false
  txReasonNdpFull := 0
  txReasonNtbFull := 0
  txReasonTimeout := 0
  txReasonMaxDatagram := 0
  txOverhead := 0
  txNtbs := 0
  txDropped := 0

/-- `cdc_ncm_init`: the device, none where it does not tell its parameters. -/
def init (b : Binding) : Option NcmDev :=
  b.parm.map fun parm =>
    let set := b.settings parm
    { desc := b.desc
      parm := parm
      tx := .new set
      rx := ⟨set.isNdp16, parm.dwNtbInMaxSize.toNat, 0, 0, 0⟩
      maxDatagramSize := 0
      mtu := b.mtu }

/-- `cdc_ncm_setup` -/
def setup (dev : NcmDev) (reply : Bool) : Option NcmDev :=
  let defRx := min ntbDefSizeRx dev.parm.dwNtbInMaxSize.toNat
  let defTx := min ntbDefSizeTx dev.parm.dwNtbOutMaxSize.toNat
  (updateRxtxMax dev false defRx defTx reply ⟨none, none⟩).map fun updated =>
    setDgramSize (updated.1.withSettings (fixModulus dev.desc updated.1.tx.set)) (maxDgramSize dev.desc)

/-- The settings of `cdc_ncm_bind_common`: the device, none where it fails with `-ENODEV`. -/
def bindCommon (b : Binding) : Option NcmDev :=
  (init b).bind fun dev =>
    (setup dev b.setInputSize).bind fun dev =>
      if dev.tx.set.ndpToEnd then
        if b.delayedMemory then some (dev.withSettings { dev.tx.set with delayedAllocated := true }) else none
      else some dev

/-- `cdc_ncm_change_mtu` -/
def changeMtu (dev : NcmDev) (newMtu : ℕ) : NcmDev :=
  setDgramSize { dev with mtu := newMtu } (newMtu + dev.desc.ethHlen)

section Stores

variable (dev : NcmDev) (val : Except ℤ ℕ) (len : ℤ)

/-- `min_tx_pkt_store`, with the number written or how its parse fails. -/
def minTxPktStore : ℤ × NcmDev :=
  match val with
  | .error _ => (-Errno.einval, dev)
  | .ok val => (len, dev.withSettings { dev.tx.set with minTxPkt := val % 2 ^ 16 })

/-- `rx_max_store`: the result, and the block that goes out on the way. -/
def rxMaxStore (running reply : Bool) (mem : Memory) : Option (ℤ × NcmDev × Option SkbOut) :=
  match val with
  | .error _ => some (-Errno.einval, dev, none)
  | .ok val =>
    if checkRxMax dev.parm (val % 2 ^ 32) ≠ val then some (-Errno.einval, dev, none)
    else (updateRxtxMax dev running val dev.tx.set.txMax reply mem).map fun updated => (len, updated)

/-- `tx_max_store`: the result, and the block that goes out on the way. -/
def txMaxStore (running reply : Bool) (mem : Memory) : Option (ℤ × NcmDev × Option SkbOut) :=
  match val with
  | .error _ => some (-Errno.einval, dev, none)
  | .ok val =>
    if checkTxMax dev (val % 2 ^ 32) ≠ val then some (-Errno.einval, dev, none)
    else (updateRxtxMax dev running dev.rx.rxMax val reply mem).map fun updated => (len, updated)

/-- `tx_timer_usecs_store` -/
def txTimerUsecsStore : ℤ × NcmDev :=
  match val with
  | .error err => (err, dev)
  | .ok val =>
    if val ≠ 0 ∧ (val < timerIntervalMin ∨ val > timerIntervalMax) then (-Errno.einval, dev)
    else
      (len, { dev with tx := { dev.tx with
        set := { dev.tx.set with timerInterval := val * nsecPerUsec }
        txTimerPending := if val = 0 then 0 else dev.tx.txTimerPending } })

/-- `ndp_to_end_store`, with the switch or none where it does not parse; `alloc` says whether there is memory for a
delayed table. -/
def ndpToEndStore (enable : Option Bool) (alloc : Bool) (mem : Memory) : Option (ℤ × NcmDev × Option SkbOut) :=
  match enable with
  | none => some (-Errno.einval, dev, none)
  | some enable =>
    -- the flag is the number 2, so that a set flag never equals `enable`
    if ¬ enable ∧ ¬ dev.tx.set.ndpToEnd then some (len, dev, none)
    else if enable ∧ ¬ dev.tx.set.delayedAllocated ∧ ¬ alloc then some (-Errno.enomem, dev, none)
    else
      let allocated := dev.tx.set.delayedAllocated || enable
      let tx := { dev.tx with set := { dev.tx.set with delayedAllocated := allocated } }
      (txFixup tx none mem).map fun sent =>
        (len, { dev with tx := { sent.1 with set := { sent.1.set with ndpToEnd := enable } } }, sent.2)

end Stores

section Moduli

variable {txMax val : ℕ}

/-- Every alignment in use is a power of two. -/
theorem fixedModulus_pow (txMax : ℕ) (hval : val < 2 ^ 16) : ∃ k ≤ 16, fixedModulus txMax val = 2 ^ k := by
  unfold fixedModulus
  split
  · exact ⟨2, by decide, rfl⟩
  · rename_i hgood
    rw [not_or, not_or, not_not] at hgood
    obtain ⟨hleast, hself, _⟩ := hgood
    unfold ndpAlignMinSize at hleast
    have hneg : subWord 32 0 val = 2 ^ 32 - val := by
      rw [subWord, Nat.add_zero, Nat.mod_eq_of_lt (by omega)]
    rw [hneg] at hself
    obtain ⟨k, hk⟩ := (neg_and_self_iff (by omega) (show val < 2 ^ 32 by omega)).mp hself.symm
    refine ⟨k, ?_, hk⟩
    by_contra hlarge
    have hpow := Nat.pow_le_pow_right (n := 2) (by decide) (Nat.le_of_not_le hlarge)
    omega

/-- An alignment is replaced by a small one only. -/
theorem fixedModulus_le : fixedModulus txMax val ≤ max val ndpAlignMinSize := by
  unfold fixedModulus
  split <;> omega

/-- A power of two that is neither too small nor too large is used as it is. -/
theorem fixedModulus_of_pow {k : ℕ} (hpow : val = 2 ^ k) (hleast : ndpAlignMinSize ≤ val) (hmost : val < txMax)
    (hval : val < 2 ^ 16) : fixedModulus txMax val = val := by
  unfold ndpAlignMinSize at hleast
  have hneg : subWord 32 0 val = 2 ^ 32 - val := by
    rw [subWord, Nat.add_zero, Nat.mod_eq_of_lt (by omega)]
  have hself := (neg_and_self_iff (by omega) (show val < 2 ^ 32 by omega)).mpr ⟨k, hpow⟩
  rw [fixedModulus, hneg, hself, if_neg (by unfold ndpAlignMinSize; omega)]

/-- The remainder in use stands for the one that the device asks of the payload behind the Ethernet header. -/
theorem payload_mod {k remainder hlen offset : ℕ} (hk : k ≤ 32) (hremainder : remainder < 2 ^ k) (hhlen : hlen ≤ 2 ^ 32)
    (hoffset : offset % 2 ^ k = subWord 32 remainder hlen &&& (2 ^ k - 1)) : (offset + hlen) % 2 ^ k = remainder := by
  obtain ⟨q, hq⟩ : 2 ^ k ∣ 2 ^ 32 := pow_dvd_pow 2 hk
  have hmod : subWord 32 remainder hlen &&& (2 ^ k - 1) = (2 ^ 32 + remainder - hlen) % 2 ^ k := by
    rw [Nat.and_two_pow_sub_one_eq_mod, subWord, Nat.mod_mod_of_dvd _ (pow_dvd_pow 2 hk)]
  have hsum : 2 ^ 32 + remainder - hlen + hlen = 2 ^ k * q + remainder := by omega
  rw [Nat.add_mod, hoffset, hmod, ← Nat.add_mod, hsum, Nat.mul_add_mod, Nat.mod_eq_of_lt hremainder]

end Moduli

/-- A block of this size ends visibly: it is as large as the device takes, or its last packet is short. -/
def EndsVisibly (parm : NcmParm) (set : TxSettings) (size : ℕ) : Prop :=
  size = parm.dwNtbOutMaxSize.toNat ∨ size % set.maxpacket ≠ 0

/-- The largest block the driver fills: what the device takes, within a byte of the most it ever asks for. -/
def NcmParm.largestNtb (parm : NcmParm) : ℕ := min parm.dwNtbOutMaxSize.toNat (ntbMaxSizeTx + 1)

/-- The settings a device works with: they suit frames of the usual size, and full blocks end visibly. -/
structure NcmDev.Settled (dev : NcmDev) : Prop where
  sane : dev.tx.set.Sane minDatagramSize dev.parm.largestNtb
  txMax_ge : ntbMinOutSize ≤ dev.tx.set.txMax
  ends : EndsVisibly dev.parm dev.tx.set dev.tx.set.txMax

/-- The parameters of a device that keeps to the class specification and does not ask for wide alignments. -/
structure NcmParm.Regular (parm : NcmParm) : Prop where
  size : ntbMinOutSize ≤ parm.dwNtbOutMaxSize.toNat
  divisor : parm.wNdpOutDivisor.toNat ≤ 32
  alignment : parm.wNdpOutAlignment.toNat ≤ 32

section Sizes

variable (dev : NcmDev) {newTx : ℕ}

/-- The size of blocks stays within what the device takes, and is not set below the smallest by a request that is
not. -/
theorem checkTxMax_mem (h : ntbMinOutSize ≤ newTx) (hsize : ntbMinOutSize ≤ dev.parm.dwNtbOutMaxSize.toNat) :
    ntbMinOutSize ≤ checkTxMax dev newTx ∧
      checkTxMax dev newTx ≤ min dev.parm.dwNtbOutMaxSize.toNat ntbMaxSizeTx := by
  have hmost : ntbMinOutSize ≤ ntbMaxSizeTx := by decide
  have hnonzero : ¬ dev.parm.dwNtbOutMaxSize = 0 := by
    intro hzero
    rw [hzero] at hsize
    exact absurd hsize (by decide)
  unfold checkTxMax clamp
  simp only [if_neg hnonzero]
  omega

/-- The padded size ends visibly, within what the device takes. -/
theorem paddedTxMax_spec (h : ntbMinOutSize ≤ newTx) (hsize : ntbMinOutSize ≤ dev.parm.dwNtbOutMaxSize.toNat)
    (hpacket : 2 ≤ dev.tx.set.maxpacket) :
    ntbMinOutSize ≤ paddedTxMax dev newTx ∧ paddedTxMax dev newTx ≤ dev.parm.largestNtb ∧
      EndsVisibly dev.parm dev.tx.set (paddedTxMax dev newTx) := by
  obtain ⟨hleast, hmost⟩ := checkTxMax_mem dev h hsize
  unfold paddedTxMax NcmParm.largestNtb EndsVisibly
  simp only
  split
  · rename_i hpad
    have hone : (checkTxMax dev newTx + 1) % dev.tx.set.maxpacket = 1 := by
      rw [Nat.add_mod, hpad.2, Nat.zero_add, Nat.mod_mod, Nat.mod_eq_of_lt hpacket]
    exact ⟨by omega, by omega, .inr (by omega)⟩
  · rename_i hkeep
    exact ⟨hleast, by omega, by tauto⟩

end Sizes

section Binding

variable {b : Binding} {parm : NcmParm} {dev : NcmDev}

/-- The settings that binding leaves, with blocks of this size. -/
def Binding.settled (b : Binding) (parm : NcmParm) (size : ℕ) : TxSettings :=
  { fixModulus b.desc ((b.settings parm).setTxMax size) with delayedAllocated := b.ndpToEnd }

/-- Regular parameters give sane settings. -/
theorem Binding.settled_sane {size : ℕ} (h : parm.Regular) (hpacket : 2 ≤ b.maxpacket)
    (hleast : ntbMinOutSize ≤ size) (hmost : size ≤ parm.largestNtb) :
    (b.settled parm size).Sane minDatagramSize parm.largestNtb := by
  obtain ⟨k, hk, hpow⟩ := fixedModulus_pow size parm.wNdpOutDivisor.toNat_lt
  have hmodulus : fixedModulus size parm.wNdpOutDivisor.toNat ≤ 32 :=
    fixedModulus_le.trans (max_le h.divisor (by decide))
  have hndp : fixedModulus size parm.wNdpOutAlignment.toNat ≤ 32 :=
    fixedModulus_le.trans (max_le h.alignment (by decide))
  have hremainder : (b.settled parm size).txRemainder < fixedModulus size parm.wNdpOutDivisor.toNat := by
    refine Nat.lt_of_le_of_lt Nat.and_le_right ?_
    have hpos := Nat.two_pow_pos k
    change fixedModulus size parm.wNdpOutDivisor.toNat - 1 < fixedModulus size parm.wNdpOutDivisor.toNat
    omega
  have hdatagrams : 0 < (b.settled parm size).txMaxDatagrams ∧
      (b.settled parm size).txMaxDatagrams ≤ dptDatagramsMax := by
    change 0 < (b.settings parm).txMaxDatagrams ∧ (b.settings parm).txMaxDatagrams ≤ dptDatagramsMax
    unfold Binding.settings dptDatagramsMax
    simp only
    split <;> omega
  have hmaxNdp : (b.settled parm size).maxNdpSize = (b.settled parm size).format.ndpSize +
      ((b.settled parm size).txMaxDatagrams + 1) * (b.settled parm size).format.dpeSize := rfl
  have hroom : (b.settled parm size).room minDatagramSize ≤ ntbMinOutSize := by
    have hnth := (b.settled parm size).format.nthSize_le
    have hndpSize := (b.settled parm size).format.ndpSize_le
    have hdpe := (b.settled parm size).format.dpe_fits
    have hwidth := (b.settled parm size).format.width_le
    have hentries : ((b.settled parm size).txMaxDatagrams + 1) * (b.settled parm size).format.dpeSize ≤ 41 * 8 :=
      Nat.mul_le_mul (Nat.succ_le_succ hdatagrams.2) (by omega)
    have htxModulus : (b.settled parm size).txModulus ≤ 32 := hmodulus
    have htxNdpModulus : (b.settled parm size).txNdpModulus ≤ 32 := hndp
    have htxRemainder : (b.settled parm size).txRemainder < (b.settled parm size).txModulus := hremainder
    unfold TxSettings.room minDatagramSize ntbMinOutSize
    omega
  exact { ndpModulus := fixedModulus_pow size parm.wNdpOutAlignment.toNat_lt, modulus := ⟨k, hk, hpow⟩
          remainder := hremainder, datagrams_pos := hdatagrams.1, datagrams_le := hdatagrams.2, maxpacket := hpacket
          allocated := id, maxNdpSize := hmaxNdp, room_le := hroom.trans hleast, room_le_min := hroom
          txMax_le := hmost, largest_ge := hleast.trans hmost, largest_le := Nat.min_le_right _ _ }

/-- Setting the sizes of an interface that is down changes the settings only. -/
theorem updateRxtxMax_down (dev : NcmDev) (newRx newTx : ℕ) (reply : Bool) (mem : Memory) :
    ∃ rx, updateRxtxMax dev false newRx newTx reply mem =
      some (({ dev with rx := rx } : NcmDev).withSettings (dev.tx.set.setTxMax (paddedTxMax dev newTx)), none) := by
  unfold updateRxtxMax
  simp only [Bool.false_eq_true, false_and, if_false]
  split
  · exact ⟨_, rfl⟩
  · exact ⟨dev.rx, rfl⟩

/-- What `cdc_ncm_init` makes of a device that tells its parameters. -/
theorem init_spec (h : init b = some dev) :
    b.parm = some dev.parm ∧ dev.desc = b.desc ∧ dev.tx = .new (b.settings dev.parm) := by
  obtain ⟨parm, hparm, rfl⟩ := Option.map_eq_some_iff.mp h
  exact ⟨hparm, rfl, rfl⟩

/-- The size of outgoing blocks that `cdc_ncm_setup` asks for. -/
def setupSize (dev : NcmDev) : ℕ := paddedTxMax dev (min ntbDefSizeTx dev.parm.dwNtbOutMaxSize.toNat)

/-- Setting the size of datagrams leaves the transmit path. -/
theorem setDgramSize_tx (dev : NcmDev) (newSize : ℕ) : (setDgramSize dev newSize).tx = dev.tx := rfl

/-- Setting the size of datagrams leaves the parameters. -/
theorem setDgramSize_parm (dev : NcmDev) (newSize : ℕ) : (setDgramSize dev newSize).parm = dev.parm := rfl

/-- Setup changes the settings of the transmit path and nothing else of it. -/
theorem setup_spec (dev : NcmDev) (reply : Bool) : ∃ dev', setup dev reply = some dev' ∧ dev'.parm = dev.parm ∧
    dev'.tx = { dev.tx with set := fixModulus dev.desc (dev.tx.set.setTxMax (setupSize dev)) } := by
  obtain ⟨rx, hupdate⟩ := updateRxtxMax_down dev (min ntbDefSizeRx dev.parm.dwNtbInMaxSize.toNat)
    (min ntbDefSizeTx dev.parm.dwNtbOutMaxSize.toNat) reply ⟨none, none⟩
  refine ⟨_, by rw [setup, hupdate, Option.map_some], ?_, ?_⟩
  · rw [setDgramSize_parm]
    rfl
  · rw [setDgramSize_tx]
    rfl

/-- Binding that succeeds has read the parameters and made a new context from them. -/
theorem bindCommon_spec (h : bindCommon b = some dev) : ∃ first, b.parm = some dev.parm ∧ first.parm = dev.parm ∧
    first.tx.set.maxpacket = b.maxpacket ∧ dev.tx = .new (b.settled dev.parm (setupSize first)) := by
  obtain ⟨first, hinit, h⟩ := Option.bind_eq_some_iff.mp h
  obtain ⟨second, hsetup, h⟩ := Option.bind_eq_some_iff.mp h
  obtain ⟨hparm, hdesc, htx⟩ := init_spec hinit
  obtain ⟨second', hsetup', hparm', htx'⟩ := setup_spec first b.setInputSize
  obtain rfl := Option.some.inj (hsetup.symm.trans hsetup')
  rw [htx, hdesc] at htx'
  have hend : second.tx.set.ndpToEnd = b.ndpToEnd := by
    rw [htx']
    rfl
  split at h
  · rename_i hlast
    split at h
    · obtain rfl := Option.some.inj h
      refine ⟨first, hparm'.symm ▸ hparm, hparm'.symm, htx ▸ rfl, ?_⟩
      rw [NcmDev.withSettings, htx', hparm', Binding.settled, ← hend, hlast]
      rfl
    · exact absurd h (by simp)
  · rename_i hfront
    obtain rfl := Option.some.inj h
    refine ⟨first, hparm'.symm ▸ hparm, hparm'.symm, htx ▸ rfl, ?_⟩
    rw [htx', hparm', Binding.settled, ← hend, Bool.eq_false_of_not_eq_true hfront]
    rfl

/-- Binding to a device with regular parameters settles it. -/
theorem bindCommon_settled (h : bindCommon b = some dev) (hregular : dev.parm.Regular) (hpacket : 2 ≤ b.maxpacket) :
    dev.Settled := by
  obtain ⟨first, _, hfirst, hmaxpacket, htx⟩ := bindCommon_spec h
  have hsize := hregular.size
  have hdefault : ntbMinOutSize ≤ ntbDefSizeTx := by decide
  obtain ⟨hleast, hmost, hends⟩ := paddedTxMax_spec first
    (show ntbMinOutSize ≤ min ntbDefSizeTx first.parm.dwNtbOutMaxSize.toNat by rw [hfirst]; omega)
    (hfirst ▸ hsize) (hmaxpacket ▸ hpacket)
  have hset : dev.tx.set = b.settled dev.parm (setupSize first) := by
    rw [htx]
    rfl
  refine ⟨?_, ?_, ?_⟩
  · rw [hset]
    exact Binding.settled_sane hregular hpacket hleast (hfirst ▸ hmost)
  · rw [hset]
    exact hleast
  · rw [hset, ← hfirst]
    rw [EndsVisibly, hmaxpacket] at hends
    exact hends

/-- A device whose divisor is a power of two within the size of a block gets the payload of every datagram, behind
the Ethernet header, at the remainder it asked for. -/
theorem bindCommon_payload {k : ℕ} (h : bindCommon b = some dev)
    (hpow : dev.parm.wNdpOutDivisor.toNat = 2 ^ k) (hleast : ndpAlignMinSize ≤ dev.parm.wNdpOutDivisor.toNat)
    (hmost : dev.parm.wNdpOutDivisor.toNat < dev.tx.set.txMax)
    (hremainder : dev.parm.wNdpOutPayloadRemainder.toNat < dev.parm.wNdpOutDivisor.toNat) (offset : ℕ)
    (hoffset : offset % dev.tx.set.txModulus = dev.tx.set.txRemainder) :
    (offset + b.desc.ethHlen) % dev.parm.wNdpOutDivisor.toNat = dev.parm.wNdpOutPayloadRemainder.toNat := by
  obtain ⟨first, _, _, _, htx⟩ := bindCommon_spec h
  have hlt := dev.parm.wNdpOutDivisor.toNat_lt
  have hsize : setupSize first = dev.tx.set.txMax := by
    rw [htx]
    rfl
  have hfixed : fixedModulus (setupSize first) dev.parm.wNdpOutDivisor.toNat = dev.parm.wNdpOutDivisor.toNat :=
    fixedModulus_of_pow hpow hleast (hsize ▸ hmost) hlt
  have hmodulus : dev.tx.set.txModulus = dev.parm.wNdpOutDivisor.toNat := by
    rw [htx]
    exact hfixed
  have hasked : dev.tx.set.txRemainder = subWord 32 dev.parm.wNdpOutPayloadRemainder.toNat b.desc.ethHlen &&&
      (dev.parm.wNdpOutDivisor.toNat - 1) := by
    have hkeep : (if dev.parm.wNdpOutPayloadRemainder.toNat ≥ dev.parm.wNdpOutDivisor.toNat then 0
        else dev.parm.wNdpOutPayloadRemainder.toNat) = dev.parm.wNdpOutPayloadRemainder.toNat :=
      if_neg (Nat.not_le.mpr hremainder)
    rw [htx]
    change subWord 32 (if dev.parm.wNdpOutPayloadRemainder.toNat ≥ fixedModulus (setupSize first)
      dev.parm.wNdpOutDivisor.toNat then 0 else dev.parm.wNdpOutPayloadRemainder.toNat) b.desc.ethHlen &&&
        (fixedModulus (setupSize first) dev.parm.wNdpOutDivisor.toNat - 1) = _
    rw [hfixed, hkeep]
  have hk : k ≤ 32 := by
    by_contra hlarge
    have := Nat.pow_le_pow_right (n := 2) (by decide) (Nat.le_of_not_le hlarge)
    omega
  have hhlen : b.desc.ethHlen ≤ 2 ^ 32 := by
    unfold NcmDesc.ethHlen Ncm.ethHlen
    split <;> decide
  rw [hmodulus, hasked, hpow] at hoffset
  rw [hpow] at hremainder ⊢
  exact payload_mod hk hremainder hhlen hoffset

end Binding

/-- The settings lay out tables and datagrams alike, but for the place of the table. -/
structure TxSettings.SameLayout (set set' : TxSettings) : Prop where
  isNdp16 : set'.isNdp16 = set.isNdp16
  maxNdpSize : set'.maxNdpSize = set.maxNdpSize
  txNdpModulus : set'.txNdpModulus = set.txNdpModulus
  txModulus : set'.txModulus = set.txModulus
  txRemainder : set'.txRemainder = set.txRemainder
  txMaxDatagrams : set'.txMaxDatagrams = set.txMaxDatagrams

section Changing

variable {ctx : TxCtx} {set set' : TxSettings} {longest largest : ℕ} {delayed data : List UInt8}
  {entries : List (ℕ × ℕ)} {frames : List Frame}

/-- The block format is part of the layout. -/
theorem TxSettings.SameLayout.format (h : set.SameLayout set') : set'.format = set.format := by
  rw [TxSettings.format, h.isNdp16, TxSettings.format]

/-- The settings may change within the same layout: the size of blocks, and the place of the table where there is
memory for a delayed one. -/
theorem TxSettings.Sane.relayout (h : set.Sane longest largest) (hlayout : set.SameLayout set')
    (hmaxpacket : set'.maxpacket = set.maxpacket) (halloc : set'.ndpToEnd = true → set'.delayedAllocated = true)
    (hleast : ntbMinOutSize ≤ set'.txMax) (hmost : set'.txMax ≤ largest) : set'.Sane longest largest := by
  have hroom : set'.room longest = set.room longest := by
    rw [TxSettings.room, hlayout.format, hlayout.txModulus, hlayout.txRemainder, hlayout.maxNdpSize,
      hlayout.txNdpModulus, TxSettings.room]
  refine { ndpModulus := hlayout.txNdpModulus ▸ h.ndpModulus, modulus := hlayout.txModulus ▸ h.modulus
           remainder := ?_, datagrams_pos := hlayout.txMaxDatagrams ▸ h.datagrams_pos
           datagrams_le := hlayout.txMaxDatagrams ▸ h.datagrams_le, maxpacket := hmaxpacket ▸ h.maxpacket
           allocated := halloc, maxNdpSize := ?_, room_le := (hroom.trans_le h.room_le_min).trans hleast
           room_le_min := hroom.trans_le h.room_le_min, txMax_le := hmost, largest_ge := h.largest_ge
           largest_le := h.largest_le }
  · rw [hlayout.txRemainder, hlayout.txModulus]
    exact h.remainder
  · rw [hlayout.maxNdpSize, hlayout.format, hlayout.txMaxDatagrams]
    exact h.maxNdpSize

/-- A block stays ready under a new layout that leaves the table where it is. -/
theorem Ready.relayout (h : Ready set delayed data entries frames) (hlayout : set.SameLayout set')
    (hend : frames ≠ [] → set'.ndpToEnd = set.ndpToEnd) : Ready set' delayed data entries frames := by
  have hformat := hlayout.format
  have hsize := hlayout.maxNdpSize
  cases h with
  | fresh size index clear =>
    refine .fresh (hformat ▸ size) (hformat ▸ index) ?_
    rw [DelayedClear, hsize]
    exact clear
  | opened some table =>
    cases table with
    | aside toEnd size table stored =>
      exact .opened some (.aside ((hend some).trans toEnd) (hsize ▸ size) (hformat ▸ table) (hformat ▸ stored))
    | inside inFront clear index low high aligned table stored =>
      refine .opened some (.inside ((hend some).trans inFront) ?_ (hformat ▸ index) (hformat ▸ low) (hsize ▸ high)
        (hlayout.txNdpModulus ▸ aligned) (hformat ▸ table) (hsize ▸ stored))
      rw [DelayedClear, hsize]
      exact clear

/-- Changed settings leave what is held, where the place of the table changes between two blocks only. -/
theorem Held.relayout (h : Held ctx longest largest frames) (hsane : set'.Sane longest largest)
    (hlayout : ctx.set.SameLayout set') (hend : frames ≠ [] → set'.ndpToEnd = ctx.set.ndpToEnd) :
    Held { ctx with set := set' } longest largest frames where
  sane := hsane
  idle := fun hidle => by
    refine ⟨(h.idle hidle).1, ?_⟩
    simp only
    rw [DelayedClear, hlayout.maxNdpSize]
    exact (h.idle hidle).2
  busy := fun skbOut hskbOut => by
    obtain ⟨⟨entries, hcollecting⟩, hnum, hlt⟩ := h.busy skbOut hskbOut
    have hroom : set'.room longest = ctx.set.room longest := by
      rw [TxSettings.room, hlayout.format, hlayout.txModulus, hlayout.txRemainder, hlayout.maxNdpSize,
        hlayout.txNdpModulus, TxSettings.room]
    refine ⟨⟨entries, ?_⟩, hnum, hlayout.txMaxDatagrams ▸ hlt⟩
    exact { sane := hsane
            ready := hcollecting.ready.relayout hlayout hend
            sign := hlayout.format ▸ hcollecting.sign
            aligned := by
              simp only
              rw [hlayout.txModulus, hlayout.txRemainder]
              exact hcollecting.aligned
            sendable := hcollecting.sendable
            room := hroom.trans_le hcollecting.room
            curr_le := hcollecting.curr_le
            capacity := hcollecting.capacity
            fits := fun hne => by
              simp only
              rw [delayedNdpSize, hend hne, hlayout.maxNdpSize, hlayout.txNdpModulus, hlayout.txModulus,
                hlayout.txRemainder]
              exact hcollecting.fits hne
            payload := hcollecting.payload
            nth := hlayout.format ▸ hcollecting.nth }
  alone := h.alone
  signed := hlayout.format ▸ h.signed
  sendable := h.sendable

end Changing

end LinuxFunctionTest.Ncm
