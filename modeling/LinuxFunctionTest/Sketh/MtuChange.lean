import LinuxFunctionTest.Sketh.Receive
import LinuxFunctionTest.Library.Errno
import LinuxFunctionTest.Library.Machine

/-!
# MTU changes with receive buffers in flight

`sketh_change_mtu` between calls of `sketh_alloc_rx_buffers` and `sketh_clean_rx_ring`. The MTU is read
when a buffer is allocated and mapped, and again when it is unmapped and delivered. No slot records the
length it was mapped with, so the two agree exactly when every poll takes buffers of the MTU in force. The
sizes are computed as `unsigned int`, so they wrap around under an MTU near 2^32 from the module parameter.
-/

namespace LinuxFunctionTest.Sketh

/-- `SKETH_MIN_MTU`. -/
def skethMinMtu : ℤ := 68

/-- `SKETH_MAX_MTU`. -/
def skethMaxMtu : ℤ := 9000

/-- `ETH_FCS_LEN`. -/
def ethFcsLen : ℕ := 4

/-- `sketh_change_mtu`; `max_frame` is an `int`. -/
def skethChangeMtu (a : SkethAdapter) (newMtu : ℤ) : SkethAdapter × ℤ :=
  let maxFrame := Int.bmod (newMtu + ethHlen + ethFcsLen) (2 ^ 32)
  if newMtu < skethMinMtu ∨ maxFrame > skethMaxMtu then (a, -Errno.einval)
  else ({ a with mtu := UInt32.ofInt newMtu }, 0)

/-- What is done with the size of a receive buffer: allocated, mapped and unmapped in a slot, handed to
`sketh_receive_skb`. -/
inductive RxSizeEvent where
  | alloc (id size : ℕ)
  | map (slot len : ℕ)
  | unmap (slot len : ℕ)
  | receive (id len : ℕ)
  deriving DecidableEq

/-- The events of `skethAllocRxLoop`, in order. -/
def rxAllocSizes : ℕ → (ℕ → RxAlloc) → SkethAdapter → ℕ → List RxSizeEvent
  | 0, _, _, _ => []
  | cleanedCount + 1, outcome, a, i =>
    match outcome 0 with
    | .noSkb => []
    | .mapError => [.alloc a.fresh a.rxBufferLen]
    | .mapped dma =>
      let b := (putRxBuffer a i dma).emit (.rxMap i dma a.rxBufferLen)
      .alloc a.fresh a.rxBufferLen :: .map i a.rxBufferLen ::
        rxAllocSizes cleanedCount (fun n => outcome (n + 1)) b (nextToUse i b.rxRing.count)

/-- The events of `skethCleanRxLoop`, in order. -/
def rxCleanSizes : ℕ → (ℕ → RxVerdict) → RxCleaning → List RxSizeEvent
  | 0, _, _ => []
  | remaining + 1, verdict, c =>
    let a := c.adapter
    let i := a.rxRing.nextToClean
    match a.rxSlot i with
    | none => []
    | some id =>
      .unmap i a.rxBufferLen :: .receive id a.rxLength ::
        rxCleanSizes remaining (fun n => verdict (n + 1)) (cleanRxSlot c id (verdict 0))

/-- The length slot `i` is mapped with. -/
def mappedLen : List RxSizeEvent → ℕ → Option ℕ
  | [], _ => none
  | .map slot len :: log, i => if slot = i then some len else mappedLen log i
  | .unmap slot _ :: log, i => if slot = i then none else mappedLen log i
  | .alloc _ _ :: log, i => mappedLen log i
  | .receive _ _ :: log, i => mappedLen log i

/-- The size buffer `id` was allocated with. -/
def allocatedSize : List RxSizeEvent → ℕ → Option ℕ
  | [], _ => none
  | .alloc x size :: log, id => if x = id then some size else allocatedSize log id
  | .map _ _ :: log, id => allocatedSize log id
  | .unmap _ _ :: log, id => allocatedSize log id
  | .receive _ _ :: log, id => allocatedSize log id

/-- Every buffer was unmapped with the length it was mapped with, and no length handed to
`sketh_receive_skb` exceeds the size of its buffer. -/
def SizesKept : List RxSizeEvent → Prop
  | [] => True
  | .unmap slot len :: log => mappedLen log slot = some len ∧ SizesKept log
  | .receive id len :: log => (∃ size, allocatedSize log id = some size ∧ len ≤ size) ∧ SizesKept log
  | .alloc _ _ :: log => SizesKept log
  | .map _ _ :: log => SizesKept log

/-- What is known of the sizes: the events, newest first, and the MTU each slot was filled under. -/
structure RxSizes where
  log : List RxSizeEvent
  mtuAt : ℕ → UInt32

/-- An event under the MTU in force. -/
def RxSizes.observe (mtu : UInt32) (z : RxSizes) (e : RxSizeEvent) : RxSizes where
  log := e :: z.log
  mtuAt := match e with
    | .map slot _ => Function.update z.mtuAt slot mtu
    | _ => z.mtuAt

/-- The mappings among the observed events. -/
def RxSizes.mappings (z : RxSizes) : List RxSizeEvent :=
  z.log.filter fun e => match e with | .map _ _ => true | .unmap _ _ => true | _ => false

/-- The mappings of receive buffers in the log of the adapter. -/
def loggedMappings (log : List SkethEvent) : List RxSizeEvent :=
  log.filterMap fun e => match e with
    | .rxMap slot _ len => some (.map slot len)
    | .rxUnmap slot _ len => some (.unmap slot len)
    | _ => none

/-- A call on the ring. -/
inductive MtuCall where
  | changeMtu (newMtu : ℤ)
  | allocRxBuffers (cleanedCount : ℕ) (outcome : ℕ → RxAlloc)
  | cleanRxRing (budget : ℤ) (verdict : ℕ → RxVerdict) (outcome : ℕ → RxAlloc)

/-- The events of a call. -/
def MtuCall.sizes (a : SkethAdapter) : MtuCall → List RxSizeEvent
  | .changeMtu _ => []
  | .allocRxBuffers cleanedCount outcome => rxAllocSizes cleanedCount outcome a a.rxRing.nextToUse
  | .cleanRxRing budget verdict outcome =>
    let remaining := (budget % 2 ^ 32).toNat
    let c := skethCleanRxLoop remaining verdict ⟨a, 0, 0, 0⟩
    rxCleanSizes remaining verdict ⟨a, 0, 0, 0⟩ ++
      rxAllocSizes c.cleaned outcome c.adapter c.adapter.rxRing.nextToUse

/-- What a call leaves; `none` is a new MTU that is not accepted. -/
def MtuCall.run (a : SkethAdapter) : MtuCall → Option SkethAdapter
  | .changeMtu newMtu =>
    if skethMinMtu ≤ newMtu ∧ newMtu ≤ skethMaxMtu - (ethHlen + ethFcsLen) then
      some (skethChangeMtu a newMtu).1
    else none
  | .allocRxBuffers cleanedCount outcome => some (skethAllocRxBuffers a cleanedCount outcome)
  | .cleanRxRing budget verdict outcome => some (skethCleanRxRing a budget verdict outcome).1

/-- A ring with what is known of its sizes. -/
structure SizedRing where
  adapter : SkethAdapter
  sizes : RxSizes

/-- The runs of the calls. -/
def mtuMachine : Machine SizedRing MtuCall where
  step s call := (call.run s.adapter).map fun a =>
    { adapter := a, sizes := (call.sizes s.adapter).foldl (RxSizes.observe s.adapter.mtu) s.sizes }

/-- A ring that was just set up. -/
def mtuSetup (a : SkethAdapter) (count : ℕ) : SizedRing where
  adapter := { a with rxRing := skethSetupRxResources count, fresh := 0, log := [] }
  sizes := ⟨[], fun _ => a.mtu⟩

/-- The receive loop with the given budget comes to the `n`-th slot from `next_to_clean` and finds a
buffer there. -/
def SkethAdapter.RxReaches (a : SkethAdapter) (budget n : ℕ) : Prop :=
  n < budget ∧ n < a.rxRing.count ∧
    ∀ m ≤ n, (a.rxSlot (Cyclic.shift a.rxRing.count a.rxRing.nextToClean m)).isSome

/-- Under this MTU the size of a buffer wraps around, and the length of a frame does not. -/
def OnlySizeWraps (mtu : UInt32) : Prop := 2 ^ 32 - (ethHlen + vlanHlen) ≤ mtu.toNat ∧ mtu.toNat < 2 ^ 32 - ethHlen

/-- The buffer in a slot was mapped under the MTU in force, which is not so large that only its size wraps around. -/
def OwnMtu (z : RxSizes) (mtu : UInt32) (slot : ℕ) : Prop := z.mtuAt slot = mtu ∧ ¬ OnlySizeWraps mtu

/-- A poll takes only buffers that were mapped under the MTU in force, which is not so large that only the size of a
buffer wraps around. -/
def PollsOwnMtu (s : SizedRing) : MtuCall → Prop
  | .cleanRxRing budget _ _ => ∀ n, s.adapter.RxReaches (budget % 2 ^ 32).toNat n →
      OwnMtu s.sizes s.adapter.mtu (Cyclic.shift s.adapter.rxRing.count s.adapter.rxRing.nextToClean n)
  | .changeMtu _ => True
  | .allocRxBuffers _ _ => True

/-- An accepted MTU is set. -/
theorem skethChangeMtu_accepted (a : SkethAdapter) {newMtu : ℤ} (hmin : skethMinMtu ≤ newMtu)
    (hmax : newMtu ≤ skethMaxMtu - (ethHlen + ethFcsLen)) :
    skethChangeMtu a newMtu = ({ a with mtu := UInt32.ofInt newMtu }, 0) := by
  unfold skethMinMtu at hmin
  unfold skethMaxMtu ethHlen ethFcsLen at hmax
  have hframe : Int.bmod (newMtu + ethHlen + ethFcsLen) (2 ^ 32) = newMtu + ethHlen + ethFcsLen := by
    unfold ethHlen ethFcsLen
    exact Int.bmod_eq_of_le (by omega) (by omega)
  unfold skethChangeMtu
  simp only [hframe]
  refine if_neg ?_
  unfold skethMinMtu skethMaxMtu ethHlen ethFcsLen
  omega

/-- What is known of the buffers in the slots: how they were mapped and allocated. -/
structure SizesHeld (a : SkethAdapter) (z : RxSizes) : Prop where
  pow : ∃ k ≤ 15, a.rxRing.count = 2 ^ k
  clean_lt : a.rxRing.nextToClean < a.rxRing.count
  fresh : ∀ i id, a.rxSlot i = some id → id < a.fresh
  mapped : ∀ i id, a.rxSlot i = some id → mappedLen z.log i = some (rxBufferSize (z.mtuAt i))
  allocated : ∀ i id, a.rxSlot i = some id →
    allocatedSize z.log id = some (rxBufferSize (z.mtuAt i))

section Refill

variable {a : SkethAdapter} {z : RxSizes}

/-- A buffer that is allocated and mapped is known with its size. -/
theorem putRxBuffer_held (h : SizesHeld a z) (i dma : ℕ) :
    SizesHeld ((putRxBuffer a i dma).emit (.rxMap i dma a.rxBufferLen))
      ((z.observe a.mtu (.alloc a.fresh a.rxBufferLen)).observe a.mtu (.map i a.rxBufferLen)) := by
  have hslot : ((putRxBuffer a i dma).emit (.rxMap i dma a.rxBufferLen)).rxSlot =
      Function.update a.rxSlot i (some a.fresh) := rxSlot_setRxBuffer _ _ _
  refine ⟨h.pow, h.clean_lt, fun j id hj => ?_, fun j id hj => ?_, fun j id hj => ?_⟩ <;>
    rw [hslot] at hj
  · change id < a.fresh + 1
    by_cases hji : j = i
    · rw [hji, Function.update_self] at hj
      exact Option.some.inj hj ▸ Nat.lt_succ_self _
    · rw [Function.update_of_ne hji] at hj
      exact Nat.lt_succ_of_lt (h.fresh j id hj)
  · by_cases hji : j = i
    · subst hji
      simp [RxSizes.observe, mappedLen, SkethAdapter.rxBufferLen]
    · rw [Function.update_of_ne hji] at hj
      simpa [RxSizes.observe, mappedLen, hji, Ne.symm hji] using h.mapped j id hj
  · by_cases hji : j = i
    · subst hji
      rw [Function.update_self] at hj
      simp [RxSizes.observe, allocatedSize, SkethAdapter.rxBufferLen, Option.some.inj hj]
    · rw [Function.update_of_ne hji] at hj
      have hne : a.fresh ≠ id := (h.fresh j id hj).ne'
      simpa [RxSizes.observe, allocatedSize, hji, hne] using h.allocated j id hj

/-- A buffer that was allocated but not mapped leaves nothing in the slot. -/
theorem mapError_held (h : SizesHeld a z) {b : SkethAdapter} {i size : ℕ}
    (hring : b.rxRing.count = a.rxRing.count ∧ b.rxRing.nextToClean = a.rxRing.nextToClean)
    (hfresh : b.fresh = a.fresh + 1) (hslot : b.rxSlot = Function.update a.rxSlot i none) :
    SizesHeld b (z.observe a.mtu (.alloc a.fresh size)) := by
  have hold : ∀ j id, b.rxSlot j = some id → a.rxSlot j = some id := by
    intro j id hj
    rw [hslot] at hj
    by_cases hji : j = i
    · rw [hji, Function.update_self] at hj
      exact absurd hj (by simp)
    · rwa [Function.update_of_ne hji] at hj
  refine ⟨by rw [hring.1]; exact h.pow, by rw [hring.1, hring.2]; exact h.clean_lt,
    fun j id hj => ?_, fun j id hj => h.mapped j id (hold j id hj), fun j id hj => ?_⟩
  · rw [hfresh]
    exact Nat.lt_succ_of_lt (h.fresh j id (hold j id hj))
  · have hne : a.fresh ≠ id := (h.fresh j id (hold j id hj)).ne'
    simpa [RxSizes.observe, allocatedSize, hne] using h.allocated j id (hold j id hj)

/-- The refill loop knows the sizes of what it maps, and neither unmaps nor delivers. -/
theorem skethAllocRxLoop_held (cleanedCount : ℕ) (outcome : ℕ → RxAlloc) (i : ℕ)
    (h : SizesHeld a z) :
    SizesHeld (skethAllocRxLoop cleanedCount outcome a i).1
        ((rxAllocSizes cleanedCount outcome a i).foldl (RxSizes.observe a.mtu) z) ∧
      (skethAllocRxLoop cleanedCount outcome a i).1.mtu = a.mtu ∧
      (SizesKept ((rxAllocSizes cleanedCount outcome a i).foldl (RxSizes.observe a.mtu) z).log ↔
        SizesKept z.log) := by
  induction cleanedCount generalizing a i z outcome with
  | zero => exact ⟨h, rfl, Iff.rfl⟩
  | succ n ih =>
    unfold skethAllocRxLoop rxAllocSizes
    cases outcome 0 with
    | noSkb => exact ⟨⟨h.pow, h.clean_lt, h.fresh, h.mapped, h.allocated⟩, rfl, Iff.rfl⟩
    | mapError =>
      refine ⟨mapError_held (i := i) h ⟨rfl, rfl⟩ rfl ?_, rfl, Iff.rfl⟩
      change SkethAdapter.rxSlot (SkethAdapter.setRxBuffer _ i _) = _
      rw [rxSlot_setRxBuffer]
      change Function.update (putRxBuffer a i dmaMappingError).rxSlot i none = _
      rw [putRxBuffer, rxSlot_setRxBuffer, Function.update_idem]
      rfl
    | mapped dma => exact ih (fun n => outcome (n + 1)) _ (putRxBuffer_held h i dma)

/-- `sketh_alloc_rx_buffers` knows the sizes of what it maps, and neither unmaps nor delivers. -/
theorem skethAllocRxBuffers_held (cleanedCount : ℕ) (outcome : ℕ → RxAlloc) (h : SizesHeld a z) :
    SizesHeld (skethAllocRxBuffers a cleanedCount outcome)
        ((rxAllocSizes cleanedCount outcome a a.rxRing.nextToUse).foldl (RxSizes.observe a.mtu) z) ∧
      (SizesKept ((rxAllocSizes cleanedCount outcome a a.rxRing.nextToUse).foldl
        (RxSizes.observe a.mtu) z).log ↔ SizesKept z.log) := by
  obtain ⟨hheld, -, hkept⟩ := skethAllocRxLoop_held cleanedCount outcome a.rxRing.nextToUse h
  exact ⟨⟨hheld.pow, hheld.clean_lt, hheld.fresh, hheld.mapped, hheld.allocated⟩, hkept⟩

end Refill

section Poll

/-- `sketh_receive_skb` leaves the MTU alone. -/
theorem skethReceiveSkb_mtu (a : SkethAdapter) (id length : ℕ) (v : RxVerdict) :
    (skethReceiveSkb a id length v).mtu = a.mtu := by
  obtain ⟨drops, heq⟩ | heq | ⟨redirect, drops, heq⟩ := skethReceiveSkb_cases a id length v
  · rw [heq]
    rfl
  · rw [heq]
    cases v.txDma <;> rfl
  · rw [heq]
    rfl

variable {c : RxCleaning} {z : RxSizes} {id : ℕ}

/-- The receive loop's body empties its slot and moves on. -/
theorem cleanRxSlot_ring (c : RxCleaning) (id : ℕ) (v : RxVerdict) :
    (cleanRxSlot c id v).adapter.rxSlot =
        Function.update c.adapter.rxSlot c.adapter.rxRing.nextToClean none ∧
      (cleanRxSlot c id v).adapter.rxRing.count = c.adapter.rxRing.count ∧
      (cleanRxSlot c id v).adapter.rxRing.nextToClean =
        nextToUse c.adapter.rxRing.nextToClean c.adapter.rxRing.count ∧
      (cleanRxSlot c id v).adapter.fresh = c.adapter.fresh ∧
      (cleanRxSlot c id v).adapter.mtu = c.adapter.mtu := by
  have hd := skethReceiveSkb_disposes ((c.adapter.emit (.rxUnmap c.adapter.rxRing.nextToClean
    (c.adapter.rxRing.rxBuffer c.adapter.rxRing.nextToClean).dma c.adapter.rxBufferLen)).setRxBuffer
      c.adapter.rxRing.nextToClean .empty) id c.adapter.rxLength v
  refine ⟨?_, ?_, ?_, hd.fresh, skethReceiveSkb_mtu _ id _ v⟩
  · funext j
    change ((skethReceiveSkb _ id _ v).rxRing.rxBuffer j).skb = _
    rw [hd.rxRing]
    exact congrFun (rxSlot_setRxBuffer _ _ _) j
  · change (skethReceiveSkb _ id _ v).rxRing.count = _
    rw [hd.rxRing]
    rfl
  · change nextToUse (skethReceiveSkb _ id _ v).rxRing.nextToClean
      (skethReceiveSkb _ id _ v).rxRing.count = _
    rw [hd.rxRing]
    rfl

/-- What is known stays known of the buffers that were not taken. -/
theorem cleanRxSlot_held (h : SizesHeld c.adapter z) (id : ℕ) (v : RxVerdict) (len length : ℕ) :
    SizesHeld (cleanRxSlot c id v).adapter
      ((z.observe c.adapter.mtu (.unmap c.adapter.rxRing.nextToClean len)).observe c.adapter.mtu
        (.receive id length)) := by
  obtain ⟨hslot, hcount, hclean, hfresh, -⟩ := cleanRxSlot_ring c id v
  have hold : ∀ j x, (cleanRxSlot c id v).adapter.rxSlot j = some x →
      j ≠ c.adapter.rxRing.nextToClean ∧ c.adapter.rxSlot j = some x := by
    intro j x hj
    rw [hslot] at hj
    by_cases hji : j = c.adapter.rxRing.nextToClean
    · rw [hji, Function.update_self] at hj
      exact absurd hj (by simp)
    · rw [Function.update_of_ne hji] at hj
      exact ⟨hji, hj⟩
  refine ⟨by rw [hcount]; exact h.pow, ?_, fun j x hj => ?_, fun j x hj => ?_, fun j x hj => ?_⟩
  · rw [hcount, hclean, nextToUse_rx h.pow h.clean_lt]
    exact Cyclic.next_lt (Nat.zero_lt_of_lt h.clean_lt) _
  · rw [hfresh]
    exact h.fresh j x (hold j x hj).2
  · simpa [RxSizes.observe, mappedLen, (hold j x hj).1.symm] using h.mapped j x (hold j x hj).2
  · exact h.allocated j x (hold j x hj).2

/-- Buffers have the same size exactly under the same MTU. -/
theorem rxBufferSize_inj {m n : UInt32} : rxBufferSize m = rxBufferSize n ↔ m = n := by
  unfold rxBufferSize
  rw [UInt32.toNat_inj, UInt32.add_left_inj, UInt32.add_left_inj]

/-- The length of a frame is within the size of a buffer unless only the size wraps around. -/
theorem rxLength_le_iff (a : SkethAdapter) : a.rxLength ≤ rxBufferSize a.mtu ↔ ¬ OnlySizeWraps a.mtu := by
  have hlt := a.mtu.toNat_lt
  unfold SkethAdapter.rxLength rxBufferSize OnlySizeWraps ethHlen vlanHlen
  simp only [UInt32.toNat_add, UInt32.toNat_ofNat']
  omega

/-- A buffer is unmapped and delivered within its sizes exactly when it was mapped under the MTU in force and the size
does not wrap around alone. -/
theorem sizesKept_taken_iff {a : SkethAdapter} (h : SizesHeld a z) (hkept : SizesKept z.log) {i : ℕ}
    (hid : a.rxSlot i = some id) :
    SizesKept ((z.observe a.mtu (.unmap i a.rxBufferLen)).observe a.mtu
      (.receive id a.rxLength)).log ↔ OwnMtu z a.mtu i := by
  change (∃ size, allocatedSize z.log id = some size ∧ a.rxLength ≤ size) ∧
    mappedLen z.log i = some (rxBufferSize a.mtu) ∧ SizesKept z.log ↔ _
  rw [h.allocated i id hid, h.mapped i id hid, Option.some_inj, rxBufferSize_inj]
  constructor
  · rintro ⟨⟨size, hsize, hle⟩, hmtu, -⟩
    have hsame : size = rxBufferSize a.mtu := (Option.some.inj hsize).symm.trans (congrArg rxBufferSize hmtu)
    exact ⟨hmtu, (rxLength_le_iff a).mp (hsame ▸ hle)⟩
  · rintro ⟨hmtu, hfits⟩
    exact ⟨⟨_, rfl, hmtu.symm ▸ (rxLength_le_iff a).mpr hfits⟩, hmtu, hkept⟩

/-- The first slot the loop reaches, and those it reaches after taking it. -/
theorem rxReaches_succ (hpow : ∃ k ≤ 15, c.adapter.rxRing.count = 2 ^ k)
    (hlt : c.adapter.rxRing.nextToClean < c.adapter.rxRing.count)
    (hid : c.adapter.rxSlot c.adapter.rxRing.nextToClean = some id) (v : RxVerdict)
    (remaining : ℕ) (P : ℕ → Prop) :
    (∀ n, c.adapter.RxReaches (remaining + 1) n →
        P (Cyclic.shift c.adapter.rxRing.count c.adapter.rxRing.nextToClean n)) ↔
      P c.adapter.rxRing.nextToClean ∧
        ∀ n, (cleanRxSlot c id v).adapter.RxReaches remaining n →
          P (Cyclic.shift (cleanRxSlot c id v).adapter.rxRing.count
            (cleanRxSlot c id v).adapter.rxRing.nextToClean n) := by
  obtain ⟨hslot, hcount, hclean, -, -⟩ := cleanRxSlot_ring c id v
  have hzero := Cyclic.shift_zero hlt
  have hreach : ∀ n, (cleanRxSlot c id v).adapter.RxReaches remaining n ↔
      c.adapter.RxReaches (remaining + 1) (n + 1) := by
    intro n
    unfold SkethAdapter.RxReaches
    rw [hslot, hcount, hclean, nextToUse_rx hpow hlt]
    simp only [Cyclic.shift_next]
    constructor
    · rintro ⟨hn, hring, hall⟩
      have hroom : n + 1 < c.adapter.rxRing.count := by
        by_contra hfull
        have hback := hall n le_rfl
        have hend : n + 1 = c.adapter.rxRing.count := by omega
        rw [hend, Cyclic.shift, Nat.add_mod_right, Nat.mod_eq_of_lt hlt, Function.update_self] at hback
        exact absurd hback (by simp)
      refine ⟨by omega, hroom, fun m hm => ?_⟩
      cases m with
      | zero => rw [hzero, hid]; rfl
      | succ m =>
        have hne : Cyclic.shift c.adapter.rxRing.count c.adapter.rxRing.nextToClean (m + 1) ≠
            c.adapter.rxRing.nextToClean := Cyclic.shift_ne hlt (by omega) (by omega)
        have hfilled := hall m (by omega)
        rwa [Function.update_of_ne hne] at hfilled
    · rintro ⟨hn, hring, hall⟩
      refine ⟨by omega, by omega, fun m hm => ?_⟩
      have hne : Cyclic.shift c.adapter.rxRing.count c.adapter.rxRing.nextToClean (m + 1) ≠
          c.adapter.rxRing.nextToClean := Cyclic.shift_ne hlt (by omega) (by omega)
      rw [Function.update_of_ne hne]
      exact hall (m + 1) (by omega)
  constructor
  · intro h
    refine ⟨?_, fun n hn => ?_⟩
    · have hfirst : c.adapter.RxReaches (remaining + 1) 0 := by
        refine ⟨Nat.succ_pos _, by omega, fun m hm => ?_⟩
        rw [Nat.le_zero.mp hm, hzero, hid]
        rfl
      exact hzero ▸ h 0 hfirst
    · rw [hcount, hclean, nextToUse_rx hpow hlt, Cyclic.shift_next]
      exact h (n + 1) ((hreach n).mp hn)
  · rintro ⟨hfirst, hrest⟩ n hn
    cases n with
    | zero => exact hzero.symm ▸ hfirst
    | succ n =>
      have hnext := hrest n ((hreach n).mpr hn)
      rwa [hcount, hclean, nextToUse_rx hpow hlt, Cyclic.shift_next] at hnext

/-- A log with more events kept the sizes before. -/
theorem sizesKept_of_observe {mtu : UInt32} (events : List RxSizeEvent)
    (h : SizesKept (events.foldl (RxSizes.observe mtu) z).log) : SizesKept z.log := by
  induction events generalizing z with
  | nil => exact h
  | cons e rest ih =>
    have hrest : SizesKept (e :: z.log) := ih h
    cases e with
    | alloc id size => exact hrest
    | map slot len => exact hrest
    | unmap slot len => exact hrest.2
    | receive id len => exact hrest.2

/-- What is known of the buffers stays known through the receive loop. -/
theorem skethCleanRxLoop_held (remaining : ℕ) (verdict : ℕ → RxVerdict)
    (h : SizesHeld c.adapter z) :
    SizesHeld (skethCleanRxLoop remaining verdict c).adapter
        ((rxCleanSizes remaining verdict c).foldl (RxSizes.observe c.adapter.mtu) z) ∧
      (skethCleanRxLoop remaining verdict c).adapter.mtu = c.adapter.mtu := by
  induction remaining generalizing c z verdict with
  | zero => exact ⟨h, rfl⟩
  | succ n ih =>
    unfold skethCleanRxLoop rxCleanSizes
    cases hid : c.adapter.rxSlot c.adapter.rxRing.nextToClean with
    | none =>
      simp only [hid]
      exact ⟨h, trivial⟩
    | some id =>
      simp only [hid, List.foldl_cons]
      have hmtu := (cleanRxSlot_ring c id (verdict 0)).2.2.2.2
      have hrest := ih (fun n => verdict (n + 1))
        (cleanRxSlot_held h id (verdict 0) c.adapter.rxBufferLen c.adapter.rxLength)
      rwa [hmtu] at hrest

/-- The receive loop keeps the sizes exactly when every buffer it reaches was mapped under the MTU in
force. -/
theorem skethCleanRxLoop_sizesKept_iff (remaining : ℕ) (verdict : ℕ → RxVerdict)
    (h : SizesHeld c.adapter z) (hkept : SizesKept z.log) :
    SizesKept ((rxCleanSizes remaining verdict c).foldl (RxSizes.observe c.adapter.mtu) z).log ↔
      ∀ n, c.adapter.RxReaches remaining n →
        OwnMtu z c.adapter.mtu (Cyclic.shift c.adapter.rxRing.count c.adapter.rxRing.nextToClean n) := by
  induction remaining generalizing c z verdict with
  | zero => exact ⟨fun _ n hn => absurd hn.1 (Nat.not_lt_zero n), fun _ => hkept⟩
  | succ n ih =>
    unfold rxCleanSizes
    cases hid : c.adapter.rxSlot c.adapter.rxRing.nextToClean with
    | none =>
      simp only [hid]
      refine ⟨fun _ m hm => ?_, fun _ => hkept⟩
      have hfirst := hm.2.2 0 (Nat.zero_le m)
      rw [Cyclic.shift_zero h.clean_lt, hid] at hfirst
      exact absurd hfirst (by simp)
    | some id =>
      simp only [hid, List.foldl_cons]
      have hmtu := (cleanRxSlot_ring c id (verdict 0)).2.2.2.2
      have hheld := cleanRxSlot_held h id (verdict 0) c.adapter.rxBufferLen
        c.adapter.rxLength
      have hfirst := sizesKept_taken_iff h hkept hid
      have hrest := fun hkept' => ih (fun n => verdict (n + 1)) hheld hkept'
      rw [hmtu] at hrest
      rw [rxReaches_succ h.pow h.clean_lt hid (verdict 0) n (OwnMtu z c.adapter.mtu)]
      constructor
      · intro hall
        have hkept' := sizesKept_of_observe _ hall
        exact ⟨hfirst.mp hkept', (hrest hkept').mp hall⟩
      · rintro ⟨hown, hall⟩
        exact (hrest (hfirst.mpr hown)).mpr hall

end Poll

section Calls

/-- A poll keeps the sizes exactly when every buffer it reaches was mapped under the MTU in force. What is
known of the buffers stays known. -/
theorem skethCleanRxRing_held {a : SkethAdapter} {z : RxSizes} (h : SizesHeld a z) (budget : ℤ)
    (verdict : ℕ → RxVerdict) (outcome : ℕ → RxAlloc) :
    SizesHeld (skethCleanRxRing a budget verdict outcome).1
        (((MtuCall.cleanRxRing budget verdict outcome).sizes a).foldl (RxSizes.observe a.mtu) z) ∧
      (SizesKept z.log →
        (SizesKept (((MtuCall.cleanRxRing budget verdict outcome).sizes a).foldl
            (RxSizes.observe a.mtu) z).log ↔
          ∀ n, a.RxReaches (budget % 2 ^ 32).toNat n →
            OwnMtu z a.mtu (Cyclic.shift a.rxRing.count a.rxRing.nextToClean n))) := by
  obtain ⟨hloop, hmtu⟩ := skethCleanRxLoop_held (c := ⟨a, 0, 0, 0⟩) (budget % 2 ^ 32).toNat verdict h
  have hkept := skethCleanRxLoop_sizesKept_iff (c := ⟨a, 0, 0, 0⟩) (budget % 2 ^ 32).toNat verdict h
  unfold skethCleanRxRing MtuCall.sizes
  simp only [List.foldl_append]
  generalize skethCleanRxLoop (budget % 2 ^ 32).toNat verdict ⟨a, 0, 0, 0⟩ = c at hloop hmtu ⊢
  obtain ⟨hheld, hsame⟩ := skethAllocRxBuffers_held c.cleaned outcome hloop
  rw [hmtu] at hheld hsame
  refine ⟨?_, fun hold => hsame.trans (hkept hold)⟩
  split_ifs with hcleaned
  · exact ⟨hheld.pow, hheld.clean_lt, hheld.fresh, hheld.mapped, hheld.allocated⟩
  · rw [not_not.mp hcleaned]
    exact hloop

variable {s t : SizedRing} {call : MtuCall}

/-- What is known of the buffers stays known through a call, and the sizes are kept exactly when a poll
takes only buffers of the MTU in force. -/
theorem mtuMachine_step_held (h : SizesHeld s.adapter s.sizes)
    (ht : mtuMachine.step s call = some t) :
    SizesHeld t.adapter t.sizes ∧
      (SizesKept s.sizes.log → (SizesKept t.sizes.log ↔ PollsOwnMtu s call)) := by
  obtain ⟨a, ha, rfl⟩ := Option.map_eq_some_iff.mp ht
  cases call with
  | changeMtu newMtu =>
    obtain ⟨⟨hmin, hmax⟩, ha⟩ := Option.ite_none_right_eq_some.mp ha
    obtain rfl := Option.some.inj ha
    rw [skethChangeMtu_accepted s.adapter hmin hmax]
    exact ⟨⟨h.pow, h.clean_lt, h.fresh, h.mapped, h.allocated⟩, fun hkept => iff_of_true hkept trivial⟩
  | allocRxBuffers cleanedCount outcome =>
    obtain rfl := Option.some.inj ha
    obtain ⟨hheld, hsame⟩ := skethAllocRxBuffers_held cleanedCount outcome h
    exact ⟨hheld, fun hkept => iff_of_true (hsame.mpr hkept) trivial⟩
  | cleanRxRing budget verdict outcome =>
    obtain rfl := Option.some.inj ha
    exact skethCleanRxRing_held h budget verdict outcome

/-- Nothing is known of the buffers of an empty ring. -/
theorem mtuSetup_held (a : SkethAdapter) {k : ℕ} (hk : k ≤ 15) :
    SizesHeld (mtuSetup a (2 ^ k)).adapter (mtuSetup a (2 ^ k)).sizes := by
  have hempty : ∀ i id, (mtuSetup a (2 ^ k)).adapter.rxSlot i ≠ some id := fun i id hi =>
    absurd hi (by simp [mtuSetup, SkethAdapter.rxSlot, skethSetupRxResources, SkethRxBuffer.empty])
  exact ⟨⟨k, hk, rfl⟩, Nat.two_pow_pos k, fun i id hi => absurd hi (hempty i id),
    fun i id hi => absurd hi (hempty i id), fun i id hi => absurd hi (hempty i id)⟩

end Calls

section Logged

variable {z : RxSizes}

/-- The refill loop logs the mappings that are observed. -/
theorem skethAllocRxLoop_mappings (cleanedCount : ℕ) (outcome : ℕ → RxAlloc) (a : SkethAdapter) (i : ℕ)
    (h : loggedMappings a.log = z.mappings) :
    loggedMappings (skethAllocRxLoop cleanedCount outcome a i).1.log =
      ((rxAllocSizes cleanedCount outcome a i).foldl (RxSizes.observe a.mtu) z).mappings := by
  induction cleanedCount generalizing a i z outcome with
  | zero => exact h
  | succ n ih =>
    unfold skethAllocRxLoop rxAllocSizes
    cases outcome 0 with
    | noSkb => exact h
    | mapError => exact h
    | mapped dma =>
      have hput : loggedMappings ((putRxBuffer a i dma).emit (.rxMap i dma a.rxBufferLen)).log =
          ((z.observe a.mtu (.alloc a.fresh a.rxBufferLen)).observe a.mtu
            (.map i a.rxBufferLen)).mappings := by
        change RxSizeEvent.map i a.rxBufferLen :: loggedMappings a.log =
          .map i a.rxBufferLen :: z.mappings
        rw [h]
      exact ih (fun n => outcome (n + 1)) _ _ hput

/-- `sketh_receive_skb` maps and unmaps no receive buffer. -/
theorem skethReceiveSkb_mappings (a : SkethAdapter) (id length : ℕ) (v : RxVerdict) :
    loggedMappings (skethReceiveSkb a id length v).log = loggedMappings a.log := by
  obtain ⟨drops, heq⟩ | heq | ⟨redirect, drops, heq⟩ := skethReceiveSkb_cases a id length v
  · rw [heq]
    rfl
  · rw [heq]
    cases v.txDma <;> rfl
  · rw [heq]
    rfl

/-- The receive loop logs the mappings that are observed. -/
theorem skethCleanRxLoop_mappings (remaining : ℕ) (verdict : ℕ → RxVerdict) (c : RxCleaning)
    (h : loggedMappings c.adapter.log = z.mappings) :
    loggedMappings (skethCleanRxLoop remaining verdict c).adapter.log =
      ((rxCleanSizes remaining verdict c).foldl (RxSizes.observe c.adapter.mtu) z).mappings := by
  induction remaining generalizing c z verdict with
  | zero => exact h
  | succ n ih =>
    unfold skethCleanRxLoop rxCleanSizes
    cases hid : c.adapter.rxSlot c.adapter.rxRing.nextToClean with
    | none =>
      simp only [hid]
      exact h
    | some id =>
      simp only [hid, List.foldl_cons]
      have hmtu := (cleanRxSlot_ring c id (verdict 0)).2.2.2.2
      have hbody : loggedMappings (cleanRxSlot c id (verdict 0)).adapter.log =
          ((z.observe c.adapter.mtu (.unmap c.adapter.rxRing.nextToClean c.adapter.rxBufferLen)).observe
            c.adapter.mtu (.receive id c.adapter.rxLength)).mappings :=
        (skethReceiveSkb_mappings _ id _ (verdict 0)).trans (congrArg (List.cons _) h)
      have hrest := ih (fun n => verdict (n + 1)) (cleanRxSlot c id (verdict 0)) hbody
      rwa [hmtu] at hrest

/-- In every state of every run, the mappings observed are those in the log of the adapter. -/
theorem mtuMachine_mappings (a : SkethAdapter) {k : ℕ} (hk : k ≤ 15) (calls : List MtuCall) :
    mtuMachine.Always (fun s => loggedMappings s.adapter.log = s.sizes.mappings)
      (mtuSetup a (2 ^ k)) calls := by
  have hstep : ∀ s call t,
      SizesHeld s.adapter s.sizes ∧ loggedMappings s.adapter.log = s.sizes.mappings →
      mtuMachine.step s call = some t →
      SizesHeld t.adapter t.sizes ∧ loggedMappings t.adapter.log = t.sizes.mappings := by
    rintro s call t ⟨hheld, hlog⟩ ht
    refine ⟨(mtuMachine_step_held hheld ht).1, ?_⟩
    obtain ⟨b, hb, rfl⟩ := Option.map_eq_some_iff.mp ht
    cases call with
    | changeMtu newMtu =>
      obtain ⟨⟨hmin, hmax⟩, hb⟩ := Option.ite_none_right_eq_some.mp hb
      obtain rfl := Option.some.inj hb
      rw [skethChangeMtu_accepted s.adapter hmin hmax]
      exact hlog
    | allocRxBuffers cleanedCount outcome =>
      obtain rfl := Option.some.inj hb
      exact skethAllocRxLoop_mappings cleanedCount outcome s.adapter _ hlog
    | cleanRxRing budget verdict outcome =>
      obtain rfl := Option.some.inj hb
      have hmtu := (skethCleanRxLoop_held (c := ⟨s.adapter, 0, 0, 0⟩)
        (budget % 2 ^ 32).toNat verdict hheld).2
      have hloop := skethCleanRxLoop_mappings (budget % 2 ^ 32).toNat verdict
        ⟨s.adapter, 0, 0, 0⟩ hlog
      unfold skethCleanRxRing MtuCall.sizes
      simp only [List.foldl_append]
      generalize skethCleanRxLoop (budget % 2 ^ 32).toNat verdict ⟨s.adapter, 0, 0, 0⟩ = c
        at hloop hmtu ⊢
      have hrefill := skethAllocRxLoop_mappings c.cleaned outcome c.adapter
        c.adapter.rxRing.nextToUse hloop
      rw [hmtu] at hrefill
      split_ifs with hcleaned
      · exact hrefill
      · rw [not_not.mp hcleaned]
        exact hloop
  exact (mtuMachine.always_of_step hstep ⟨mtuSetup_held a hk, rfl⟩ calls).mono _ fun _ h => h.2

end Logged

/-- Along every run of MTU changes, refills and polls, every buffer is unmapped with the length it was mapped with and
no delivered length exceeds the size of its buffer, exactly when every poll takes only buffers that were mapped under
the MTU in force, and this MTU is not so large that only the size of a buffer wraps around. -/
theorem sizesKept_iff_pollsOwnMtu (a : SkethAdapter) {k : ℕ} (hk : k ≤ 15) (calls : List MtuCall) :
    mtuMachine.Always (fun s => SizesKept s.sizes.log) (mtuSetup a (2 ^ k)) calls ↔
      mtuMachine.Guarded PollsOwnMtu (mtuSetup a (2 ^ k)) calls := by
  refine mtuMachine.always_iff_guarded
    (fun s (h : SizesHeld s.adapter s.sizes ∧ SizesKept s.sizes.log) => h.2) ?_ ?_
    ⟨mtuSetup_held a hk, trivial⟩ calls
  · rintro s call t ⟨hheld, hkept⟩ ht hguard
    obtain ⟨hheld', hiff⟩ := mtuMachine_step_held hheld ht
    exact ⟨hheld', (hiff hkept).mpr hguard⟩
  · rintro s call t ⟨hheld, hkept⟩ ht hguard hgood
    exact hguard (((mtuMachine_step_held hheld ht).2 hkept).mp hgood)

/-- The driver's ring of 512 slots is filled, the MTU is raised and set back, and a poll takes up to 64 buffers and
refills their slots. -/
theorem sizesKept_iff_pollsOwnMtu_driver :
    mtuMachine.Always (fun s => SizesKept s.sizes.log) (mtuSetup skethProbed (2 ^ 9))
        [.allocRxBuffers 512 RxAlloc.mapped, .changeMtu 8982, .changeMtu 1500,
          .cleanRxRing 64 (fun _ => ⟨.pass, none, false, false⟩) RxAlloc.mapped] ↔
      mtuMachine.Guarded PollsOwnMtu (mtuSetup skethProbed (2 ^ 9))
        [.allocRxBuffers 512 RxAlloc.mapped, .changeMtu 8982, .changeMtu 1500,
          .cleanRxRing 64 (fun _ => ⟨.pass, none, false, false⟩) RxAlloc.mapped] :=
  sizesKept_iff_pollsOwnMtu skethProbed (by decide) _

/-- A buffer of 1518 bytes, mapped under the default MTU, is unmapped with 9000 bytes and delivered with
8996 after the MTU was raised. -/
theorem sizesKept_raised : ¬ mtuMachine.Always (fun s => SizesKept s.sizes.log)
    (mtuSetup skethProbed (2 ^ 9))
    [.allocRxBuffers 1 RxAlloc.mapped, .changeMtu 8982,
      .cleanRxRing 64 (fun _ => ⟨.pass, none, false, false⟩) fun _ => .noSkb] := by
  intro h
  have hkept : SizesKept [.receive 0 8996, .unmap 0 9000, .map 0 1518, .alloc 0 1518] :=
    h.of_reached mtuMachine (List.prefix_refl _) rfl
  exact absurd hkept.2.1 (by decide)

end LinuxFunctionTest.Sketh
