import LinuxFunctionTest.Sketh.Receive
import LinuxFunctionTest.Library.Machine
import LinuxFunctionTest.Library.Slots

/-!
# Conservation of receive buffers

Runs of `sketh_clean_rx_ring` on an RX ring that was set up and filled once. Equal indices mean a
full ring as well as an empty one, so the invariant names the occupancy: the occupied slots are a
window that starts at `next_to_clean`, and the next slot to fill comes right after it. The receive
loop takes slots from the front of the window, and the refill loop, which asks for as many buffers
as were taken, adds slots behind it until an allocation or a mapping fails.
-/

namespace LinuxFunctionTest.Sketh

/-- One call of `sketh_clean_rx_ring` with the outcomes of everything it calls. -/
structure RxCall where
  budget : ℤ
  verdict : ℕ → RxVerdict
  outcome : ℕ → RxAlloc

/-- The runs of `sketh_clean_rx_ring`. -/
def rxMachine : Machine SkethAdapter RxCall where
  step a call := some (skethCleanRxRing a call.budget call.verdict call.outcome).1

/-- An adapter whose RX ring was just set up and filled by `sketh_alloc_rx_buffers`. -/
def rxSetup (a : SkethAdapter) (count : ℕ) (outcome : ℕ → RxAlloc) : SkethAdapter :=
  skethAllocRxBuffers
    { a with rxRing := skethSetupRxResources count, fresh := 0, log := [] } count outcome

/-- The number of slots that hold a buffer. -/
def SkethAdapter.rxOccupancy (a : SkethAdapter) : ℕ :=
  ((List.range a.rxRing.count).filter fun i => (a.rxSlot i).isSome).length

/-- The ring holds a window of buffers behind `next_to_clean` up to `next_to_use`, no store found a
buffer in its slot, and every stored buffer is in exactly one slot, or freed once, or received
once. -/
structure RxConserved (a : SkethAdapter) : Prop where
  occupied : ∀ i < a.rxRing.count, (a.rxSlot i).isSome ↔
    i ∈ Cyclic.span a.rxRing.count a.rxRing.nextToClean a.rxOccupancy
  nextToUse : a.rxRing.nextToUse = (a.rxRing.nextToClean + a.rxOccupancy) % a.rxRing.count
  empty : ∀ i id old, SkethEvent.rxHold i id old ∈ a.log → old = none
  conserved : ∀ id ∈ a.rxStored,
    (a.freed.count id = 0 ∧ a.received.count id = 0 ∧ ∃ i < a.rxRing.count,
        a.rxSlot i = some id ∧ ∀ j < a.rxRing.count, a.rxSlot j = some id → j = i) ∨
      (a.freed.count id = 1 ∧ a.received.count id = 0 ∧
        ∀ i < a.rxRing.count, a.rxSlot i ≠ some id) ∨
      (a.freed.count id = 0 ∧ a.received.count id = 1 ∧
        ∀ i < a.rxRing.count, a.rxSlot i ≠ some id)

/-- The invariant of both loops; `occ` buffers are in the ring. -/
structure RxInv (a : SkethAdapter) (occ : ℕ) : Prop where
  pow : ∃ k ≤ 15, a.rxRing.count = 2 ^ k
  window : Cyclic.Window a.rxRing.count a.rxRing.nextToClean occ a.rxSlot
  inRange : ∀ i id, a.rxSlot i = some id → i < a.rxRing.count
  conserved : Slots.Conserved a.rxSlot a.rxStored (a.freed ++ a.received)
  recorded : Slots.Recorded a.rxSlot a.rxStored
  stored_lt : ∀ id ∈ a.rxStored, id < a.fresh
  taken_lt : ∀ id ∈ a.freed ++ a.received, id < a.fresh
  empty : ∀ i id old, SkethEvent.rxHold i id old ∈ a.log → old = none

/-- The invariant between calls: `next_to_use` is the slot behind the window. -/
def RxReady (a : SkethAdapter) (occ : ℕ) : Prop :=
  RxInv a occ ∧
    a.rxRing.nextToUse = Cyclic.shift a.rxRing.count a.rxRing.nextToClean occ

/-- The invariant between calls implies conservation. -/
theorem RxReady.rxConserved {a : SkethAdapter} {occ : ℕ} (h : RxReady a occ) : RxConserved a := by
  obtain ⟨hinv, huse⟩ := h
  have hocc : a.rxOccupancy = occ := hinv.window.count
  constructor
  · intro i hi
    rw [hocc]
    exact hinv.window.isSome_iff_mem_span hi
  · rw [hocc, huse, Cyclic.shift]
  · exact hinv.empty
  · intro id hid
    rcases hinv.conserved id hid with ⟨hcount, hno⟩ | ⟨hcount, i, hi, huniq⟩
    · rw [List.count_append] at hcount
      have hsplit : a.freed.count id = 1 ∧ a.received.count id = 0 ∨
          a.freed.count id = 0 ∧ a.received.count id = 1 := by omega
      rcases hsplit with ⟨hfreed, hreceived⟩ | ⟨hfreed, hreceived⟩
      · exact Or.inr (Or.inl ⟨hfreed, hreceived, fun i _ => hno i⟩)
      · exact Or.inr (Or.inr ⟨hfreed, hreceived, fun i _ => hno i⟩)
    · rw [List.count_append] at hcount
      exact Or.inl ⟨by omega, by omega, i, hinv.inRange i id hi, hi, fun j _ => huniq j⟩

/-- The invariant reads the ring's slots, `next_to_clean`, the buffers and the log only. -/
theorem RxInv.congr {a b : SkethAdapter} {occ : ℕ} (h : RxInv a occ)
    (hcount : b.rxRing.count = a.rxRing.count)
    (hclean : b.rxRing.nextToClean = a.rxRing.nextToClean) (hslot : b.rxSlot = a.rxSlot)
    (hfresh : b.fresh = a.fresh) (hlog : b.log = a.log) : RxInv b occ := by
  have hstored : b.rxStored = a.rxStored := by simp only [SkethAdapter.rxStored, hlog]
  have hfreed : b.freed = a.freed := by simp only [SkethAdapter.freed, hlog]
  have hreceived : b.received = a.received := by simp only [SkethAdapter.received, hlog]
  constructor
  · rw [hcount]; exact h.pow
  · rw [hcount, hclean, hslot]; exact h.window
  · rw [hcount, hslot]; exact h.inRange
  · rw [hslot, hstored, hfreed, hreceived]; exact h.conserved
  · rw [hslot, hstored]; exact h.recorded
  · rw [hstored, hfresh]; exact h.stored_lt
  · rw [hfreed, hreceived, hfresh]; exact h.taken_lt
  · rw [hlog]; exact h.empty

/-- Recording a mapping keeps the invariant. -/
theorem RxInv.emit_rxMap {a : SkethAdapter} {occ : ℕ} (h : RxInv a occ) (i dma len : ℕ) :
    RxInv (a.emit (.rxMap i dma len)) occ where
  pow := h.pow
  window := h.window
  inRange := h.inRange
  conserved := h.conserved
  recorded := h.recorded
  stored_lt := h.stored_lt
  taken_lt := h.taken_lt
  empty := fun j id old hmem => h.empty j id old (by simpa [SkethAdapter.emit] using hmem)

/-- How many buffers the refill loop maps when it is asked for `cleanedCount`: those before the first
failure. -/
def rxRefilled : ℕ → (ℕ → RxAlloc) → ℕ
  | 0, _ => 0
  | cleanedCount + 1, outcome =>
    match outcome 0 with
    | .noSkb | .mapError => 0
    | .mapped _ => rxRefilled cleanedCount (fun n => outcome (n + 1)) + 1

section Refill

variable {a : SkethAdapter} {occ i : ℕ}

/-- Storing a new buffer behind a window that leaves room lengthens the window. -/
theorem putRxBuffer_inv (h : RxInv a occ) (hroom : occ < a.rxRing.count)
    (hi : i = Cyclic.shift a.rxRing.count a.rxRing.nextToClean occ) (dma : ℕ) :
    RxInv (putRxBuffer a i dma) (occ + 1) := by
  subst hi
  have hnone := h.window.end_none hroom
  have hslot : (putRxBuffer a (Cyclic.shift a.rxRing.count a.rxRing.nextToClean occ) dma).rxSlot =
      Function.update a.rxSlot (Cyclic.shift a.rxRing.count a.rxRing.nextToClean occ)
        (some a.fresh) := rxSlot_setRxBuffer _ _ _
  constructor
  · exact h.pow
  · rw [hslot]
    exact h.window.push hroom a.fresh
  · intro j id hj
    rw [hslot] at hj
    rcases (Slots.filled_iff _ _ _ _ _).mp hj with ⟨rfl, _⟩ | ⟨_, hold⟩
    · exact Cyclic.shift_lt (by omega) _ _
    · exact h.inRange j id hold
  · rw [hslot]
    exact h.conserved.place h.recorded hnone (fun hmem => lt_irrefl _ (h.stored_lt _ hmem))
      (fun hmem => lt_irrefl _ (h.taken_lt _ hmem))
  · rw [hslot]
    exact h.recorded.place _ _
  · intro id hid
    rcases List.mem_cons.mp hid with rfl | hold
    · exact Nat.lt_succ_self _
    · exact Nat.lt_succ_of_lt (h.stored_lt id hold)
  · exact fun id hid => Nat.lt_succ_of_lt (h.taken_lt id hid)
  · intro j id old hmem
    rcases List.mem_cons.mp hmem with heq | hold
    · simp only [SkethEvent.rxHold.injEq] at heq
      exact heq.2.2 ▸ hnone
    · exact h.empty j id old hold

/-- Giving the new buffer back after a mapping error leaves the window as it was. -/
theorem mapError_inv (h : RxInv a occ) (hroom : occ < a.rxRing.count)
    (hi : i = Cyclic.shift a.rxRing.count a.rxRing.nextToClean occ) (dma : ℕ)
    (slotNone : SkethRxBuffer) (hslotNone : slotNone.skb = none) :
    RxInv (((putRxBuffer a i dma).kfreeSkb a.fresh).setRxBuffer i slotNone) occ := by
  have hput := putRxBuffer_inv h hroom hi dma
  have hnone : a.rxSlot i = none := hi ▸ h.window.end_none hroom
  have hfull : (putRxBuffer a i dma).rxSlot = Function.update a.rxSlot i (some a.fresh) :=
    rxSlot_setRxBuffer _ _ _
  have hkfree : ((putRxBuffer a i dma).kfreeSkb a.fresh).rxSlot = (putRxBuffer a i dma).rxSlot := rfl
  have hslot : (((putRxBuffer a i dma).kfreeSkb a.fresh).setRxBuffer i slotNone).rxSlot =
      Function.update (putRxBuffer a i dma).rxSlot i none := by
    rw [rxSlot_setRxBuffer, hslotNone, hkfree]
  have hback : Function.update (putRxBuffer a i dma).rxSlot i none = a.rxSlot := by
    rw [hfull, Function.update_idem, ← hnone, Function.update_eq_self]
  constructor
  · exact h.pow
  · rw [hslot, hback]
    exact h.window
  · rw [hslot, hback]
    exact h.inRange
  · rw [hslot]
    exact hput.conserved.take (by rw [hfull, Function.update_self])
  · rw [hslot]
    exact hput.recorded.take i
  · exact hput.stored_lt
  · intro id hid
    rcases List.mem_cons.mp hid with rfl | hold
    · exact Nat.lt_succ_self _
    · exact hput.taken_lt id hold
  · intro j id old hmem
    rcases List.mem_cons.mp hmem with heq | hold
    · exact absurd heq (by simp)
    · exact hput.empty j id old hold

/-- The refill loop lengthens the window when the ring has room for what it is asked for. Where it
stops, its index is the slot behind the window. -/
theorem skethAllocRxLoop_inv (cleanedCount : ℕ) (outcome : ℕ → RxAlloc) (h : RxInv a occ)
    (hroom : occ + cleanedCount ≤ a.rxRing.count)
    (hi : i = Cyclic.shift a.rxRing.count a.rxRing.nextToClean occ) :
    RxInv (skethAllocRxLoop cleanedCount outcome a i).1 (occ + rxRefilled cleanedCount outcome) ∧
      (skethAllocRxLoop cleanedCount outcome a i).1.rxRing.count = a.rxRing.count ∧
      (skethAllocRxLoop cleanedCount outcome a i).1.rxRing.nextToClean = a.rxRing.nextToClean ∧
      (skethAllocRxLoop cleanedCount outcome a i).2 = Cyclic.shift a.rxRing.count
        a.rxRing.nextToClean (occ + rxRefilled cleanedCount outcome) := by
  induction cleanedCount generalizing a i occ outcome with
  | zero => exact ⟨h, rfl, rfl, hi⟩
  | succ n ih =>
    unfold skethAllocRxLoop rxRefilled
    cases outcome 0 with
    | noSkb => exact ⟨h.congr rfl rfl rfl rfl rfl, rfl, rfl, hi⟩
    | mapError =>
      have herr := mapError_inv h (by omega) hi dmaMappingError
        { ((putRxBuffer a i dmaMappingError).kfreeSkb a.fresh).rxRing.rxBuffer i with skb := none }
        rfl
      exact ⟨herr.congr rfl rfl rfl rfl rfl, rfl, rfl, hi⟩
    | mapped dma =>
      have hput := putRxBuffer_inv h (by omega) hi dma
      have hmap : RxInv ((putRxBuffer a i dma).emit (.rxMap i dma a.rxBufferLen)) (occ + 1) :=
        hput.emit_rxMap _ _ _
      have hlt : i < a.rxRing.count := hi ▸ Cyclic.shift_lt (by omega) _ _
      have hnext : nextToUse i a.rxRing.count =
          Cyclic.shift a.rxRing.count a.rxRing.nextToClean (occ + 1) := by
        rw [nextToUse_rx h.pow hlt, hi, Cyclic.next_shift]
      have hrest := ih (fun n => outcome (n + 1)) hmap
        (by change occ + 1 + n ≤ a.rxRing.count; omega) hnext
      rwa [Nat.add_assoc, Nat.add_comm 1] at hrest

/-- `sketh_alloc_rx_buffers` lengthens the window between calls when the ring has room. -/
theorem skethAllocRxBuffers_ready (h : RxReady a occ) (cleanedCount : ℕ) (outcome : ℕ → RxAlloc)
    (hroom : occ + cleanedCount ≤ a.rxRing.count) :
    RxReady (skethAllocRxBuffers a cleanedCount outcome) (occ + rxRefilled cleanedCount outcome) ∧
      (skethAllocRxBuffers a cleanedCount outcome).rxRing.count = a.rxRing.count := by
  obtain ⟨hinv, hcount, hclean, hindex⟩ := skethAllocRxLoop_inv cleanedCount outcome h.1 hroom h.2
  refine ⟨⟨hinv.congr rfl rfl rfl rfl rfl, ?_⟩, hcount⟩
  change (skethAllocRxLoop cleanedCount outcome a a.rxRing.nextToUse).2 = Cyclic.shift
    (skethAllocRxLoop cleanedCount outcome a a.rxRing.nextToUse).1.rxRing.count
    (skethAllocRxLoop cleanedCount outcome a a.rxRing.nextToUse).1.rxRing.nextToClean _
  rw [hindex, hcount, hclean]

end Refill

/-- The invariant holds of a ring that was set up and filled. -/
theorem rxSetup_ready (a : SkethAdapter) {k : ℕ} (hk : k ≤ 15) (outcome : ℕ → RxAlloc) :
    RxReady (rxSetup a (2 ^ k) outcome) (rxRefilled (2 ^ k) outcome) ∧
      (rxSetup a (2 ^ k) outcome).rxRing.count = 2 ^ k := by
  have hpos : 0 < 2 ^ k := Nat.two_pow_pos k
  have hinv : RxInv { a with rxRing := skethSetupRxResources (2 ^ k), fresh := 0, log := [] } 0 := by
    constructor
    · exact ⟨k, hk, rfl⟩
    · exact Cyclic.Window.of_none hpos fun _ _ => rfl
    · exact fun i id hi => absurd hi (by
        simp [SkethAdapter.rxSlot, skethSetupRxResources, SkethRxBuffer.empty])
    · exact Slots.conserved_nil _ _
    · exact fun i id hi => absurd hi (by
        simp [SkethAdapter.rxSlot, skethSetupRxResources, SkethRxBuffer.empty])
    · exact fun id hid => absurd hid List.not_mem_nil
    · exact fun id hid => absurd hid List.not_mem_nil
    · exact fun i id old hmem => absurd hmem List.not_mem_nil
  have hready := skethAllocRxBuffers_ready ⟨hinv, (Cyclic.shift_zero hpos).symm⟩ (2 ^ k) outcome
    (Nat.zero_add _).le
  rwa [Nat.zero_add] at hready

section Receive

variable {c : RxCleaning} {occ id : ℕ}

/-- Taking the first buffer of the window and disposing of it keeps the invariant. -/
theorem disposed_inv {a d : SkethAdapter} (h : RxInv a (occ + 1))
    (hid : a.rxSlot a.rxRing.nextToClean = some id) {dma len : ℕ}
    (hd : Disposes id ((a.emit (.rxUnmap a.rxRing.nextToClean dma len)).setRxBuffer
      a.rxRing.nextToClean .empty) d) :
    RxInv d.advanceRxClean occ ∧
      d.rxRing.count = a.rxRing.count ∧ d.rxRing.nextToUse = a.rxRing.nextToUse ∧
      d.advanceRxClean.rxRing.nextToClean = Cyclic.next a.rxRing.count a.rxRing.nextToClean := by
  have hcount : d.rxRing.count = a.rxRing.count := by rw [hd.rxRing]; rfl
  have huse : d.rxRing.nextToUse = a.rxRing.nextToUse := by rw [hd.rxRing]; rfl
  have hclean : d.rxRing.nextToClean = a.rxRing.nextToClean := by rw [hd.rxRing]; rfl
  have hslot : d.rxSlot = Function.update a.rxSlot a.rxRing.nextToClean none := by
    funext j
    rw [SkethAdapter.rxSlot, hd.rxRing]
    exact congrFun (rxSlot_setRxBuffer _ _ _) j
  have hnext : d.advanceRxClean.rxRing.nextToClean =
      Cyclic.next a.rxRing.count a.rxRing.nextToClean := by
    rw [SkethAdapter.advanceRxClean, hcount, hclean]
    exact nextToUse_rx h.pow h.window.start_lt
  have hstored : d.rxStored = a.rxStored := hd.rxStored
  have hfresh : d.fresh = a.fresh := hd.fresh
  have htaken : (id :: (a.freed ++ a.received)).Perm (d.freed ++ d.received) := by
    rcases hd.taken with ⟨hfreed, hreceived⟩ | ⟨hfreed, hreceived⟩
    · rw [hfreed, hreceived]
      exact List.perm_middle.symm
    · rw [hfreed, hreceived]
      rfl
  refine ⟨⟨?_, ?_, ?_, ?_, ?_, ?_, ?_, ?_⟩, hcount, huse, hnext⟩
  · exact hcount ▸ h.pow
  · change Cyclic.Window d.rxRing.count d.advanceRxClean.rxRing.nextToClean occ d.rxSlot
    rw [hnext, hcount, hslot]
    exact h.window.pop
  · intro j x hj
    change d.rxSlot j = some x at hj
    rw [hslot] at hj
    change j < d.rxRing.count
    rw [hcount]
    exact h.inRange j x ((Slots.emptied_iff _ _ _ _).mp hj).2
  · change Slots.Conserved d.rxSlot d.rxStored (d.freed ++ d.received)
    rw [hslot, hstored]
    exact (h.conserved.take hid).perm htaken
  · change Slots.Recorded d.rxSlot d.rxStored
    rw [hslot, hstored]
    exact h.recorded.take _
  · intro x hx
    change x < d.fresh
    rw [hfresh]
    exact h.stored_lt x (hstored ▸ hx)
  · intro x hx
    change x < d.fresh
    rw [hfresh]
    rcases List.mem_cons.mp (htaken.mem_iff.mpr hx) with rfl | hold
    · exact h.stored_lt x (h.recorded _ _ hid)
    · exact h.taken_lt x hold
  · intro j x old hmem
    exact h.empty j x old (by
      simpa [SkethAdapter.emit, SkethAdapter.setRxBuffer] using hd.rxHold j x old hmem)

/-- The receive loop's body takes the first buffer of the window. -/
theorem cleanRxSlot_inv (h : RxInv c.adapter (occ + 1))
    (hid : c.adapter.rxSlot c.adapter.rxRing.nextToClean = some id) (v : RxVerdict) :
    RxInv (cleanRxSlot c id v).adapter occ ∧
      (cleanRxSlot c id v).adapter.rxRing.count = c.adapter.rxRing.count ∧
      (cleanRxSlot c id v).adapter.rxRing.nextToUse = c.adapter.rxRing.nextToUse ∧
      (cleanRxSlot c id v).adapter.rxRing.nextToClean =
        Cyclic.next c.adapter.rxRing.count c.adapter.rxRing.nextToClean :=
  disposed_inv h hid (skethReceiveSkb_disposes _ id _ v)

/-- The receive loop takes as many buffers from the window as it may, and counts them. -/
theorem skethCleanRxLoop_inv (remaining : ℕ) (verdict : ℕ → RxVerdict) (h : RxReady c.adapter occ) :
    RxReady (skethCleanRxLoop remaining verdict c).adapter (occ - remaining) ∧
      (skethCleanRxLoop remaining verdict c).adapter.rxRing.count = c.adapter.rxRing.count ∧
      (skethCleanRxLoop remaining verdict c).cleaned = c.cleaned + min remaining occ := by
  induction remaining generalizing c occ verdict with
  | zero => exact ⟨h, rfl, by rw [Nat.zero_min]; rfl⟩
  | succ n ih =>
    obtain ⟨hinv, huse⟩ := h
    unfold skethCleanRxLoop
    cases hid : c.adapter.rxSlot c.adapter.rxRing.nextToClean with
    | none =>
      have hzero : occ = 0 := by
        by_contra hne
        have hfirst := hinv.window.start_isSome_iff.mpr (Nat.pos_of_ne_zero hne)
        rw [hid] at hfirst
        exact absurd hfirst (by simp)
      subst hzero
      rw [Nat.zero_sub, Nat.min_zero]
      exact ⟨⟨hinv, huse⟩, rfl, rfl⟩
    | some id =>
      have hpos : 0 < occ := hinv.window.start_isSome_iff.mp (by rw [hid]; rfl)
      obtain ⟨m, rfl⟩ := Nat.exists_eq_add_of_lt hpos
      rw [Nat.zero_add] at hinv huse
      obtain ⟨hinv', hcount, huse', hclean⟩ := cleanRxSlot_inv hinv hid (verdict 0)
      have hready : RxReady (cleanRxSlot c id (verdict 0)).adapter m := by
        refine ⟨hinv', ?_⟩
        rw [huse', huse, hcount, hclean, Cyclic.shift_next]
      obtain ⟨hrest, hcount', hcleaned⟩ := ih (fun n => verdict (n + 1)) hready
      rw [Nat.zero_add, Nat.add_sub_add_right, Nat.add_min_add_right]
      refine ⟨hrest, hcount'.trans hcount, ?_⟩
      rw [hcleaned]
      change c.cleaned + 1 + min n m = c.cleaned + (min n m + 1)
      omega

end Receive

/-- One call asks for as many buffers as it took, and puts those it gets behind the window. -/
theorem skethCleanRxRing_ready {a : SkethAdapter} {occ : ℕ} (h : RxReady a occ) (budget : ℤ)
    (verdict : ℕ → RxVerdict) (outcome : ℕ → RxAlloc) :
    RxReady (skethCleanRxRing a budget verdict outcome).1
        (occ - (budget % 2 ^ 32).toNat + rxRefilled (min (budget % 2 ^ 32).toNat occ) outcome) ∧
      (skethCleanRxRing a budget verdict outcome).1.rxRing.count = a.rxRing.count := by
  obtain ⟨hready, hcount, hcleaned⟩ :=
    skethCleanRxLoop_inv (c := ⟨a, 0, 0, 0⟩) (budget % 2 ^ 32).toNat verdict h
  have hle : occ ≤ a.rxRing.count := h.1.window.le
  rw [Nat.zero_add] at hcleaned
  unfold skethCleanRxRing
  generalize skethCleanRxLoop (budget % 2 ^ 32).toNat verdict ⟨a, 0, 0, 0⟩ = c
    at hready hcount hcleaned ⊢
  have hroom : occ - (budget % 2 ^ 32).toNat + c.cleaned ≤ c.adapter.rxRing.count := by
    rw [hcleaned, hcount]
    change _ ≤ a.rxRing.count
    omega
  obtain ⟨hfilled, hkeep⟩ := skethAllocRxBuffers_ready hready c.cleaned outcome hroom
  rw [← hcleaned]
  simp only
  split_ifs with hne
  · exact ⟨⟨hfilled.1.congr rfl rfl rfl rfl rfl, hfilled.2⟩, hkeep.trans hcount⟩
  · rw [not_not.mp hne]
    exact ⟨hready, hcount⟩

/-- In every state between calls of every run, whatever the budgets, verdicts and failures, the
ring holds a window of buffers behind `next_to_clean` and every buffer is conserved. -/
theorem rxRing_conserved (a : SkethAdapter) {k : ℕ} (hk : k ≤ 15) (fill : ℕ → RxAlloc)
    (calls : List RxCall) : rxMachine.Always RxConserved (rxSetup a (2 ^ k) fill) calls := by
  have hstep : ∀ s call t, (∃ occ, RxReady s occ) → rxMachine.step s call = some t →
      ∃ occ, RxReady t occ := by
    rintro s call t ⟨occ, hs⟩ ht
    obtain rfl := Option.some.inj ht
    exact ⟨_, (skethCleanRxRing_ready hs call.budget call.verdict call.outcome).1⟩
  have halways := rxMachine.always_of_step hstep ⟨_, (rxSetup_ready a hk fill).1⟩ calls
  exact halways.mono _ fun s hs => hs.elim fun _ h => h.rxConserved

/-- The driver's ring of 512 slots, filled completely, polled once with a budget of 64. -/
theorem rxRing_conserved_driver :
    rxMachine.Always RxConserved (rxSetup skethProbed (2 ^ 9) RxAlloc.mapped)
      [⟨64, fun _ => ⟨.pass, none, false, false⟩, RxAlloc.mapped⟩] :=
  rxRing_conserved skethProbed (by decide) RxAlloc.mapped _

end LinuxFunctionTest.Sketh
