import LinuxFunctionTest.Sketh.ReceiveConservation

/-!
# Refilling the RX ring after failures

`sketh_clean_rx_ring` asks `sketh_alloc_rx_buffers` for as many buffers as it took in the same call. So
the number of buffers in the ring never grows: a buffer that could not be replaced is missing from then
on, and a ring that ran empty takes nothing and asks for nothing.
-/

namespace LinuxFunctionTest.Sketh

/-- The allocation and the mapping succeeded. -/
def RxAlloc.isMapped : RxAlloc → Bool
  | .mapped _ => true
  | .noSkb => false
  | .mapError => false

/-- A call with a positive budget whose allocations and mappings all succeed. -/
structure RxCall.Succeeds (call : RxCall) : Prop where
  positive : 0 < call.budget
  int : call.budget < 2 ^ 31
  mapped : ∀ n, (call.outcome n).isMapped

/-- The next call, if everything succeeds from now on, leaves a buffer in every slot. -/
def Refills (a : SkethAdapter) : Prop :=
  ∀ call : RxCall, call.Succeeds → ∀ i < a.rxRing.count,
    ((skethCleanRxRing a call.budget call.verdict call.outcome).1.rxSlot i).isSome

/-- Every buffer the call takes is replaced: none of the allocations and mappings it asks for fails. -/
def NoShortfall (a : SkethAdapter) (call : RxCall) : Prop :=
  ∀ n < min (call.budget % 2 ^ 32).toNat a.rxOccupancy, (call.outcome n).isMapped

/-- The refill loop maps no more buffers than it is asked for. -/
theorem rxRefilled_le (cleanedCount : ℕ) (outcome : ℕ → RxAlloc) :
    rxRefilled cleanedCount outcome ≤ cleanedCount := by
  induction cleanedCount generalizing outcome with
  | zero => exact Nat.zero_le 0
  | succ n ih =>
    unfold rxRefilled
    cases outcome 0 with
    | noSkb => exact Nat.zero_le _
    | mapError => exact Nat.zero_le _
    | mapped dma => exact Nat.succ_le_succ (ih _)

/-- It maps all of them exactly when nothing fails. -/
theorem rxRefilled_eq_iff (cleanedCount : ℕ) (outcome : ℕ → RxAlloc) :
    rxRefilled cleanedCount outcome = cleanedCount ↔ ∀ n < cleanedCount, (outcome n).isMapped := by
  induction cleanedCount generalizing outcome with
  | zero => exact iff_of_true rfl fun n hn => absurd hn (Nat.not_lt_zero n)
  | succ m ih =>
    have hfailed : (outcome 0).isMapped = false → ¬ ∀ n < m + 1, (outcome n).isMapped :=
      fun hfail hall => by simp [hall 0 (Nat.succ_pos m)] at hfail
    unfold rxRefilled
    cases hfirst : outcome 0 with
    | noSkb => exact iff_of_false (Nat.succ_ne_zero m).symm (hfailed (by rw [hfirst]; rfl))
    | mapError => exact iff_of_false (Nat.succ_ne_zero m).symm (hfailed (by rw [hfirst]; rfl))
    | mapped dma =>
      simp only [Nat.add_right_cancel_iff, ih]
      constructor
      · intro hall n hn
        cases n with
        | zero => rw [hfirst]; rfl
        | succ n => exact hall n (by omega)
      · exact fun hall n hn => hall (n + 1) (by omega)

section Occupancy

variable {a : SkethAdapter} {occ : ℕ}

/-- The occupancy of a ring between calls. -/
theorem RxReady.rxOccupancy (h : RxReady a occ) : a.rxOccupancy = occ := h.1.window.count

/-- A ring that holds as many buffers as it has slots holds one in every slot. -/
theorem RxReady.filled (h : RxReady a a.rxRing.count) {i : ℕ} (hi : i < a.rxRing.count) :
    (a.rxSlot i).isSome :=
  (h.1.window.isSome_iff i hi).mpr (Cyclic.dist_lt (Nat.zero_lt_of_lt hi) _ i)

/-- A call that replaces what it takes keeps the ring full. -/
theorem skethCleanRxRing_full (h : RxReady a a.rxRing.count) {call : RxCall}
    (hshort : NoShortfall a call) :
    RxReady (skethCleanRxRing a call.budget call.verdict call.outcome).1 a.rxRing.count := by
  obtain ⟨hready, -⟩ := skethCleanRxRing_ready h call.budget call.verdict call.outcome
  have hall : rxRefilled (min (call.budget % 2 ^ 32).toNat a.rxRing.count) call.outcome =
      min (call.budget % 2 ^ 32).toNat a.rxRing.count := by
    rw [rxRefilled_eq_iff]
    intro n hn
    exact hshort n (by rwa [h.rxOccupancy])
  have hsame : a.rxRing.count - (call.budget % 2 ^ 32).toNat +
      min (call.budget % 2 ^ 32).toNat a.rxRing.count = a.rxRing.count := by omega
  rwa [hall, hsame] at hready

/-- A full ring stays full in a call in which everything succeeds. -/
theorem refills_of_full (h : RxReady a a.rxRing.count) : Refills a := by
  intro call hcall i hi
  have hfull := skethCleanRxRing_full h fun n _ => hcall.mapped n
  obtain ⟨-, hcount⟩ := skethCleanRxRing_ready h call.budget call.verdict call.outcome
  rw [← hcount] at hfull hi
  exact hfull.filled hi

/-- A ring that holds fewer buffers than it has slots has an empty slot. -/
theorem RxReady.missing (h : RxReady a occ) (hlt : occ < a.rxRing.count) :
    ∃ i < a.rxRing.count, a.rxSlot i = none :=
  ⟨_, Cyclic.shift_lt (Nat.zero_lt_of_lt hlt) _ occ, h.1.window.end_none hlt⟩

/-- A ring that lacks buffers lacks them after a call in which everything succeeds. -/
theorem not_refills_of_lt (h : RxReady a occ) (hlt : occ < a.rxRing.count) : ¬ Refills a := by
  intro hrefills
  obtain ⟨hready, hcount⟩ := skethCleanRxRing_ready h 1 (fun _ => ⟨.pass, none, false, false⟩)
    RxAlloc.mapped
  have hone : ((1 : ℤ) % 2 ^ 32).toNat = 1 := by decide
  have hall : rxRefilled (min 1 occ) RxAlloc.mapped = min 1 occ :=
    (rxRefilled_eq_iff _ _).mpr fun _ _ => rfl
  have hsame : occ - 1 + min 1 occ = occ := by omega
  rw [hone, hall, hsame] at hready
  obtain ⟨i, hi, hnone⟩ := hready.missing (by rwa [hcount])
  have hfilled := hrefills ⟨1, fun _ => ⟨.pass, none, false, false⟩, RxAlloc.mapped⟩
    ⟨by decide, by decide, fun _ => rfl⟩ i (hcount ▸ hi)
  rw [hnone] at hfilled
  exact absurd hfilled (by simp)

/-- A call that fails to replace a buffer leaves a full ring with fewer. -/
theorem skethCleanRxRing_short (h : RxReady a a.rxRing.count) {call : RxCall}
    (hshort : ¬ NoShortfall a call) :
    ∃ occ < a.rxRing.count,
      RxReady (skethCleanRxRing a call.budget call.verdict call.outcome).1 occ := by
  obtain ⟨hready, -⟩ := skethCleanRxRing_ready h call.budget call.verdict call.outcome
  refine ⟨_, ?_, hready⟩
  have hle := rxRefilled_le (min (call.budget % 2 ^ 32).toNat a.rxRing.count) call.outcome
  have hne : rxRefilled (min (call.budget % 2 ^ 32).toNat a.rxRing.count) call.outcome ≠
      min (call.budget % 2 ^ 32).toNat a.rxRing.count := by
    intro heq
    refine hshort fun n hn => (rxRefilled_eq_iff _ _).mp heq n ?_
    rwa [h.rxOccupancy] at hn
  omega

/-- An empty ring stays empty, whatever succeeds later. -/
theorem rxRing_empty_always (h : RxReady a 0) (calls : List RxCall) :
    rxMachine.Always (fun s => s.rxOccupancy = 0) a calls := by
  have hstep : ∀ s call t, RxReady s 0 → rxMachine.step s call = some t → RxReady t 0 := by
    intro s call t hs ht
    obtain rfl := Option.some.inj ht
    have hready := (skethCleanRxRing_ready hs call.budget call.verdict call.outcome).1
    rwa [Nat.min_zero, Nat.zero_sub] at hready
  exact (rxMachine.always_of_step hstep h calls).mono _ fun _ hs => hs.rxOccupancy

/-- A ring that was filled without a failure is full. -/
theorem rxSetup_full (a : SkethAdapter) {k : ℕ} (hk : k ≤ 15) {fill : ℕ → RxAlloc}
    (hfill : ∀ n, (fill n).isMapped) :
    RxReady (rxSetup a (2 ^ k) fill) (rxSetup a (2 ^ k) fill).rxRing.count := by
  obtain ⟨hready, hcount⟩ := rxSetup_ready a hk fill
  rw [hcount]
  rwa [(rxRefilled_eq_iff _ _).mpr fun n _ => hfill n] at hready

end Occupancy

/-- Along every run of polls of a filled ring, the ring is full after the next call in which everything
succeeds, exactly when every call replaces what it takes. -/
theorem refills_iff_noShortfall (a : SkethAdapter) {k : ℕ} (hk : k ≤ 15) {fill : ℕ → RxAlloc}
    (hfill : ∀ n, (fill n).isMapped) (calls : List RxCall) :
    rxMachine.Always Refills (rxSetup a (2 ^ k) fill) calls ↔
      rxMachine.Guarded NoShortfall (rxSetup a (2 ^ k) fill) calls := by
  refine rxMachine.always_iff_guarded (fun s (h : RxReady s s.rxRing.count) => refills_of_full h)
    ?_ ?_ (rxSetup_full a hk hfill) calls
  · intro s call t hs ht hguard
    obtain rfl := Option.some.inj ht
    rw [(skethCleanRxRing_ready hs call.budget call.verdict call.outcome).2]
    exact skethCleanRxRing_full hs hguard
  · intro s call t hs ht hguard
    obtain rfl := Option.some.inj ht
    obtain ⟨occ, hlt, hready⟩ := skethCleanRxRing_short hs hguard
    refine not_refills_of_lt hready ?_
    rwa [(skethCleanRxRing_ready hs call.budget call.verdict call.outcome).2]

/-- The driver's ring of 512 slots, filled, and polled once with a budget of 64 and no failure. -/
theorem refills_iff_noShortfall_driver :
    rxMachine.Always Refills (rxSetup skethProbed (2 ^ 9) RxAlloc.mapped)
        [⟨64, fun _ => ⟨.pass, none, false, false⟩, RxAlloc.mapped⟩] ↔
      rxMachine.Guarded NoShortfall (rxSetup skethProbed (2 ^ 9) RxAlloc.mapped)
        [⟨64, fun _ => ⟨.pass, none, false, false⟩, RxAlloc.mapped⟩] :=
  refills_iff_noShortfall skethProbed (by decide) (fun _ => rfl) _

/-- A poll of the filled ring with a budget of 64, all of whose allocations fail, leaves 448 buffers, and
no later poll brings the others back. -/
theorem refills_short : ¬ rxMachine.Always Refills (rxSetup skethProbed (2 ^ 9) RxAlloc.mapped)
    [⟨64, fun _ => ⟨.pass, none, false, false⟩, fun _ => .noSkb⟩] := by
  intro h
  have hfull : RxReady (rxSetup skethProbed (2 ^ 9) RxAlloc.mapped) _ :=
    rxSetup_full skethProbed (by decide) fun _ => rfl
  obtain ⟨hready, hcount⟩ := skethCleanRxRing_ready hfull 64 (fun _ => ⟨.pass, none, false, false⟩)
    fun _ => .noSkb
  refine not_refills_of_lt hready ?_ (h.2 _ rfl)
  rw [hcount, (rxSetup_ready skethProbed (k := 9) (by decide) RxAlloc.mapped).2]
  decide

end LinuxFunctionTest.Sketh
