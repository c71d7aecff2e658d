import LinuxFunctionTest.Library.Ledger
import LinuxFunctionTest.Library.Machine
import LinuxFunctionTest.Library.Slots
import LinuxFunctionTest.VirtualPcie.Packet

/-!
# The BAR table

`vpci_bar_map` and `vpci_bar_unmap` under arbitrary sequences of calls, with an `ioremap` that may fail.
The table is consistent when `bar_count` counts the mapped BARs and an unmapped BAR is blank. A call that
maps nothing, because its size is zero or `ioremap` fails, still writes the address and the size, and the
first of the two counts the BAR as well.
-/

namespace LinuxFunctionTest.VirtualPcie

open Errno

/-- `VPCI_MAX_BARS`. -/
def vpciMaxBars : ℕ := 6

/-- The BARs of a device and `bar_count`. Observed, newest first: what `ioremap` mapped and `iounmap`
released. -/
structure VpciBars where
  bars : ℕ → VpciBarInfo
  barCount : ℤ
  mappings : List (LedgerEntry UInt64)

namespace VpciBars

/-- Replace BAR `i`. -/
def setBar (t : VpciBars) (i : ℕ) (bar : VpciBarInfo) : VpciBars :=
  { t with bars := Function.update t.bars i bar }

/-- The number of mapped BARs. -/
def mappedCount (t : VpciBars) : ℕ :=
  ((List.range vpciMaxBars).map fun i => if (t.bars i).addr.isSome then 1 else 0).sum

/-- The number of BARs mapped to an address. -/
def mappedAt (t : VpciBars) (ptr : UInt64) : ℕ :=
  ((List.range vpciMaxBars).map fun i => if (t.bars i).addr = some ptr then 1 else 0).sum

end VpciBars

/-- The number is one of a BAR. -/
def BarNum (barNum : ℤ) : Prop := 0 ≤ barNum ∧ barNum < vpciMaxBars

instance (barNum : ℤ) : Decidable (BarNum barNum) := by
  unfold BarNum
  infer_instance

/-- `vpci_bar_unmap`. -/
def vpciBarUnmap (t : VpciBars) (barNum : ℤ) : VpciBars :=
  if ¬ BarNum barNum then t
  else
    match (t.bars barNum.toNat).addr with
    | some ptr =>
      { t.setBar barNum.toNat ⟨0, 0, none⟩ with
        barCount := t.barCount - 1
        mappings := .release ptr :: t.mappings }
    | none => t

/-- `vpci_bar_map`; `ioremap` is what the function of that name returns if it is called. -/
def vpciBarMap (t : VpciBars) (barNum : ℤ) (addr size : UInt64) (ioremap : Option UInt64) :
    VpciBars × ℤ :=
  if ¬ BarNum barNum then (t, -einval)
  else
    let i := barNum.toNat
    let t := if (t.bars i).addr.isSome then vpciBarUnmap t barNum else t
    let t := t.setBar i { t.bars i with physAddr := addr, size := size }
    if 0 < size then
      match ioremap with
      | none => (t.setBar i { t.bars i with addr := none }, -enomem)
      | some ptr =>
        ({ t.setBar i { t.bars i with addr := some ptr } with
          barCount := t.barCount + 1
          mappings := .acquire ptr :: t.mappings }, 0)
    else ({ t with barCount := t.barCount + 1 }, 0)

/-- A call. -/
inductive BarCall where
  | map (barNum : ℤ) (addr size : UInt64) (ioremap : Option UInt64)
  | unmap (barNum : ℤ)

/-- The table after a call, and the result of the call. -/
def BarCall.run (t : VpciBars) : BarCall → VpciBars × ℤ
  | .map barNum addr size ioremap => vpciBarMap t barNum addr size ioremap
  | .unmap barNum => (vpciBarUnmap t barNum, 0)

/-- A table under calls. Observed, newest first: the table before and after each call that failed. -/
structure BarRun where
  table : VpciBars
  failures : List (VpciBars × VpciBars)

/-- The runs of calls. -/
def barTableMachine : Machine BarRun BarCall where
  step s call :=
    let (table, ret) := call.run s.table
    some
      { table := table
        failures := if ret < 0 then (s.table, table) :: s.failures else s.failures }

/-- The table as `vpci_device_init` leaves it. -/
def barInit : BarRun where
  table := ⟨fun _ => ⟨0, 0, none⟩, 0, []⟩
  failures := []

/-- `bar_count` counts the mapped BARs, and a BAR that is not mapped is blank. -/
structure BarsConsistent (t : VpciBars) : Prop where
  count : t.barCount = t.mappedCount
  blank : ∀ i < vpciMaxBars, (t.bars i).addr = none → (t.bars i).physAddr = 0 ∧ (t.bars i).size = 0

/-- The table is consistent, and no call that failed changed it. -/
structure BarsKept (s : BarRun) : Prop where
  consistent : BarsConsistent s.table
  failures : ∀ f ∈ s.failures, f.2.bars = f.1.bars ∧ f.2.barCount = f.1.barCount

/-- The call does not map a BAR to nothing: it has a size, and `ioremap` succeeds. -/
def MapsSomething (_ : BarRun) : BarCall → Prop
  | .map barNum _ size ioremap => BarNum barNum → 0 < size ∧ ioremap.isSome
  | .unmap _ => True

instance (s : BarRun) (call : BarCall) : Decidable (MapsSomething s call) := by
  cases call <;> unfold MapsSomething <;> infer_instance

section Table

variable {t : VpciBars} {barNum : ℤ}

/-- The index of a BAR. -/
theorem BarNum.lt (h : BarNum barNum) : barNum.toNat < vpciMaxBars := by
  obtain ⟨hnonneg, hlt⟩ := h
  omega

/-- Replacing a BAR changes the number of mapped ones by what it held and what it holds. -/
theorem mappedCount_setBar (t : VpciBars) {i : ℕ} (hi : i < vpciMaxBars) (bar : VpciBarInfo) :
    (t.setBar i bar).mappedCount + (if (t.bars i).addr.isSome then 1 else 0) =
      t.mappedCount + if bar.addr.isSome then 1 else 0 :=
  Slots.sum_update List.nodup_range (List.mem_range.mpr hi) t.bars
    (fun b => if b.addr.isSome then 1 else 0) bar

/-- A BAR that is replaced by a mapped or a blank one leaves the others blank where they are not mapped. -/
theorem BarsConsistent.setBar (h : BarsConsistent t) {i : ℕ} {bar : VpciBarInfo}
    (hbar : bar.addr = none → bar.physAddr = 0 ∧ bar.size = 0) :
    ∀ j < vpciMaxBars, ((t.setBar i bar).bars j).addr = none →
      ((t.setBar i bar).bars j).physAddr = 0 ∧ ((t.setBar i bar).bars j).size = 0 := by
  intro j hj
  by_cases hji : j = i
  · subst hji
    simpa only [VpciBars.setBar, Function.update_self] using hbar
  · simpa only [VpciBars.setBar, Function.update_of_ne hji] using h.blank j hj

/-- `vpci_bar_unmap` keeps the table consistent. -/
theorem vpciBarUnmap_consistent (h : BarsConsistent t) (barNum : ℤ) :
    BarsConsistent (vpciBarUnmap t barNum) := by
  unfold vpciBarUnmap
  by_cases hnum : BarNum barNum
  · rw [if_neg (not_not.mpr hnum)]
    cases haddr : (t.bars barNum.toNat).addr with
    | none => exact h
    | some ptr =>
      have hcount := mappedCount_setBar t hnum.lt ⟨0, 0, none⟩
      simp only [haddr, Option.isSome_some, Option.isSome_none, if_true, Bool.false_eq_true,
        if_false] at hcount
      refine ⟨?_, h.setBar fun _ => ⟨rfl, rfl⟩⟩
      change t.barCount - 1 = ((t.setBar barNum.toNat ⟨0, 0, none⟩).mappedCount : ℤ)
      rw [h.count]
      omega
  · rw [if_pos hnum]
    exact h

/-- `vpci_bar_unmap` leaves its BAR unmapped. -/
theorem vpciBarUnmap_addr (t : VpciBars) (hnum : BarNum barNum) :
    ((vpciBarUnmap t barNum).bars barNum.toNat).addr = none := by
  unfold vpciBarUnmap
  rw [if_neg (not_not.mpr hnum)]
  cases haddr : (t.bars barNum.toNat).addr with
  | none => exact haddr
  | some ptr => simp only [VpciBars.setBar, Function.update_self]

/-- It leaves the other BARs alone. -/
theorem vpciBarUnmap_other (t : VpciBars) {i : ℕ} (hi : i ≠ barNum.toNat) :
    (vpciBarUnmap t barNum).bars i = t.bars i := by
  unfold vpciBarUnmap
  split_ifs
  · split
    · exact Function.update_of_ne hi _ _
    · rfl
  · rfl

/-- A BAR that is not mapped is unmapped already. -/
theorem vpciBarUnmap_of_unmapped (h : (t.bars barNum.toNat).addr = none) :
    vpciBarUnmap t barNum = t := by
  unfold vpciBarUnmap
  rw [h]
  exact ite_self t

/-- `vpci_bar_map` unmaps its BAR, writes the address and the size, and then maps it if it has a size. -/
theorem vpciBarMap_eq (t : VpciBars) (hnum : BarNum barNum) (addr size : UInt64)
    (ioremap : Option UInt64) : vpciBarMap t barNum addr size ioremap =
      let u := vpciBarUnmap t barNum
      if 0 < size then
        match ioremap with
        | none => (u.setBar barNum.toNat ⟨addr, size, none⟩, -enomem)
        | some ptr =>
          ({ u.setBar barNum.toNat ⟨addr, size, some ptr⟩ with
            barCount := u.barCount + 1
            mappings := .acquire ptr :: u.mappings }, 0)
      else ({ u.setBar barNum.toNat ⟨addr, size, none⟩ with barCount := u.barCount + 1 }, 0) := by
  have hunmap : (if (t.bars barNum.toNat).addr.isSome then vpciBarUnmap t barNum else t) =
      vpciBarUnmap t barNum := by
    split_ifs with hmapped
    · rfl
    · exact (vpciBarUnmap_of_unmapped (by simpa using hmapped)).symm
  have haddr := vpciBarUnmap_addr t hnum
  unfold vpciBarMap
  simp only [if_neg (not_not.mpr hnum), hunmap]
  generalize vpciBarUnmap t barNum = u at haddr ⊢
  simp only [VpciBars.setBar, Function.update_self, Function.update_idem, haddr]

/-- A call that maps a BAR to something keeps the table consistent, and one that fails changes nothing. -/
theorem vpciBarMap_consistent (h : BarsConsistent t) {addr size : UInt64} {ioremap : Option UInt64}
    (hmaps : BarNum barNum → 0 < size ∧ ioremap.isSome) :
    BarsConsistent (vpciBarMap t barNum addr size ioremap).1 ∧
      ((vpciBarMap t barNum addr size ioremap).2 < 0 →
        (vpciBarMap t barNum addr size ioremap).1 = t) := by
  by_cases hnum : BarNum barNum
  · obtain ⟨hsize, hioremap⟩ := hmaps hnum
    obtain ⟨ptr, rfl⟩ := Option.isSome_iff_exists.mp hioremap
    have hu := vpciBarUnmap_consistent h barNum
    have haddr := vpciBarUnmap_addr t hnum
    rw [vpciBarMap_eq t hnum]
    generalize vpciBarUnmap t barNum = u at hu haddr ⊢
    simp only [if_pos hsize]
    have hcount := mappedCount_setBar u hnum.lt ⟨addr, size, some ptr⟩
    simp only [haddr, Option.isSome_some, Option.isSome_none, if_true, Bool.false_eq_true,
      if_false] at hcount
    refine ⟨⟨?_, hu.setBar fun hnone => absurd hnone (by simp)⟩, fun hfail => absurd hfail (by simp)⟩
    change u.barCount + 1 = ((u.setBar barNum.toNat ⟨addr, size, some ptr⟩).mappedCount : ℤ)
    rw [hu.count]
    omega
  · unfold vpciBarMap
    rw [if_pos hnum]
    exact ⟨h, fun _ => rfl⟩

/-- A call that maps a BAR to nothing leaves the table inconsistent: it counts a BAR that is not mapped, or
leaves the size in one. -/
theorem vpciBarMap_inconsistent (h : BarsConsistent t) {addr size : UInt64} {ioremap : Option UInt64}
    (hnum : BarNum barNum) (hnothing : ¬ (0 < size ∧ ioremap.isSome)) :
    ¬ BarsConsistent (vpciBarMap t barNum addr size ioremap).1 := by
  have hu := vpciBarUnmap_consistent h barNum
  have haddr := vpciBarUnmap_addr t hnum
  rw [vpciBarMap_eq t hnum]
  generalize vpciBarUnmap t barNum = u at hu haddr ⊢
  intro hcons
  by_cases hsize : 0 < size
  · obtain rfl : ioremap = none := by simpa [hsize] using hnothing
    simp only [if_pos hsize] at hcons
    have hblank := (hcons.blank barNum.toNat hnum.lt (by simp [VpciBars.setBar])).2
    simp only [VpciBars.setBar, Function.update_self] at hblank
    exact absurd hsize (by simp [hblank])
  · simp only [if_neg hsize] at hcons
    have hcount := mappedCount_setBar u hnum.lt ⟨addr, size, none⟩
    simp only [haddr, Option.isSome_none, Bool.false_eq_true, if_false] at hcount
    have hcounted : u.barCount + 1 =
        ((u.setBar barNum.toNat ⟨addr, size, none⟩).mappedCount : ℤ) := hcons.count
    rw [hu.count] at hcounted
    omega

end Table

section Mappings

variable {t : VpciBars}

/-- What was mapped and not unmapped is what the BARs point to. -/
def MappingsKept (t : VpciBars) : Prop := ∀ ptr, Ledger.balance t.mappings ptr = t.mappedAt ptr

/-- Replacing a BAR changes the number of BARs mapped to an address likewise. -/
theorem mappedAt_setBar (t : VpciBars) {i : ℕ} (hi : i < vpciMaxBars) (bar : VpciBarInfo) (ptr : UInt64) :
    (t.setBar i bar).mappedAt ptr + (if (t.bars i).addr = some ptr then 1 else 0) =
      t.mappedAt ptr + if bar.addr = some ptr then 1 else 0 :=
  Slots.sum_update List.nodup_range (List.mem_range.mpr hi) t.bars
    (fun b => if b.addr = some ptr then 1 else 0) bar

/-- `vpci_bar_unmap` releases what it takes from its BAR. -/
theorem vpciBarUnmap_mappings (h : MappingsKept t) (barNum : ℤ) : MappingsKept (vpciBarUnmap t barNum) := by
  unfold vpciBarUnmap
  by_cases hnum : BarNum barNum
  · rw [if_neg (not_not.mpr hnum)]
    cases haddr : (t.bars barNum.toNat).addr with
    | none => exact h
    | some p =>
      intro ptr
      have hcount := mappedAt_setBar t hnum.lt ⟨0, 0, none⟩ ptr
      simp only [haddr, Option.some.injEq, reduceCtorEq, if_false] at hcount
      change Ledger.balance (.release p :: t.mappings) ptr =
        ((t.setBar barNum.toNat ⟨0, 0, none⟩).mappedAt ptr : ℤ)
      rw [Ledger.balance_release, h ptr]
      split_ifs at hcount ⊢ <;> omega
  · rw [if_pos hnum]
    exact h

/-- A BAR that points to nothing may take a mapping, which is then recorded, or stay without one. -/
theorem MappingsKept.setBar (h : MappingsKept t) {i : ℕ} (hi : i < vpciMaxBars)
    (hnone : (t.bars i).addr = none) (bar : VpciBarInfo) (barCount : ℤ) :
    MappingsKept ⟨(t.setBar i bar).bars, barCount,
      bar.addr.toList.map LedgerEntry.acquire ++ t.mappings⟩ := by
  intro ptr
  have hcount := mappedAt_setBar t hi bar ptr
  simp only [hnone, reduceCtorEq, if_false, Nat.add_zero] at hcount
  change Ledger.balance _ ptr = ((t.setBar i bar).mappedAt ptr : ℤ)
  rw [hcount, Ledger.balance_append, h ptr, Ledger.balance_map_acquire]
  cases bar.addr with
  | none => simp
  | some p =>
    simp only [Option.toList_some, List.count_singleton, beq_iff_eq, Option.some.injEq]
    split_ifs <;> omega

/-- Every call keeps the record of the mappings. -/
theorem BarCall.run_mappings (h : MappingsKept t) (call : BarCall) : MappingsKept (call.run t).1 := by
  cases call with
  | unmap barNum => exact vpciBarUnmap_mappings h barNum
  | map barNum addr size ioremap =>
    simp only [BarCall.run]
    by_cases hnum : BarNum barNum
    · have hu := vpciBarUnmap_mappings h barNum
      have haddr := vpciBarUnmap_addr t hnum
      rw [vpciBarMap_eq t hnum]
      generalize vpciBarUnmap t barNum = u at hu haddr ⊢
      simp only
      split_ifs with hsize
      · cases ioremap with
        | none => exact hu.setBar hnum.lt haddr ⟨addr, size, none⟩ u.barCount
        | some ptr => exact hu.setBar hnum.lt haddr ⟨addr, size, some ptr⟩ (u.barCount + 1)
      · exact hu.setBar hnum.lt haddr ⟨addr, size, none⟩ (u.barCount + 1)
    · unfold vpciBarMap
      rw [if_pos hnum]
      exact h

/-- Everything mapped was unmapped when no BAR points anywhere. -/
theorem MappingsKept.settled_iff (h : MappingsKept t) :
    Ledger.Settled t.mappings ↔ ∀ i < vpciMaxBars, (t.bars i).addr = none := by
  rw [Ledger.settled_iff_of_balance h]
  constructor
  · intro hzero i hi
    cases haddr : (t.bars i).addr with
    | none => rfl
    | some ptr =>
      have hterm := List.sum_eq_zero_iff_forall_eq_nat.mp (hzero ptr) _
        (List.mem_map.mpr ⟨i, List.mem_range.mpr hi, rfl⟩)
      simp [haddr] at hterm
  · intro hnone ptr
    refine List.sum_eq_zero_iff_forall_eq_nat.mpr fun n hn => ?_
    obtain ⟨i, hi, rfl⟩ := List.mem_map.mp hn
    simp [hnone i (List.mem_range.mp hi)]

end Mappings

section Runs

variable {s s' : BarRun} {call : BarCall}

/-- A call that maps no BAR to nothing keeps what is promised of the table. -/
theorem barTableMachine_step_kept (h : BarsKept s) (hs : barTableMachine.step s call = some s')
    (hmaps : MapsSomething s call) : BarsKept s' := by
  obtain rfl := Option.some.inj hs
  have hcall : BarsConsistent (call.run s.table).1 ∧
      ((call.run s.table).2 < 0 → (call.run s.table).1 = s.table) := by
    cases call with
    | map barNum addr size ioremap => exact vpciBarMap_consistent h.consistent hmaps
    | unmap barNum =>
      exact ⟨vpciBarUnmap_consistent h.consistent barNum,
        fun hfail => absurd hfail (by simp [BarCall.run])⟩
  refine ⟨hcall.1, fun f hf => ?_⟩
  simp only at hf
  split_ifs at hf with hfail
  · rcases List.mem_cons.mp hf with rfl | hf
    · have hsame := hcall.2 hfail
      exact ⟨congrArg VpciBars.bars hsame, congrArg VpciBars.barCount hsame⟩
    · exact h.failures f hf
  · exact h.failures f hf

/-- A call that maps a BAR to nothing breaks it. -/
theorem barTableMachine_step_broken (h : BarsKept s) (hs : barTableMachine.step s call = some s')
    (hmaps : ¬ MapsSomething s call) : ¬ BarsKept s' := by
  obtain rfl := Option.some.inj hs
  cases call with
  | map barNum addr size ioremap =>
    obtain ⟨hnum, hnothing⟩ := Classical.not_imp.mp hmaps
    exact fun hkept => vpciBarMap_inconsistent h.consistent hnum hnothing hkept.consistent
  | unmap barNum => exact absurd trivial hmaps

/-- The table of `vpci_device_init` is consistent. -/
theorem barInit_kept : BarsKept barInit :=
  ⟨⟨rfl, fun _ _ _ => ⟨rfl, rfl⟩⟩, fun _ hf => absurd hf List.not_mem_nil⟩

end Runs

/-- Along every sequence of calls the table is consistent and failed calls leave it alone, exactly when every
call of `vpci_bar_map` for one of the BARs has a size above zero and its `ioremap` succeeds. -/
theorem barsKept_iff_mapsSomething (calls : List BarCall) :
    barTableMachine.Always BarsKept barInit calls ↔
      barTableMachine.Guarded MapsSomething barInit calls :=
  barTableMachine.always_iff_guarded (fun _ h => h) (fun _ _ _ => barTableMachine_step_kept)
    (fun _ _ _ => barTableMachine_step_broken) barInit_kept calls

/-- A BAR of size zero is counted, and one whose `ioremap` fails keeps its address and its size. -/
theorem barsKept_broken :
    (¬ barTableMachine.Always BarsKept barInit [.map 0 0x1000 0 none]) ∧
      ¬ barTableMachine.Always BarsKept barInit [.map 0 0x1000 0x100 none] := by
  constructor
  · intro h
    have hkept := h.of_reached barTableMachine (List.prefix_refl _) rfl
    exact absurd hkept.consistent.count (by decide)
  · intro h
    have hkept := h.of_reached barTableMachine (List.prefix_refl _) rfl
    exact absurd (hkept.consistent.blank 0 (by decide) (by decide)).2 (by decide)

end LinuxFunctionTest.VirtualPcie
