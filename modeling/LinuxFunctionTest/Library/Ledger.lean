import Mathlib.Data.List.Count
import Mathlib.Data.Int.Notation

/-!
# Ledgers of acquisitions and releases

A ledger records, newest first, what a program acquires and releases. It is settled when everything
acquired was released as often. The balance of a resource is what is still held of it: it is
additive, so a program that only adds entries is judged by the balance of the entries it adds.
-/

namespace LinuxFunctionTest

/-- An entry of a ledger. -/
inductive LedgerEntry (ρ : Type*) where
  | acquire (r : ρ)
  | release (r : ρ)
  deriving DecidableEq

namespace Ledger

variable {ρ : Type*}

/-- What was acquired. -/
def acquired (ledger : List (LedgerEntry ρ)) : List ρ :=
  ledger.filterMap fun e => match e with | .acquire r => some r | .release _ => none

/-- What was acquired is in the ledger. -/
theorem mem_acquired {l : List (LedgerEntry ρ)} {r : ρ} : r ∈ acquired l ↔ .acquire r ∈ l := by
  rw [acquired, List.mem_filterMap]
  constructor
  · rintro ⟨e, he, heq⟩
    cases e with
    | acquire s =>
      obtain rfl : s = r := by simpa using heq
      exact he
    | release s => exact absurd heq (by simp)
  · exact fun h => ⟨_, h, rfl⟩

/-- Releases acquire nothing. -/
theorem mem_acquired_map_release (rs : List ρ) {l : List (LedgerEntry ρ)} {r : ρ} :
    r ∈ acquired (rs.map .release ++ l) ↔ r ∈ acquired l := by
  simp [mem_acquired]

/-- What was released. -/
def released (ledger : List (LedgerEntry ρ)) : List ρ :=
  ledger.filterMap fun e => match e with | .acquire _ => none | .release r => some r

variable [DecidableEq ρ]

/-- Whatever was acquired was released as often. -/
def Settled (ledger : List (LedgerEntry ρ)) : Prop :=
  ∀ r ∈ acquired ledger, ledger.count (.release r) = ledger.count (.acquire r)

instance (ledger : List (LedgerEntry ρ)) : Decidable (Settled ledger) := by
  unfold Settled
  infer_instance

/-- What is held of a resource. -/
def balance (ledger : List (LedgerEntry ρ)) (r : ρ) : ℤ :=
  (ledger.count (.acquire r) : ℤ) - ledger.count (.release r)

variable (l m : List (LedgerEntry ρ)) (r s : ρ)

@[simp] theorem balance_nil : balance ([] : List (LedgerEntry ρ)) r = 0 := rfl

@[simp] theorem balance_acquire :
    balance (.acquire s :: l) r = balance l r + if s = r then 1 else 0 := by
  simp only [balance, List.count_cons, beq_iff_eq, LedgerEntry.acquire.injEq, reduceCtorEq, if_false,
    Nat.add_zero]
  split <;> omega

@[simp] theorem balance_release :
    balance (.release s :: l) r = balance l r - if s = r then 1 else 0 := by
  simp only [balance, List.count_cons, beq_iff_eq, LedgerEntry.release.injEq, reduceCtorEq, if_false,
    Nat.add_zero]
  split <;> omega

/-- The balance is additive. -/
@[simp] theorem balance_append : balance (l ++ m) r = balance l r + balance m r := by
  simp only [balance, List.count_append]
  omega

/-- The balance does not depend on the order of the entries. -/
@[simp] theorem balance_reverse : balance l.reverse r = balance l r := by
  simp only [balance, List.count_reverse]

/-- Acquisitions raise the balance. -/
@[simp] theorem balance_map_acquire (rs : List ρ) : balance (rs.map .acquire) r = rs.count r := by
  induction rs with
  | nil => rfl
  | cons s rest ih =>
    rw [List.map_cons, balance_acquire, ih, List.count_cons]
    simp only [beq_iff_eq]
    split <;> omega

/-- Releases lower it. -/
@[simp] theorem balance_map_release (rs : List ρ) : balance (rs.map .release) r = -rs.count r := by
  induction rs with
  | nil => rfl
  | cons s rest ih =>
    rw [List.map_cons, balance_release, ih, List.count_cons]
    simp only [beq_iff_eq]
    split <;> omega

variable {l m r}

/-- What is held was acquired. -/
theorem mem_acquired_of_balance_pos (h : 0 < balance l r) : r ∈ acquired l := by
  rw [mem_acquired, ← List.count_pos_iff]
  unfold balance at h
  omega

/-- A ledger is settled when nothing that was acquired is held any more. -/
theorem settled_iff_balance : Settled l ↔ ∀ r ∈ acquired l, balance l r = 0 := by
  unfold Settled balance
  constructor
  · intro h r hr
    rw [h r hr]
    omega
  · intro h r hr
    have := h r hr
    omega

/-- A ledger whose balance counts what some holder has is settled when it has nothing. -/
theorem settled_iff_of_balance {held : ρ → ℕ} (h : ∀ r, balance l r = held r) :
    Settled l ↔ ∀ r, held r = 0 := by
  rw [settled_iff_balance]
  constructor
  · intro hsettled r
    by_contra hne
    have hpos : 0 < balance l r := by
      rw [h r]
      omega
    have hzero := hsettled r (mem_acquired_of_balance_pos hpos)
    omega
  · intro hnone r _
    rw [h r, hnone r]
    rfl

end Ledger

end LinuxFunctionTest
