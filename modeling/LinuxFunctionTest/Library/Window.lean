import Mathlib.Algebra.Group.Nat.Defs
import Mathlib.Data.Nat.Notation

/-!
# Address windows

A window is an interval of addresses, and an access of some length lies inside it or does not. The
same question asked in 64-bit words has the same answer only while the sums are representable: where
the end of the access wraps around, an access may pass that starts behind the window and has no end.
-/

namespace LinuxFunctionTest

/-- The addresses from `start` on, `size` of them. -/
structure Window where
  start : ℕ
  size : ℕ

namespace Window

/-- The window contains the whole interval of the access. -/
def Contains (w : Window) (addr len : ℕ) : Prop := w.start ≤ addr ∧ addr + len ≤ w.start + w.size

/-- The interval of the access passes the end of the words, and what is left of it ends before the
window does. -/
def WrapsInto (w : Window) (addr len : ℕ) : Prop :=
  w.start ≤ addr ∧ 2 ^ 64 ≤ addr + len ∧ addr + len - 2 ^ 64 ≤ w.start + w.size

instance (w : Window) (addr len : ℕ) : Decidable (w.Contains addr len) :=
  inferInstanceAs (Decidable (_ ∧ _))

instance (w : Window) (addr len : ℕ) : Decidable (w.WrapsInto addr len) :=
  inferInstanceAs (Decidable (_ ∧ _ ∧ _))

/-- A window of representable addresses contains no access that wraps around. -/
theorem not_contains_of_wrapsInto {w : Window} {addr len : ℕ} (hend : w.start + w.size < 2 ^ 64)
    (h : w.WrapsInto addr len) : ¬ w.Contains addr len := by
  rintro ⟨-, hcontains⟩
  have hwraps := h.2.1
  omega

/-- The comparison of 64-bit words lets the accesses inside the window pass and those that wrap
around into it. -/
theorem words_iff {start size addr len : UInt64} (hend : start.toNat + size.toNat < 2 ^ 64) :
    start ≤ addr ∧ addr + len ≤ start + size ↔
      (⟨start.toNat, size.toNat⟩ : Window).Contains addr.toNat len.toNat ∨
        (⟨start.toNat, size.toNat⟩ : Window).WrapsInto addr.toNat len.toNat := by
  have haddr := addr.toNat_lt
  have hlen := len.toNat_lt
  rw [UInt64.le_iff_toNat_le, UInt64.le_iff_toNat_le, UInt64.toNat_add, UInt64.toNat_add,
    Nat.mod_eq_of_lt hend]
  simp only [Contains, WrapsInto]
  omega

end Window

end LinuxFunctionTest
