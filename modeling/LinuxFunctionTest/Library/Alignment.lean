import Mathlib.Data.Nat.Bitwise
import Mathlib.Data.Nat.Notation
import Mathlib.Algebra.Order.Ring.Nat
import Mathlib.Algebra.Group.Nat.Defs

/-!
# Rounding up by a mask

Adding a mask of low ones and clearing these ones rounds a word up to a multiple of a power of two.
-/

namespace LinuxFunctionTest.Alignment

/-- Round a word of `bits` bits up with the mask `modulus - 1`. -/
def align (bits x modulus : ℕ) : ℕ :=
  ((x + (modulus - 1)) % 2 ^ bits) &&& (2 ^ bits - 1 - (modulus - 1))

/-- Clearing the `k` low bits of a word leaves the multiple of `2 ^ k` below it. -/
theorem and_high_mask {bits k x : ℕ} (hx : x < 2 ^ bits) (hk : k ≤ bits) :
    x &&& (2 ^ bits - 1 - (2 ^ k - 1)) = x / 2 ^ k * 2 ^ k := by
  have hmask : 2 ^ bits - 1 - (2 ^ k - 1) = 2 ^ bits - ((2 ^ k - 1) + 1) := by omega
  have hlow : 2 ^ k - 1 < 2 ^ bits := by
    have := Nat.pow_le_pow_right (n := 2) (by decide) hk
    have := Nat.two_pow_pos k
    omega
  have hshift : x / 2 ^ k * 2 ^ k = (x >>> k) <<< k := by
    rw [Nat.shiftLeft_eq, Nat.shiftRight_eq_div_pow]
  rw [hmask, hshift]
  apply Nat.eq_of_testBit_eq
  intro i
  rw [Nat.testBit_and, Nat.testBit_two_pow_sub_succ hlow, Nat.testBit_two_pow_sub_one,
    Nat.testBit_shiftLeft, Nat.testBit_shiftRight]
  rcases Nat.lt_or_ge i k with hik | hik
  · simp [hik, Nat.not_le.mpr hik]
  · rcases Nat.lt_or_ge i bits with hib | hib
    · simp [hib, hik, Nat.not_lt.mpr hik]
    · have hbit : x.testBit i = false :=
        Nat.testBit_lt_two_pow (Nat.lt_of_lt_of_le hx (Nat.pow_le_pow_right (by decide) hib))
      simp [hbit, hik]

/-- A word is its own lowest bit exactly when it is a power of two. -/
theorem neg_and_self_iff {bits x : ℕ} (hpos : 0 < x) (hx : x < 2 ^ bits) :
    (2 ^ bits - x) &&& x = x ↔ x.isPowerOfTwo := by
  have hpred : 2 ^ bits - x = 2 ^ bits - (x - 1 + 1) := by omega
  have hbit : ∀ i, ((2 ^ bits - x) &&& x).testBit i = (x.testBit i && !(x - 1).testBit i) := by
    intro i
    rw [Nat.testBit_and, hpred, Nat.testBit_two_pow_sub_succ (by omega)]
    rcases Nat.lt_or_ge i bits with hib | hib
    · simp [hib, Bool.and_comm]
    · have hhigh : x.testBit i = false :=
        Nat.testBit_lt_two_pow (Nat.lt_of_lt_of_le hx (Nat.pow_le_pow_right (by decide) hib))
      simp [hhigh]
  rw [← Nat.and_sub_one_eq_zero_iff_isPowerOfTwo hpos.ne']
  constructor
  · intro h
    apply Nat.eq_of_testBit_eq
    intro i
    have hi := hbit i
    rw [h] at hi
    rw [Nat.testBit_and, Nat.zero_testBit]
    cases hlow : x.testBit i <;> simp_all
  · intro h
    apply Nat.eq_of_testBit_eq
    intro i
    have hi : (x &&& (x - 1)).testBit i = false := by rw [h, Nat.zero_testBit]
    rw [Nat.testBit_and] at hi
    rw [hbit]
    cases hlow : x.testBit i <;> simp_all

section PowerOfTwo

variable {bits k x : ℕ}

/-- Rounding up without overflow is the multiple below the sum. -/
theorem align_eq (hk : k ≤ bits) (hx : x + 2 ^ k ≤ 2 ^ bits) :
    align bits x (2 ^ k) = (x + (2 ^ k - 1)) / 2 ^ k * 2 ^ k := by
  have hpos := Nat.two_pow_pos k
  rw [align, Nat.mod_eq_of_lt (by omega), and_high_mask (by omega) hk]

/-- Rounding up does not go down. -/
theorem le_align (hk : k ≤ bits) (hx : x + 2 ^ k ≤ 2 ^ bits) : x ≤ align bits x (2 ^ k) := by
  have hpos := Nat.two_pow_pos k
  have hdiv := Nat.div_add_mod (x + (2 ^ k - 1)) (2 ^ k)
  have hmod := Nat.mod_lt (x + (2 ^ k - 1)) hpos
  rw [align_eq hk hx, Nat.mul_comm]
  omega

/-- Rounding up adds less than the modulus. -/
theorem align_lt (hk : k ≤ bits) (hx : x + 2 ^ k ≤ 2 ^ bits) : align bits x (2 ^ k) < x + 2 ^ k := by
  have hpos := Nat.two_pow_pos k
  have hdiv := Nat.div_mul_le_self (x + (2 ^ k - 1)) (2 ^ k)
  rw [align_eq hk hx]
  omega

/-- A rounded word is a multiple of the modulus. -/
theorem dvd_align (hk : k ≤ bits) (hx : x + 2 ^ k ≤ 2 ^ bits) : 2 ^ k ∣ align bits x (2 ^ k) := by
  rw [align_eq hk hx]
  exact Nat.dvd_mul_left _ _

end PowerOfTwo

end LinuxFunctionTest.Alignment
