import Mathlib.Data.Nat.Notation
import Mathlib.Algebra.Order.Ring.Nat
import Mathlib.Tactic.Ring

/-!
# Fixed-width little-endian bytes and byte order

An unsigned value of `k` bytes, its memory image on a little-endian host, and the reversal of
that image. Converting to network byte order and back is the same reversal, so it undoes itself.
-/

namespace LinuxFunctionTest.Bytes

/-- The `k` low bytes of a value, lowest first. -/
def toLE : ℕ → ℕ → List UInt8
  | 0, _ => []
  | k + 1, n => UInt8.ofNat n :: toLE k (n / 256)

/-- The value of a little-endian byte string. -/
def ofLE : List UInt8 → ℕ
  | [] => 0
  | b :: rest => b.toNat + 256 * ofLE rest

/-- Reverse the order of the `k` low bytes of a value. -/
def byteSwap (k n : ℕ) : ℕ := ofLE (toLE k n).reverse

/-- The image has the requested width. -/
@[simp] theorem toLE_length (k n : ℕ) : (toLE k n).length = k := by
  induction k generalizing n with
  | zero => rfl
  | succ k ih => simp [toLE, ih]

/-- A byte string of length `k` denotes a value of `k` bytes. -/
theorem ofLE_lt (bytes : List UInt8) : ofLE bytes < 256 ^ bytes.length := by
  induction bytes with
  | nil => simp [ofLE]
  | cons b rest ih =>
    have hb : b.toNat < 256 := b.toNat_lt
    simp only [ofLE, List.length_cons, pow_succ]
    omega

/-- Reading an image back gives the value truncated to the width. -/
theorem ofLE_toLE (k n : ℕ) : ofLE (toLE k n) = n % 256 ^ k := by
  induction k generalizing n with
  | zero => simp [toLE, ofLE, Nat.mod_one]
  | succ k ih =>
    have hb : (UInt8.ofNat n).toNat = n % 256 := by simp [UInt8.toNat_ofNat']
    rw [toLE, ofLE, ih, hb, pow_succ', Nat.mod_mul]

/-- Every byte string is the image of the value it denotes. -/
theorem toLE_ofLE (bytes : List UInt8) : toLE bytes.length (ofLE bytes) = bytes := by
  induction bytes with
  | nil => rfl
  | cons b rest ih =>
    have hb : b.toNat < 256 := b.toNat_lt
    have hdiv : (b.toNat + 256 * ofLE rest) / 256 = ofLE rest := by omega
    have hhead : UInt8.ofNat (b.toNat + 256 * ofLE rest) = b := by
      apply UInt8.toNat_inj.mp
      rw [UInt8.toNat_ofNat']
      omega
    simp only [ofLE, List.length_cons, toLE, hdiv, hhead, ih]

/-- The image of a value is that of its low bytes followed by that of the others. -/
theorem toLE_add (k m n : ℕ) : toLE (k + m) n = toLE k n ++ toLE m (n / 256 ^ k) := by
  induction k generalizing n with
  | zero => simp [toLE]
  | succ k ih =>
    rw [Nat.succ_add, toLE, ih, toLE, List.cons_append, pow_succ', Nat.div_div_eq_div_mul]

/-- Bytes behind others count by the width of those. -/
theorem ofLE_append (left right : List UInt8) :
    ofLE (left ++ right) = ofLE left + 256 ^ left.length * ofLE right := by
  induction left with
  | nil => simp [ofLE]
  | cons b rest ih =>
    rw [List.cons_append, ofLE, ih, ofLE, List.length_cons, pow_succ']
    ring

/-- A swapped value fits its width. -/
theorem byteSwap_lt (k n : ℕ) : byteSwap k n < 256 ^ k := by
  have h := ofLE_lt (toLE k n).reverse
  rwa [List.length_reverse, toLE_length] at h

/-- The image of a swapped value is the reversed image. -/
theorem toLE_byteSwap (k n : ℕ) : toLE k (byteSwap k n) = (toLE k n).reverse := by
  have h := toLE_ofLE (toLE k n).reverse
  rwa [List.length_reverse, toLE_length] at h

/-- The low bytes of a swapped value are the swapped high bytes. -/
theorem byteSwap_mod (m k n : ℕ) : byteSwap (m + k) n % 256 ^ k = byteSwap k (n / 256 ^ m) := by
  have hlen : (toLE k (n / 256 ^ m)).reverse.length = k := by simp
  rw [byteSwap, toLE_add, List.reverse_append, ofLE_append, hlen, Nat.add_mul_mod_self_left,
    ← byteSwap, Nat.mod_eq_of_lt (byteSwap_lt k _)]

/-- Swapping twice restores every value of the width. -/
theorem byteSwap_byteSwap {k n : ℕ} (hn : n < 256 ^ k) : byteSwap k (byteSwap k n) = n := by
  rw [byteSwap, toLE_byteSwap, List.reverse_reverse, ofLE_toLE, Nat.mod_eq_of_lt hn]

/-- Reverse the bytes of a 16-bit value. -/
def swap16 (x : UInt16) : UInt16 := UInt16.ofNat (byteSwap 2 x.toNat)

/-- Reverse the bytes of a 32-bit value. -/
def swap32 (x : UInt32) : UInt32 := UInt32.ofNat (byteSwap 4 x.toNat)

/-- Reverse the bytes of a 64-bit value. -/
def swap64 (x : UInt64) : UInt64 := UInt64.ofNat (byteSwap 8 x.toNat)

/-- The value of a reversed 16-bit value. -/
theorem toNat_swap16 (x : UInt16) : (swap16 x).toNat = byteSwap 2 x.toNat := by
  rw [swap16, UInt16.toNat_ofNat']
  exact Nat.mod_eq_of_lt (byteSwap_lt 2 _)

/-- The value of a reversed 32-bit value. -/
theorem toNat_swap32 (x : UInt32) : (swap32 x).toNat = byteSwap 4 x.toNat := by
  rw [swap32, UInt32.toNat_ofNat']
  exact Nat.mod_eq_of_lt (byteSwap_lt 4 _)

/-- The value of a reversed 64-bit value. -/
theorem toNat_swap64 (x : UInt64) : (swap64 x).toNat = byteSwap 8 x.toNat := by
  rw [swap64, UInt64.toNat_ofNat']
  exact Nat.mod_eq_of_lt (byteSwap_lt 8 _)

/-- Reversing a 16-bit value twice restores it. -/
@[simp] theorem swap16_swap16 (x : UInt16) : swap16 (swap16 x) = x := by
  apply UInt16.toNat_inj.mp
  rw [toNat_swap16, toNat_swap16, byteSwap_byteSwap x.toNat_lt]

/-- Reversing a 32-bit value twice restores it. -/
@[simp] theorem swap32_swap32 (x : UInt32) : swap32 (swap32 x) = x := by
  apply UInt32.toNat_inj.mp
  rw [toNat_swap32, toNat_swap32, byteSwap_byteSwap x.toNat_lt]

/-- Reversing a 64-bit value twice restores it. -/
@[simp] theorem swap64_swap64 (x : UInt64) : swap64 (swap64 x) = x := by
  apply UInt64.toNat_inj.mp
  rw [toNat_swap64, toNat_swap64, byteSwap_byteSwap x.toNat_lt]

end LinuxFunctionTest.Bytes
