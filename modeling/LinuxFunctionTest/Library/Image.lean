import LinuxFunctionTest.Library.Bytes
import Mathlib.Data.List.Basic
import Mathlib.Data.List.Infix

/-!
# Records at offsets of a byte image

A byte string read and written in little-endian fields of a fixed width. A field written in the
string is read back, and whatever lies apart from the field is untouched: other fields, and whole
strings held further up. Bytes appended at the end change nothing of what was there.
-/

namespace LinuxFunctionTest.Image

open LinuxFunctionTest.Bytes

/-- The unsigned field of `width` bytes at an offset. -/
def load (data : List UInt8) (offset width : ℕ) : ℕ := ofLE ((data.drop offset).take width)

/-- Overwrite the field of `width` bytes at an offset. -/
def store (data : List UInt8) (offset width value : ℕ) : List UInt8 :=
  data.take offset ++ toLE width value ++ data.drop (offset + width)

/-- The string lies in the image at the offset. -/
def HoldsAt (data : List UInt8) (offset : ℕ) (part : List UInt8) : Prop :=
  offset + part.length ≤ data.length ∧ (data.drop offset).take part.length = part

variable {data : List UInt8} {offset width value : ℕ}

/-- A field is below the power of 256 of its width. -/
theorem load_lt (data : List UInt8) (offset width : ℕ) : load data offset width < 256 ^ width :=
  (ofLE_lt _).trans_le (Nat.pow_le_pow_right (by decide) (List.length_take_le _ _))

/-- Writing a field inside the image keeps its length. -/
theorem store_length (h : offset + width ≤ data.length) (value : ℕ) :
    (store data offset width value).length = data.length := by
  simp only [store, List.length_append, List.length_take, toLE_length, List.length_drop]
  omega

/-- The bytes at or above the end of a written field stay. -/
theorem drop_store {at' : ℕ} (h : offset + width ≤ data.length) (hat : offset + width ≤ at') (value : ℕ) :
    (store data offset width value).drop at' = data.drop at' := by
  have hlen : (data.take offset ++ toLE width value).length = offset + width := by
    simp only [List.length_append, List.length_take, toLE_length]
    omega
  rw [store, List.drop_append, hlen, List.drop_of_length_le (by omega), List.nil_append, List.drop_drop]
  congr 1
  omega

/-- The bytes below a written field stay. -/
theorem take_store {n : ℕ} (h : offset + width ≤ data.length) (hn : n ≤ offset) (value : ℕ) :
    (store data offset width value).take n = data.take n := by
  rw [store, List.append_assoc, List.take_append_of_le_length (by simp only [List.length_take]; omega),
    List.take_take, Nat.min_eq_left hn]

/-- A written field is read back, truncated to its width. -/
theorem load_store (h : offset + width ≤ data.length) (value : ℕ) :
    load (store data offset width value) offset width = value % 256 ^ width := by
  have hlen : (data.take offset).length = offset := by
    simp only [List.length_take]
    omega
  rw [load, store, List.append_assoc, List.drop_append_of_le_length hlen.ge,
    List.drop_of_length_le hlen.le, List.nil_append,
    List.take_append_of_le_length (toLE_length width value).ge,
    List.take_of_length_le (toLE_length width value).le, ofLE_toLE]

/-- A value that fits a written field is read back. -/
theorem load_store_of_lt (h : offset + width ≤ data.length) (hvalue : value < 256 ^ width) :
    load (store data offset width value) offset width = value := by
  rw [load_store h, Nat.mod_eq_of_lt hvalue]

/-- The bytes of an interval apart from a written field stay. -/
theorem slice_store_of_apart {at' len : ℕ} (h : offset + width ≤ data.length)
    (hapart : at' + len ≤ offset ∨ offset + width ≤ at') (value : ℕ) :
    ((store data offset width value).drop at').take len = (data.drop at').take len := by
  rcases hapart with hlow | hhigh
  · rw [List.take_drop, List.take_drop, take_store h hlow]
  · rw [drop_store h hhigh]

/-- A field apart from a written one stays. -/
theorem load_store_of_apart {at' len : ℕ} (h : offset + width ≤ data.length)
    (hapart : at' + len ≤ offset ∨ offset + width ≤ at') (value : ℕ) :
    load (store data offset width value) at' len = load data at' len := by
  rw [load, slice_store_of_apart h hapart, load]

/-- A string apart from a written field stays. -/
theorem HoldsAt.store {at' : ℕ} {part : List UInt8} (hpart : HoldsAt data at' part)
    (h : offset + width ≤ data.length)
    (hapart : at' + part.length ≤ offset ∨ offset + width ≤ at') (value : ℕ) :
    HoldsAt (Image.store data offset width value) at' part := by
  refine ⟨?_, ?_⟩
  · rw [store_length h]
    exact hpart.1
  · rw [slice_store_of_apart h hapart]
    exact hpart.2

/-- Appended bytes do not reach a field of the image. -/
theorem load_append (h : offset + width ≤ data.length) (rest : List UInt8) :
    load (data ++ rest) offset width = load data offset width := by
  rw [load, load, List.drop_append_of_le_length (by omega),
    List.take_append_of_le_length (by simp only [List.length_drop]; omega)]

/-- A field of the appended bytes is read at its place behind the image. -/
theorem load_append_right (data rest : List UInt8) (offset width : ℕ) :
    load (data ++ rest) (data.length + offset) width = load rest offset width := by
  rw [load, load, List.drop_append, List.drop_of_length_le (by omega), List.nil_append]
  congr 3
  omega

/-- Appended bytes leave the strings of the image. -/
theorem HoldsAt.append {part : List UInt8} (h : HoldsAt data offset part) (rest : List UInt8) :
    HoldsAt (data ++ rest) offset part := by
  refine ⟨?_, ?_⟩
  · rw [List.length_append]
    exact Nat.le_add_right_of_le h.1
  · rw [List.drop_append_of_le_length (Nat.le_trans (Nat.le_add_right _ _) h.1),
      List.take_append_of_le_length (by have := h.1; simp only [List.length_drop]; omega)]
    exact h.2

/-- An appended string is held where the image ended. -/
theorem holdsAt_append_self (data part : List UInt8) : HoldsAt (data ++ part) data.length part := by
  refine ⟨(List.length_append ..).ge, ?_⟩
  rw [List.drop_append_of_le_length le_rfl, List.drop_of_length_le le_rfl, List.nil_append,
    List.take_of_length_le le_rfl]

/-- A field of zero bytes is zero. -/
theorem load_replicate_zero (n offset width : ℕ) : load (List.replicate n 0) offset width = 0 := by
  have hzero : ∀ k, ofLE (List.replicate k 0) = 0 := by
    intro k
    induction k with
    | zero => rfl
    | succ k ih => rw [List.replicate_succ, ofLE, ih]; rfl
  rw [load, List.drop_replicate, List.take_replicate, hzero]

end LinuxFunctionTest.Image
