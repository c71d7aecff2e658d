import Mathlib.Data.BitVec

/-!
# Flag words

A flag word is a machine word whose bits are edited through masks: `set` and `clear` are the C
idioms `word |= mask` and `word &= ~mask`, and `Any` is the test `word & mask`. The rules say what a
test sees after an edit, for arbitrary masks; between concrete masks the side conditions compute.
-/

namespace LinuxFunctionTest.Flags

variable {w : ℕ} (word edit mask : BitVec w)

/-- `word & mask`: some bit of the mask is set. -/
def Any : Prop := word &&& mask ≠ 0#w

/-- `word |= edit`. -/
def set : BitVec w := word ||| edit

/-- `word &= ~edit`. -/
def clear : BitVec w := word &&& ~~~edit

instance : Decidable (Any word mask) := inferInstanceAs (Decidable (_ ≠ _))

/-- After setting bits a test sees the old bits and the new ones. -/
theorem any_set : Any (set word edit) mask ↔ Any word mask ∨ Any edit mask := by
  rw [Any, set, BitVec.and_or_distrib_right, ne_eq, BitVec.or_eq_zero_iff, not_and_or]
  rfl

/-- Setting some of the tested bits makes the test succeed. -/
theorem any_set_of_any (h : Any edit mask) : Any (set word edit) mask :=
  (any_set word edit mask).mpr (Or.inr h)

/-- Setting other bits leaves a test alone. -/
theorem any_set_of_apart (h : edit &&& mask = 0#w) : Any (set word edit) mask ↔ Any word mask := by
  rw [any_set]
  exact or_iff_left (not_not.mpr h)

/-- Clearing other bits leaves a test alone. -/
theorem any_clear_of_apart (h : edit &&& mask = 0#w) : Any (clear word edit) mask ↔ Any word mask := by
  have hkeep : ~~~edit &&& mask = mask := by
    ext i hi
    have hbit : (edit &&& mask)[i] = false := by rw [h, BitVec.getElem_zero]
    rw [BitVec.getElem_and] at hbit
    rw [BitVec.getElem_and, BitVec.getElem_not]
    revert hbit
    cases edit[i] <;> cases mask[i] <;> simp
  rw [Any, clear, BitVec.and_assoc, hkeep, Any]

/-- A part of a mask is apart from what the mask is apart from. -/
theorem part_apart {all part tested : BitVec w} (hpart : all &&& part = part)
    (h : all &&& tested = 0#w) : part &&& tested = 0#w := by
  rw [← hpart, BitVec.and_comm all, BitVec.and_assoc, h, BitVec.and_zero]

/-- Clearing all of the tested bits makes the test fail. -/
theorem not_any_clear (h : ~~~edit &&& mask = 0#w) : ¬ Any (clear word edit) mask := by
  rw [Any, clear, BitVec.and_assoc, h, not_not]
  exact BitVec.and_zero

/-- Clearing bits lets no test succeed that did not before. -/
theorem any_of_any_clear (h : Any (clear word edit) mask) : Any word mask := by
  intro hnone
  apply h
  rw [clear, BitVec.and_assoc, BitVec.and_comm (~~~edit), ← BitVec.and_assoc, hnone,
    BitVec.zero_and]

/-- The test of a single bit. -/
theorem any_twoPow (i : ℕ) : Any word (BitVec.twoPow w i) ↔ word.getLsbD i = true := by
  rw [Any, BitVec.and_twoPow]
  by_cases hbit : word.getLsbD i = true
  · rw [if_pos hbit]
    simp only [hbit, iff_true]
    intro hzero
    have hone : (BitVec.twoPow w i).getLsbD i = false := by rw [hzero, BitVec.getLsbD_zero]
    rw [BitVec.getLsbD_twoPow] at hone
    simp [BitVec.lt_of_getLsbD hbit] at hone
  · rw [if_neg hbit]
    simp [hbit]

/-- Between two words only bits of `sets` were set and only bits of `clears` were cleared. -/
structure Edit (sets clears before after : BitVec w) : Prop where
  rise : ∀ mask, sets &&& mask = 0#w → Any after mask → Any before mask
  fall : ∀ mask, clears &&& mask = 0#w → Any before mask → Any after mask

namespace Edit

variable {sets clears before after : BitVec w}

/-- Nothing was edited. -/
theorem refl : Edit sets clears before before where
  rise _ _ h := h
  fall _ _ h := h

/-- Some more bits of `sets` are set. -/
theorem set (h : Edit sets clears before after) (mask : BitVec w) (hpart : sets &&& mask = mask) :
    Edit sets clears before (Flags.set after mask) where
  rise tested htested hany := by
    apply h.rise tested htested
    exact (any_set_of_apart after mask tested (part_apart hpart htested)).mp hany
  fall tested htested hany := (any_set after mask tested).mpr (Or.inl (h.fall tested htested hany))

/-- Some more bits of `clears` are cleared. -/
theorem clear (h : Edit sets clears before after) (mask : BitVec w)
    (hpart : clears &&& mask = mask) : Edit sets clears before (Flags.clear after mask) where
  rise tested htested hany := h.rise tested htested (any_of_any_clear after mask tested hany)
  fall tested htested hany := by
    apply (any_clear_of_apart after mask tested (part_apart hpart htested)).mpr
    exact h.fall tested htested hany

/-- A test apart from both masks sees no difference. -/
theorem any_iff (h : Edit sets clears before after) (mask : BitVec w)
    (hsets : sets &&& mask = 0#w) (hclears : clears &&& mask = 0#w) :
    Any after mask ↔ Any before mask :=
  ⟨h.rise mask hsets, h.fall mask hclears⟩

end Edit

end LinuxFunctionTest.Flags
