import Mathlib.Data.List.Count
import Mathlib.Logic.Function.Basic
import Mathlib.Algebra.BigOperators.Group.List.Basic
import Mathlib.Algebra.GroupWithZero.Nat

/-!
# Objects kept in slots

Objects are placed in numbered slots and later taken out again. Conservation says that every
object ever placed is either in exactly one slot and was never taken, or in no slot and was taken
exactly once. Placing a new object in an empty slot, emptying an occupied slot, and taking an
object that was never placed keep the law. Slots that hold lists of objects are counted by sums.
-/

namespace LinuxFunctionTest.Slots

variable {ι : Type*}

/-- Slots hold only objects that were placed. -/
def Recorded (slot : ℕ → Option ι) (placed : List ι) : Prop := ∀ i x, slot i = some x → x ∈ placed

/-- Reading a slot after one of them was filled. -/
theorem filled_iff (slot : ℕ → Option ι) (i j : ℕ) (x y : ι) :
    Function.update slot i (some x) j = some y ↔ (j = i ∧ x = y) ∨ (j ≠ i ∧ slot j = some y) := by
  by_cases hji : j = i <;> simp [hji]

/-- Reading a slot after one of them was emptied. -/
theorem emptied_iff (slot : ℕ → Option ι) (i j : ℕ) (y : ι) :
    Function.update slot i none j = some y ↔ j ≠ i ∧ slot j = some y := by
  by_cases hji : j = i <;> simp [hji]

/-- The record grows with the placed object. -/
theorem Recorded.place {slot : ℕ → Option ι} {placed : List ι} (h : Recorded slot placed)
    (i : ℕ) (x : ι) : Recorded (Function.update slot i (some x)) (x :: placed) := by
  intro j y hj
  rcases (filled_iff slot i j x y).mp hj with ⟨_, rfl⟩ | ⟨_, hj⟩
  · exact List.mem_cons_self
  · exact List.mem_cons_of_mem _ (h j y hj)

/-- Emptying a slot records nothing new. -/
theorem Recorded.take {slot : ℕ → Option ι} {placed : List ι} (h : Recorded slot placed) (i : ℕ) :
    Recorded (Function.update slot i none) placed := fun j y hj =>
  h j y ((emptied_iff slot i j y).mp hj).2

variable [DecidableEq ι]

/-- Every placed object is in exactly one slot, or in none and taken exactly once. -/
def Conserved (slot : ℕ → Option ι) (placed taken : List ι) : Prop :=
  ∀ x ∈ placed,
    (taken.count x = 1 ∧ ∀ i, slot i ≠ some x) ∨
      (taken.count x = 0 ∧ ∃ i, slot i = some x ∧ ∀ j, slot j = some x → j = i)

/-- Nothing was placed yet. -/
theorem conserved_nil (slot : ℕ → Option ι) (taken : List ι) : Conserved slot [] taken := by
  intro x hx
  exact absurd hx List.not_mem_nil

/-- Placing a new object in an empty slot keeps the law. -/
theorem Conserved.place {slot : ℕ → Option ι} {placed taken : List ι}
    (h : Conserved slot placed taken) (hrec : Recorded slot placed) {i : ℕ} {x : ι}
    (hempty : slot i = none) (hplaced : x ∉ placed) (htaken : x ∉ taken) :
    Conserved (Function.update slot i (some x)) (x :: placed) taken := by
  intro y hy
  simp only [filled_iff, ne_eq]
  rcases List.mem_cons.mp hy with rfl | hy
  · refine Or.inr ⟨List.count_eq_zero.mpr htaken, i, Or.inl ⟨rfl, rfl⟩, ?_⟩
    rintro j (⟨hji, _⟩ | ⟨_, hj⟩)
    · exact hji
    · exact absurd (hrec j y hj) hplaced
  · have hxy : x ≠ y := fun heq => hplaced (heq ▸ hy)
    rcases h y hy with ⟨hcount, hno⟩ | ⟨hcount, j, hj, huniq⟩
    · refine Or.inl ⟨hcount, ?_⟩
      rintro k (⟨_, heq⟩ | ⟨_, hk⟩)
      · exact hxy heq
      · exact hno k hk
    · have hji : j ≠ i := by
        rintro rfl
        simp [hempty] at hj
      refine Or.inr ⟨hcount, j, Or.inr ⟨hji, hj⟩, ?_⟩
      rintro k (⟨_, heq⟩ | ⟨_, hk⟩)
      · exact absurd heq hxy
      · exact huniq k hk

/-- Taking the object out of its slot keeps the law. -/
theorem Conserved.take {slot : ℕ → Option ι} {placed taken : List ι}
    (h : Conserved slot placed taken) {i : ℕ} {x : ι}
    (hslot : slot i = some x) :
    Conserved (Function.update slot i none) placed (x :: taken) := by
  intro y hy
  simp only [emptied_iff, ne_eq]
  by_cases hxy : x = y
  · subst hxy
    rcases h x hy with ⟨_, hno⟩ | ⟨hcount, j, _, huniq⟩
    · exact absurd hslot (hno i)
    · refine Or.inl ⟨by rw [List.count_cons_self, hcount], ?_⟩
      rintro k ⟨hki, hk⟩
      exact hki ((huniq k hk).trans (huniq i hslot).symm)
  · rw [List.count_cons_of_ne hxy]
    rcases h y hy with ⟨hcount, hno⟩ | ⟨hcount, j, hj, huniq⟩
    · exact Or.inl ⟨hcount, fun k hk => hno k hk.2⟩
    · have hji : j ≠ i := by
        rintro rfl
        exact hxy (Option.some.inj (hslot.symm.trans hj))
      exact Or.inr ⟨hcount, j, ⟨hji, hj⟩, fun k hk => huniq k hk.2⟩

/-- The order in which objects were taken does not matter. -/
theorem Conserved.perm {slot : ℕ → Option ι} {placed taken taken' : List ι}
    (h : Conserved slot placed taken) (hperm : taken.Perm taken') :
    Conserved slot placed taken' := by
  intro x hx
  rw [← hperm.count_eq x]
  exact h x hx

/-- Taking an object that was never placed keeps the law. -/
theorem Conserved.take_other {slot : ℕ → Option ι} {placed taken : List ι}
    (h : Conserved slot placed taken) {x : ι} (hx : x ∉ placed) :
    Conserved slot placed (x :: taken) := by
  intro y hy
  have hxy : x ≠ y := fun heq => hx (heq ▸ hy)
  rw [List.count_cons_of_ne hxy]
  exact h y hy

/-- The object of a slot was not taken. -/
theorem Conserved.not_taken {slot : ℕ → Option ι} {placed taken : List ι}
    (h : Conserved slot placed taken) (hrec : Recorded slot placed) {i : ℕ} {x : ι}
    (hi : slot i = some x) : taken.count x = 0 := by
  rcases h x (hrec i x hi) with ⟨_, hno⟩ | ⟨hcount, _⟩
  · exact absurd hi (hno i)
  · exact hcount

/-- Replacing the content of one listed slot changes a sum over the slots by the difference. -/
theorem sum_update {α : Type*} {l : List ℕ} (hl : l.Nodup) {i : ℕ} (hi : i ∈ l) (f : ℕ → α)
    (g : α → ℕ) (v : α) :
    (l.map fun j => g (Function.update f i v j)).sum + g (f i) =
      (l.map fun j => g (f j)).sum + g v := by
  induction l with
  | nil => exact absurd hi List.not_mem_nil
  | cons a rest ih =>
    obtain ⟨ha, hrest⟩ := List.nodup_cons.mp hl
    simp only [List.map_cons, List.sum_cons]
    by_cases hai : a = i
    · subst hai
      have hsame : (rest.map fun j => g (Function.update f a v j)) = rest.map fun j => g (f j) := by
        apply List.map_congr_left
        intro j hj
        have hja : j ≠ a := fun heq => ha (heq ▸ hj)
        rw [Function.update_of_ne hja]
      rw [hsame, Function.update_self]
      omega
    · have hmem : i ∈ rest := (List.mem_cons.mp hi).resolve_left (Ne.symm hai)
      have hstep := ih hrest hmem
      rw [Function.update_of_ne hai]
      omega

end LinuxFunctionTest.Slots
