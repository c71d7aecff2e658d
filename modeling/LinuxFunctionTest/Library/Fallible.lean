import Mathlib.Data.List.Basic

/-!
# Computations that may fail

A specification of a computation in `Except` names the exact condition under which it succeeds and
what holds of its result then. Specifications compose along binds and loops, so that the
condition of a whole program is the conjunction of the conditions of its parts.
-/

namespace LinuxFunctionTest

universe u v

variable {ε : Type u} {α β : Type v}

/-- The computation succeeds exactly under the condition, and a result then meets the property. -/
def Fallible (x : Except ε α) (cond : Prop) (post : α → Prop) : Prop :=
  (cond ∧ ∃ a, x = .ok a ∧ post a) ∨ (¬ cond ∧ ∃ e, x = .error e)

namespace Fallible

variable {x : Except ε α} {cond cond' : Prop} {post post' : α → Prop}

/-- A result meets the property, and there is one only under the condition. -/
theorem of_ok (h : Fallible x cond post) {a : α} (ha : x = .ok a) : cond ∧ post a := by
  rcases h with ⟨hcond, b, hb, hpost⟩ | ⟨-, e, he⟩
  · obtain rfl : b = a := Except.ok.inj (hb.symm.trans ha)
    exact ⟨hcond, hpost⟩
  · exact absurd (he.symm.trans ha) (by simp)

/-- A finished computation. -/
theorem ok {a : α} (h : post a) : Fallible (.ok a : Except ε α) True post :=
  Or.inl ⟨trivial, a, rfl, h⟩

/-- A failure. -/
theorem error (e : ε) (h : ¬ cond) : Fallible (.error e : Except ε α) cond post :=
  Or.inr ⟨h, e, rfl⟩

/-- An equivalent condition and a weaker property. -/
theorem mono (h : Fallible x cond post) (hcond : cond ↔ cond') (hpost : ∀ a, post a → post' a) :
    Fallible x cond' post' := by
  rcases h with ⟨hc, a, ha, hp⟩ | ⟨hc, e, he⟩
  · exact Or.inl ⟨hcond.mp hc, a, ha, hpost a hp⟩
  · exact Or.inr ⟨fun h => hc (hcond.mpr h), e, he⟩

/-- One computation after another. -/
theorem bind (h : Fallible x cond post) (next : Prop) {f : α → Except ε β} {last : β → Prop}
    (hf : ∀ a, post a → Fallible (f a) next last) : Fallible (x >>= f) (cond ∧ next) last := by
  rcases h with ⟨hc, a, ha, hp⟩ | ⟨hc, e, he⟩
  · rw [ha]
    exact (hf a hp).mono ⟨fun h => ⟨hc, h⟩, And.right⟩ fun _ => id
  · rw [he]
    exact Or.inr ⟨fun h => hc h.1, e, rfl⟩

/-- A loop over a list: an invariant, and for every round the condition under which it succeeds. -/
theorem foldlM {ι : Type*} {Inv : α → Prop} {cond : ι → Prop} {f : α → ι → Except ε α} (l : List ι)
    (hf : ∀ a i, i ∈ l → Inv a → Fallible (f a i) (cond i) Inv) {a : α} (ha : Inv a) :
    Fallible (l.foldlM f a) (∀ i ∈ l, cond i) Inv := by
  induction l generalizing a with
  | nil => exact Or.inl ⟨fun i hi => absurd hi List.not_mem_nil, a, rfl, ha⟩
  | cons i rest ih =>
    rw [List.foldlM_cons]
    have hrest : ∀ b, Inv b → Fallible (rest.foldlM f b) (∀ j ∈ rest, cond j) Inv :=
      fun b hb => ih (fun c j hj => hf c j (List.mem_cons_of_mem i hj)) hb
    exact ((hf a i List.mem_cons_self ha).bind _ hrest).mono List.forall_mem_cons.symm fun _ => id

/-- A loop whose every round returns the same value. -/
theorem foldlM_fixed {ι : Type*} {f : α → ι → Except ε α} {a : α} {l : List ι}
    (hf : ∀ i ∈ l, f a i = .ok a) : l.foldlM f a = .ok a := by
  induction l with
  | nil => rfl
  | cons i rest ih =>
    rw [List.foldlM_cons, hf i List.mem_cons_self]
    exact ih fun j hj => hf j (List.mem_cons_of_mem i hj)

/-- What every round that succeeds keeps, a loop that succeeds keeps. -/
theorem foldlM_of_ok {ι : Type*} {Inv : α → Prop} {f : α → ι → Except ε α}
    (hf : ∀ a i b, Inv a → f a i = .ok b → Inv b) {l : List ι} {a b : α} (ha : Inv a)
    (h : l.foldlM f a = .ok b) : Inv b := by
  induction l generalizing a with
  | nil => exact Except.ok.inj h ▸ ha
  | cons i rest ih =>
    rw [List.foldlM_cons] at h
    cases hround : f a i with
    | error e =>
      rw [hround] at h
      exact absurd h (by simp [Bind.bind, Except.bind])
    | ok c =>
      rw [hround] at h
      exact ih (hf a i c ha hround) h

/-- A computation that succeeds does so in both of its parts. -/
theorem bind_eq_ok {f : α → Except ε β} {b : β} (h : x >>= f = .ok b) :
    ∃ a, x = .ok a ∧ f a = .ok b := by
  cases x with
  | error e => exact absurd h (by simp [Bind.bind, Except.bind])
  | ok a => exact ⟨a, rfl, h⟩

end Fallible

end LinuxFunctionTest
