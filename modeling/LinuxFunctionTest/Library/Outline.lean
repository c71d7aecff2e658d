import Mathlib.Data.List.Basic
import Mathlib.Data.Nat.Notation

/-!
# Proof outlines of interleaved calls

Calls under way share a state. Each call carries what it is at, an assertion says what holds of the
shared state while a call is there, and a relation says which calls may be under way together. An
outline holds when every call meets its assertion and every two calls may coexist. A step of
one call keeps it when the call reaches its next assertion and interferes with no call it may
coexist with.
-/

namespace LinuxFunctionTest

variable {σ κ : Type*}

/-- Every call meets its assertion, and no two calls are where they may not be together. -/
structure Outline (Holds : σ → κ → Prop) (Apart : κ → κ → Prop) (s : σ) (calls : List κ) : Prop where
  holds : ∀ (k : ℕ) c, calls[k]? = some c → Holds s c
  apart : ∀ (j k : ℕ) c d, calls[j]? = some c → calls[k]? = some d → j ≠ k → Apart c d

namespace Outline

variable {Holds : σ → κ → Prop} {Apart : κ → κ → Prop} {s s' : σ} {calls : List κ}

/-- A call of a list in which one entry was replaced. -/
theorem getElem?_set_cases {k j : ℕ} {c d : κ} (h : (calls.set k c)[j]? = some d) :
    (j = k ∧ d = c) ∨ (j ≠ k ∧ calls[j]? = some d) := by
  by_cases hjk : j = k
  · subst hjk
    rw [List.getElem?_set_self'] at h
    obtain ⟨_, -, hd⟩ := Option.map_eq_some_iff.mp h
    exact Or.inl ⟨rfl, hd.symm⟩
  · rw [List.getElem?_set_ne (Ne.symm hjk)] at h
    exact Or.inr ⟨hjk, h⟩

/-- A call of a list that a new call was appended to. -/
theorem getElem?_append_cases {j : ℕ} {c d : κ} (h : (calls ++ [c])[j]? = some d) :
    (j = calls.length ∧ d = c) ∨ calls[j]? = some d := by
  rw [List.getElem?_append] at h
  split_ifs at h with hj
  · exact Or.inr h
  · have hlt := (List.getElem?_eq_some_iff.mp h).1
    have hzero : j - calls.length = 0 := by simpa using hlt
    rw [hzero] at h
    exact Or.inl ⟨by omega, (Option.some.inj h).symm⟩

/-- A call of a list that one call was taken from. -/
theorem getElem?_eraseIdx_cases {k j : ℕ} {d : κ} (h : (calls.eraseIdx k)[j]? = some d) :
    ∃ i, i ≠ k ∧ calls[i]? = some d ∧ i = if j < k then j else j + 1 := by
  rw [List.getElem?_eraseIdx] at h
  split_ifs at h with hj
  · exact ⟨j, by omega, h, by rw [if_pos hj]⟩
  · exact ⟨j + 1, by omega, h, by rw [if_neg hj]⟩

/-- A step of call `k` from `c` to `c'` keeps the outline if it reaches the next assertion, does not
interfere with the others, and may coexist with them afterwards. -/
theorem advance (h : Outline Holds Apart s calls) {k : ℕ} {c' : κ} (hnext : Holds s' c')
    (hfree : ∀ (j : ℕ) d, j ≠ k → calls[j]? = some d → Holds s' d)
    (hapart : ∀ (j : ℕ) d, j ≠ k → calls[j]? = some d → Apart c' d ∧ Apart d c') :
    Outline Holds Apart s' (calls.set k c') where
  holds := by
    intro j d hd
    rcases getElem?_set_cases hd with ⟨-, rfl⟩ | ⟨hj, hd⟩
    · exact hnext
    · exact hfree j d hj hd
  apart := by
    intro i j d e hd he hij
    rcases getElem?_set_cases hd with ⟨hi, hdc⟩ | ⟨hi, hd'⟩
    · rcases getElem?_set_cases he with ⟨hj, -⟩ | ⟨hj, he'⟩
      · exact absurd (hi.trans hj.symm) hij
      · exact hdc ▸ (hapart j e hj he').1
    · rcases getElem?_set_cases he with ⟨-, hec⟩ | ⟨hj, he'⟩
      · exact hec ▸ (hapart i d hi hd').2
      · exact h.apart i j d e hd' he' hij

/-- A new call whose assertion holds and that may coexist with every other keeps the outline. -/
theorem enter (h : Outline Holds Apart s calls) {c : κ} (hnew : Holds s c)
    (hapart : ∀ d, Apart c d ∧ Apart d c) : Outline Holds Apart s (calls ++ [c]) where
  holds := by
    intro j d hd
    rcases getElem?_append_cases hd with ⟨-, rfl⟩ | hd
    · exact hnew
    · exact h.holds j d hd
  apart := by
    intro i j d e hd he hij
    rcases getElem?_append_cases hd with ⟨-, hdc⟩ | hd'
    · exact hdc ▸ (hapart e).1
    · rcases getElem?_append_cases he with ⟨-, hec⟩ | he'
      · exact hec ▸ (hapart d).2
      · exact h.apart i j d e hd' he' hij

/-- A call that returns keeps the outline if its last step interferes with no other. -/
theorem leave (h : Outline Holds Apart s calls) {k : ℕ}
    (hfree : ∀ (j : ℕ) d, j ≠ k → calls[j]? = some d → Holds s' d) :
    Outline Holds Apart s' (calls.eraseIdx k) where
  holds := by
    intro j d hd
    obtain ⟨i, hi, hd, -⟩ := getElem?_eraseIdx_cases hd
    exact hfree i d hi hd
  apart := by
    intro i j d e hd he hij
    obtain ⟨i', -, hd, hi⟩ := getElem?_eraseIdx_cases hd
    obtain ⟨j', -, he, hj⟩ := getElem?_eraseIdx_cases he
    refine h.apart i' j' d e hd he ?_
    split_ifs at hi hj <;> omega

/-- A step of the environment that interferes with no call keeps the outline. -/
theorem interfere (h : Outline Holds Apart s calls)
    (hfree : ∀ (k : ℕ) c, calls[k]? = some c → Holds s' c) : Outline Holds Apart s' calls where
  holds := hfree
  apart := h.apart

end Outline

end LinuxFunctionTest
