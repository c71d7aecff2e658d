import Mathlib.Data.List.Sublists
import Mathlib.Order.Basic

/-!
# Ticketed queues

The history of a first-in first-out queue whose entries may also be withdrawn. Every entry gets the
next ticket when it is pushed. Entries leave at the front, where they count as taken, or from
anywhere, without counting. The record carries the fact that tickets were taken in order and that
everything waiting was pushed later, so a history out of order cannot be built.
-/

namespace LinuxFunctionTest

/-- The entries taken so far, oldest first, and those waiting, with their tickets. -/
structure Served (α : Type*) where
  taken : List (ℕ × α)
  waiting : List (ℕ × α)
  issued : ℕ
  ordered : ((taken ++ waiting).map Prod.fst).Pairwise (· < ·)
  bounded : ∀ e ∈ taken ++ waiting, e.1 < issued

namespace Served

variable {α κ : Type*}

/-- Nothing was pushed yet. -/
def empty : Served α := ⟨[], [], 0, List.Pairwise.nil, nofun⟩

/-- Push an entry, with the next ticket. -/
def push (s : Served α) (x : α) : Served α where
  taken := s.taken
  waiting := s.waiting ++ [(s.issued, x)]
  issued := s.issued + 1
  ordered := by
    rw [← List.append_assoc, List.map_append, List.pairwise_append]
    refine ⟨s.ordered, List.pairwise_singleton _ _, fun a ha b hb => ?_⟩
    obtain ⟨e, he, rfl⟩ := List.mem_map.mp ha
    obtain rfl : b = s.issued := by simpa using hb
    exact s.bounded e he
  bounded := by
    intro e he
    rw [← List.append_assoc] at he
    rcases List.mem_append.mp he with he | he
    · exact Nat.lt_succ_of_lt (s.bounded e he)
    · obtain rfl := List.mem_singleton.mp he
      exact Nat.lt_succ_self _

/-- Any part of what waits, in the same order, may stay. -/
def restrict (s : Served α) (waiting : List (ℕ × α)) (h : waiting.Sublist s.waiting) :
    Served α where
  taken := s.taken
  waiting := waiting
  issued := s.issued
  ordered := s.ordered.sublist ((h.append_left s.taken).map Prod.fst)
  bounded := fun e he => s.bounded e ((h.append_left s.taken).subset he)

/-- Take the entry at the front. -/
def serve (s : Served α) : Served α :=
  match h : s.waiting with
  | [] => s
  | e :: rest =>
    { taken := s.taken ++ [e]
      waiting := rest
      issued := s.issued
      ordered := by simpa [h] using s.ordered
      bounded := by simpa [h] using s.bounded }

/-- The entries whose keys are listed, found from the front on. -/
def follow [DecidableEq κ] (key : α → κ) : List (ℕ × α) → List κ → List (ℕ × α)
  | [], _ => []
  | _ :: _, [] => []
  | e :: rest, k :: keys =>
    if key e.2 = k then e :: follow key rest keys else follow key rest (k :: keys)

/-- Followed entries keep their order. -/
theorem follow_sublist [DecidableEq κ] (key : α → κ) (entries : List (ℕ × α)) (keys : List κ) :
    (follow key entries keys).Sublist entries := by
  induction entries generalizing keys with
  | nil => exact List.Sublist.refl _
  | cons e rest ih =>
    cases keys with
    | nil => exact List.nil_sublist _
    | cons k keys =>
      simp only [follow]
      split_ifs
      · exact (ih keys).cons_cons e
      · exact (ih (k :: keys)).cons e

/-- Keys that occur in this order are all found. -/
theorem follow_keys [DecidableEq κ] (key : α → κ) {entries : List (ℕ × α)} {keys : List κ}
    (h : keys.Sublist (entries.map (key ·.2))) : (follow key entries keys).map (key ·.2) = keys := by
  induction entries generalizing keys with
  | nil => exact (List.sublist_nil.mp h).symm
  | cons e rest ih =>
    cases keys with
    | nil => rfl
    | cons k keys =>
      simp only [follow]
      split_ifs with hk
      · subst hk
        rw [List.map_cons, ih (List.cons_sublist_cons.mp h)]
      · refine ih ?_
        rcases List.sublist_cons_iff.mp h with h | ⟨r, hr, -⟩
        · exact h
        · exact absurd (List.cons.inj hr).1.symm hk

/-- The waiting entries with these keys stay. -/
def keep [DecidableEq κ] (s : Served α) (key : α → κ) (keys : List κ) : Served α :=
  s.restrict (follow key s.waiting keys) (follow_sublist key s.waiting keys)

/-- What waits after a push. -/
@[simp] theorem push_waiting (s : Served α) (x : α) :
    (s.push x).waiting = s.waiting ++ [(s.issued, x)] := rfl

/-- A push takes nothing. -/
@[simp] theorem push_taken (s : Served α) (x : α) : (s.push x).taken = s.taken := rfl

/-- Withdrawing entries takes nothing. -/
@[simp] theorem keep_taken [DecidableEq κ] (s : Served α) (key : α → κ) (keys : List κ) :
    (s.keep key keys).taken = s.taken := rfl

/-- What waits after a withdrawal. -/
theorem keep_waiting [DecidableEq κ] {s : Served α} {key : α → κ} {keys : List κ}
    (h : keys.Sublist (s.waiting.map (key ·.2))) :
    (s.keep key keys).waiting.map (key ·.2) = keys := follow_keys key h

/-- Serving moves the front entry from what waits to what was taken. -/
theorem serve_of_cons {s : Served α} {e : ℕ × α} {rest : List (ℕ × α)}
    (h : s.waiting = e :: rest) :
    s.serve.taken = s.taken ++ [e] ∧ s.serve.waiting = rest := by
  unfold serve
  split
  · next hnil => simp [h] at hnil
  · next hcons =>
    obtain ⟨rfl, rfl⟩ := List.cons.inj (h.symm.trans hcons)
    exact ⟨rfl, rfl⟩

end Served

end LinuxFunctionTest
