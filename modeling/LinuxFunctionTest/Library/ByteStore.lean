import Mathlib.Data.List.Basic
import Mathlib.Data.Nat.Notation

/-!
# Stores written in intervals

A store holds one value at every offset. A write replaces the values of an interval, a read returns
them. The reference semantics needs no store at all: the value at an offset is the most recent one
that a write put there, or the initial value.
-/

namespace LinuxFunctionTest.ByteStore

variable {α : Type*}

/-- A write of consecutive values from an offset on. -/
structure Write (α : Type*) where
  offset : ℕ
  values : List α

/-- The offset lies in the interval of the write. -/
def Write.Covers (w : Write α) (i : ℕ) : Prop := w.offset ≤ i ∧ i < w.offset + w.values.length

instance (w : Write α) : DecidablePred w.Covers := fun i =>
  inferInstanceAs (Decidable (w.offset ≤ i ∧ i < w.offset + w.values.length))

/-- What the write puts at an offset of its interval. -/
def Write.get? (w : Write α) (i : ℕ) : Option α :=
  if w.offset ≤ i then w.values[i - w.offset]? else none

/-- The value that the most recent write put at an offset; the newest write comes first. -/
def lastWritten (initial : α) (writes : List (Write α)) (i : ℕ) : α :=
  (writes.findSome? fun w => w.get? i).getD initial

/-- Read consecutive values. -/
def read (store : ℕ → α) (offset len : ℕ) : List α :=
  (List.range len).map fun i => store (offset + i)

/-- The newest write comes first, and the writes before it where it does not reach. -/
theorem lastWritten_cons (initial : α) (w : Write α) (writes : List (Write α)) (i : ℕ) :
    lastWritten initial (w :: writes) i = (w.get? i).getD (lastWritten initial writes i) := by
  unfold lastWritten
  rw [List.findSome?_cons]
  cases w.get? i <;> rfl

/-- Reads see only the offsets of their interval. -/
theorem read_congr {store store' : ℕ → α} {offset len : ℕ}
    (h : ∀ i, offset ≤ i → i < offset + len → store i = store' i) :
    read store offset len = read store' offset len := by
  unfold read
  apply List.map_congr_left
  intro i hi
  have hlt := List.mem_range.mp hi
  exact h _ (by omega) (by omega)

/-- The start of what is read is what a shorter read returns. -/
theorem read_take {store : ℕ → α} {offset len n : ℕ} (hn : n ≤ len) :
    (read store offset len).take n = read store offset n := by
  unfold read
  rw [← List.map_take, List.take_range, Nat.min_eq_left hn]

end LinuxFunctionTest.ByteStore
