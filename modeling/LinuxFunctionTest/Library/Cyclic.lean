import Mathlib.Data.List.Range
import Mathlib.Data.List.Nodup
import Mathlib.Data.Nat.Bitwise
import Mathlib.Logic.Function.Basic

/-!
# Cyclic index arithmetic

Indices of a ring of `n` slots, the forward distance between two of them, and the list of slots
met on the way. The forward distance from a consumer index to a producer index is the occupancy
of a ring that is never completely full. Masking with `n - 1` is the usual implementation of the
successor when `n` is a power of two.

A window is a ring whose occupied slots are consecutive. Filling the slot after its last one and
emptying its first one keep it a window, also when it covers the whole ring.
-/

namespace LinuxFunctionTest.Cyclic

/-- The index after `i`. -/
def next (n i : ℕ) : ℕ := (i + 1) % n

/-- The index `k` places after `a`. -/
def shift (n a k : ℕ) : ℕ := (a + k) % n

/-- The number of forward steps from `a` to `b`. -/
def dist (n a b : ℕ) : ℕ := (b + n - a) % n

/-- The `k` consecutive indices starting at `a`. -/
def span (n a k : ℕ) : List ℕ := (List.range k).map (shift n a)

/-- Masking with a power of two less one is the cyclic successor. -/
theorem and_mask_eq_next (k i : ℕ) : (i + 1) &&& (2 ^ k - 1) = next (2 ^ k) i := by
  rw [next, Nat.and_two_pow_sub_one_eq_mod]

/-- The successor of an index of the ring, without the modulus. -/
theorem next_eq {n i : ℕ} (hi : i < n) : next n i = if i + 1 = n then 0 else i + 1 := by
  unfold next
  split
  · next h => rw [h, Nat.mod_self]
  · exact Nat.mod_eq_of_lt (by omega)

/-- The forward distance between indices of the ring, without the modulus. -/
theorem dist_eq {n a b : ℕ} (ha : a < n) (hb : b < n) :
    dist n a b = if a ≤ b then b - a else b + n - a := by
  unfold dist
  split
  · next h =>
    have hsplit : b + n - a = (b - a) + n := by omega
    rw [hsplit, Nat.add_mod_right, Nat.mod_eq_of_lt (by omega)]
  · exact Nat.mod_eq_of_lt (by omega)

/-- The index `k` places ahead, without the modulus. -/
theorem shift_eq {n a k : ℕ} (ha : a < n) (hk : k ≤ n) :
    shift n a k = if a + k < n then a + k else a + k - n := by
  unfold shift
  split
  · exact Nat.mod_eq_of_lt (by assumption)
  · rw [Nat.mod_eq_sub_mod (by omega), Nat.mod_eq_of_lt (by omega)]

/-- The successor is an index of the ring. -/
theorem next_lt {n : ℕ} (hn : 0 < n) (i : ℕ) : next n i < n := Nat.mod_lt _ hn

/-- A shifted index is an index of the ring. -/
theorem shift_lt {n : ℕ} (hn : 0 < n) (a k : ℕ) : shift n a k < n := Nat.mod_lt _ hn

/-- Distances are smaller than the ring. -/
theorem dist_lt {n : ℕ} (hn : 0 < n) (a b : ℕ) : dist n a b < n := Nat.mod_lt _ hn

/-- No step leads from an index to itself. -/
@[simp] theorem dist_self (n a : ℕ) : dist n a a = 0 := by
  unfold dist
  rw [Nat.add_sub_cancel_left, Nat.mod_self]

/-- Only equal indices are at distance zero. -/
theorem dist_eq_zero_iff {n a b : ℕ} (ha : a < n) (hb : b < n) : dist n a b = 0 ↔ a = b := by
  rw [dist_eq ha hb]
  split <;> omega

/-- Walking the distance reaches the target. -/
theorem shift_dist {n a b : ℕ} (ha : a < n) (hb : b < n) : shift n a (dist n a b) = b := by
  rw [shift_eq ha (dist_lt (by omega) a b).le, dist_eq ha hb]
  split <;> split <;> omega

/-- The distance to a shifted index is the shift. -/
theorem dist_shift {n a k : ℕ} (ha : a < n) (hk : k < n) : dist n a (shift n a k) = k := by
  rw [dist_eq ha (shift_lt (by omega) a k), shift_eq ha hk.le]
  split <;> split <;> omega

/-- A shift by a positive amount below the size of the ring leaves its start. -/
theorem shift_ne {n a k : ℕ} (ha : a < n) (hpos : 0 < k) (hk : k < n) : shift n a k ≠ a := by
  intro heq
  have hdist := dist_shift ha hk
  rw [heq, dist_self] at hdist
  omega

/-- Advancing the start shortens a positive distance by one. -/
theorem dist_next_left {n a b : ℕ} (ha : a < n) (hb : b < n) (hab : a ≠ b) :
    dist n (next n a) b + 1 = dist n a b := by
  rw [dist_eq (next_lt (by omega) a) hb, dist_eq ha hb, next_eq ha]
  split <;> split <;> split <;> omega

/-- Advancing the end lengthens the distance by one until it wraps to zero. -/
theorem dist_next_right {n a b : ℕ} (ha : a < n) (hb : b < n) :
    dist n a (next n b) = if dist n a b + 1 = n then 0 else dist n a b + 1 := by
  rw [dist_eq ha (next_lt (by omega) b), dist_eq ha hb, next_eq hb]
  split <;> split <;> split <;> split <;> omega

/-- One more place ahead is the successor of the shifted index. -/
theorem next_shift (n a k : ℕ) : next n (shift n a k) = shift n a (k + 1) := by
  simp only [next, shift, Nat.mod_add_mod, Nat.add_assoc]

/-- Shifting from the successor is shifting one place further. -/
theorem shift_next (n a k : ℕ) : shift n (next n a) k = shift n a (k + 1) := by
  simp only [next, shift, Nat.mod_add_mod]
  congr 1
  omega

/-- An index of the ring shifted by nothing is itself. -/
theorem shift_zero {n a : ℕ} (ha : a < n) : shift n a 0 = a := Nat.mod_eq_of_lt ha

/-- A span holds as many entries as its length. -/
@[simp] theorem span_length (n a k : ℕ) : (span n a k).length = k := by
  simp [span]

/-- The empty span. -/
@[simp] theorem span_zero (n a : ℕ) : span n a 0 = [] := rfl

/-- A nonempty span is its start followed by the span of the successor. -/
theorem span_succ {n a : ℕ} (ha : a < n) (k : ℕ) :
    span n a (k + 1) = a :: span n (next n a) k := by
  unfold span
  rw [List.range_succ_eq_map, List.map_cons, List.map_map, shift_zero ha]
  congr 1
  exact List.map_congr_left fun j _ => (shift_next n a j).symm

/-- An index lies in a span exactly when it is closer than the span is long. -/
theorem mem_span {n a k i : ℕ} (ha : a < n) (hi : i < n) (hk : k ≤ n) :
    i ∈ span n a k ↔ dist n a i < k := by
  simp only [span, List.mem_map, List.mem_range]
  constructor
  · rintro ⟨j, hj, rfl⟩
    rwa [dist_shift ha (by omega)]
  · intro h
    exact ⟨dist n a i, h, shift_dist ha hi⟩

/-- Every index of a span is an index of the ring. -/
theorem lt_of_mem_span {n a k i : ℕ} (hn : 0 < n) (hi : i ∈ span n a k) : i < n := by
  obtain ⟨j, _, rfl⟩ := List.mem_map.mp hi
  exact shift_lt hn a j

/-- A span no longer than the ring repeats no index. -/
theorem span_nodup {n a k : ℕ} (ha : a < n) (hk : k ≤ n) : (span n a k).Nodup := by
  refine List.Nodup.map_on ?_ List.nodup_range
  intro i hi j hj hij
  have hi' := dist_shift ha (lt_of_lt_of_le (List.mem_range.mp hi) hk)
  have hj' := dist_shift ha (lt_of_lt_of_le (List.mem_range.mp hj) hk)
  rw [← hi', ← hj', hij]

/-- As many slots of the ring are closer than `k` as a span of `k` has. -/
theorem count_dist_lt {n a k : ℕ} (ha : a < n) (hk : k ≤ n) :
    ((List.range n).filter fun i => decide (dist n a i < k)).length = k := by
  have hperm : ((List.range n).filter fun i => decide (dist n a i < k)).Perm (span n a k) := by
    apply (List.perm_ext_iff_of_nodup (List.nodup_range.filter _) (span_nodup ha hk)).mpr
    intro i
    rw [List.mem_filter, List.mem_range, decide_eq_true_iff]
    constructor
    · rintro ⟨hi, hdist⟩
      exact (mem_span ha hi hk).mpr hdist
    · intro hi
      have hlt := lt_of_mem_span (by omega) hi
      exact ⟨hlt, (mem_span ha hlt hk).mp hi⟩
  rw [hperm.length_eq, span_length]

section Windows

variable {ι : Type*} {n a k : ℕ} {slot : ℕ → Option ι}

/-- The occupied slots are the `k` consecutive ones starting at `a`. -/
structure Window (n a k : ℕ) (slot : ℕ → Option ι) : Prop where
  start_lt : a < n
  le : k ≤ n
  isSome_iff : ∀ i < n, (slot i).isSome ↔ dist n a i < k

/-- An empty ring is a window of length zero. -/
theorem Window.of_none (ha : a < n) (hslot : ∀ i < n, slot i = none) : Window n a 0 slot where
  start_lt := ha
  le := Nat.zero_le n
  isSome_iff := fun i hi => by simp [hslot i hi]

/-- The slot after a window that leaves room is empty. -/
theorem Window.end_none (h : Window n a k slot) (hk : k < n) : slot (shift n a k) = none := by
  have hiff := h.isSome_iff (shift n a k) (shift_lt (by omega) a k)
  rw [dist_shift h.start_lt hk] at hiff
  exact Option.not_isSome_iff_eq_none.mp fun hsome => lt_irrefl k (hiff.mp hsome)

/-- The first slot of a window is occupied unless the window is empty. -/
theorem Window.start_isSome_iff (h : Window n a k slot) : (slot a).isSome ↔ 0 < k := by
  rw [h.isSome_iff a h.start_lt, dist_self]

/-- Filling the slot after a window lengthens it. -/
theorem Window.push (h : Window n a k slot) (hk : k < n) (x : ι) :
    Window n a (k + 1) (Function.update slot (shift n a k) (some x)) where
  start_lt := h.start_lt
  le := hk
  isSome_iff := by
    intro i hi
    by_cases hend : i = shift n a k
    · subst hend
      rw [Function.update_self, dist_shift h.start_lt hk]
      simp
    · have hne : dist n a i ≠ k := fun heq => hend (by rw [← heq, shift_dist h.start_lt hi])
      rw [Function.update_of_ne hend, h.isSome_iff i hi]
      omega

/-- Emptying the first slot of a window shortens it. -/
theorem Window.pop (h : Window n a (k + 1) slot) :
    Window n (next n a) k (Function.update slot a none) where
  start_lt := next_lt (by have := h.start_lt; omega) a
  le := Nat.le_of_succ_le h.le
  isSome_iff := by
    intro i hi
    have hlen := h.le
    by_cases hstart : i = a
    · subst hstart
      have hdist : dist n (next n i) i + 1 = n := by
        rw [dist_eq (next_lt (by omega) i) hi, next_eq hi]
        split <;> split <;> omega
      rw [Function.update_self]
      simp only [Option.isSome_none, Bool.false_eq_true, false_iff]
      omega
    · have hdist := dist_next_left h.start_lt hi (Ne.symm hstart)
      rw [Function.update_of_ne hstart, h.isSome_iff i hi]
      omega

/-- A window occupies as many slots as its length. -/
theorem Window.count (h : Window n a k slot) :
    ((List.range n).filter fun i => (slot i).isSome).length = k := by
  have hfilter : ((List.range n).filter fun i => (slot i).isSome) =
      (List.range n).filter fun i => decide (dist n a i < k) := by
    apply List.filter_congr
    intro i hi
    rw [Bool.eq_iff_iff, decide_eq_true_iff]
    exact h.isSome_iff i (List.mem_range.mp hi)
  rw [hfilter, count_dist_lt h.start_lt h.le]

/-- A slot of the ring is occupied exactly when it lies in the span of the window. -/
theorem Window.isSome_iff_mem_span (h : Window n a k slot) {i : ℕ} (hi : i < n) :
    (slot i).isSome ↔ i ∈ span n a k := by
  rw [h.isSome_iff i hi, mem_span h.start_lt hi h.le]

end Windows

end LinuxFunctionTest.Cyclic
