import Mathlib.Data.List.Basic
import Mathlib.Data.Nat.Notation

/-!
# Chunked streams

A stream that is read in chunks of a fixed size, the last one shorter unless the size divides the
length. A receiver that takes a shorter chunk for the end of a message stops at the first one. Hence
it stops at the end of a stream whose length the size does not divide, and runs on into what follows
otherwise.
-/

namespace LinuxFunctionTest.Chunks

variable {α : Type*} {n : ℕ}

/-- The chunks of `n` elements that a stream is read in. -/
def chunks (n : ℕ) (l : List α) : List (List α) :=
  if _ : n = 0 ∨ l = [] then [] else l.take n :: chunks n (l.drop n)
termination_by l.length
decreasing_by
  have hpos : 0 < l.length := List.length_pos_iff.mpr (by tauto)
  rw [List.length_drop]
  omega

/-- The chunks up to the first one that is shorter than `n`, that one included. -/
def message (n : ℕ) : List (List α) → List (List α)
  | [] => []
  | c :: rest => if c.length < n then [c] else c :: message n rest

/-- All chunks are full. -/
def Full (n : ℕ) (taken : List (List α)) : Prop := ∀ c ∈ taken, c.length = n

/-- The chunks end with a short one, and the others are full. -/
def Closed (n : ℕ) (taken : List (List α)) : Prop :=
  ∃ front c, taken = front ++ [c] ∧ Full n front ∧ c.length < n

/-- An empty stream has no chunk. -/
@[simp] theorem chunks_nil : chunks n ([] : List α) = [] := by
  rw [chunks]
  simp

/-- The first read takes the first chunk. -/
theorem chunks_of_ne_nil (hn : 0 < n) {l : List α} (hl : l ≠ []) :
    chunks n l = l.take n :: chunks n (l.drop n) := by
  rw [chunks, dif_neg]
  rintro (h | h)
  · omega
  · exact hl h

/-- The chunks make up the stream. -/
theorem flatten_chunks (hn : 0 < n) (l : List α) : (chunks n l).flatten = l := by
  induction hlen : l.length using Nat.strongRecOn generalizing l with
  | ind k ih =>
    by_cases hl : l = []
    · rw [hl, chunks_nil, List.flatten_nil]
    · have hpos : 0 < l.length := List.length_pos_iff.mpr hl
      have hdrop := ih (l.drop n).length (by rw [List.length_drop]; omega) (l.drop n) rfl
      rw [chunks_of_ne_nil hn hl, List.flatten_cons, hdrop, List.take_append_drop]

/-- No chunk is longer than a full one. -/
theorem length_le_of_mem_chunks (hn : 0 < n) {l c : List α} (hc : c ∈ chunks n l) : c.length ≤ n := by
  induction hlen : l.length using Nat.strongRecOn generalizing l with
  | ind k ih =>
    by_cases hl : l = []
    · simp [hl] at hc
    · have hpos : 0 < l.length := List.length_pos_iff.mpr hl
      rw [chunks_of_ne_nil hn hl] at hc
      rcases List.mem_cons.mp hc with rfl | hc
      · exact List.length_take_le n l
      · exact ih (l.drop n).length (by rw [List.length_drop]; omega) hc rfl

/-- Full chunks belong to the message. -/
theorem Full.message_append {taken : List (List α)} (h : Full n taken) (rest : List (List α)) :
    message n (taken ++ rest) = taken ++ message n rest := by
  induction taken with
  | nil => rfl
  | cons c taken ih =>
    have hc : ¬ c.length < n := by
      rw [h c List.mem_cons_self]
      exact Nat.lt_irrefl n
    rw [List.cons_append, message, if_neg hc, ih fun d hd => h d (List.mem_cons_of_mem c hd),
      List.cons_append]

/-- The message of full chunks is all of them. -/
theorem Full.message {taken : List (List α)} (h : Full n taken) : message n taken = taken := by
  have happend := h.message_append []
  rwa [List.append_nil, Chunks.message, List.append_nil] at happend

/-- The message ends with the first short chunk. -/
theorem Closed.message_append {taken : List (List α)} (h : Closed n taken) (rest : List (List α)) :
    Chunks.message n (taken ++ rest) = taken := by
  obtain ⟨front, c, rfl, hfull, hc⟩ := h
  rw [List.append_assoc, hfull.message_append, List.singleton_append, Chunks.message, if_pos hc]

/-- Taking one more chunk. -/
theorem Full.take {taken : List (List α)} (h : Full n taken) {c : List α} (hc : c.length ≤ n) :
    if c.length < n then Closed n (taken ++ [c]) else Full n (taken ++ [c]) := by
  split_ifs with hshort
  · exact ⟨taken, c, rfl, h, hshort⟩
  · intro d hd
    rcases List.mem_append.mp hd with hd | hd
    · exact h d hd
    · obtain rfl := List.mem_singleton.mp hd
      omega

/-- The message of a stream runs on into what follows exactly when the size divides its length. -/
theorem message_chunks_append (hn : 0 < n) (l : List α) (rest : List (List α)) :
    message n (chunks n l ++ rest) =
      if l.length % n = 0 then chunks n l ++ message n rest else chunks n l := by
  induction hlen : l.length using Nat.strongRecOn generalizing l with
  | ind k ih =>
    subst hlen
    by_cases hl : l = []
    · rw [hl, chunks_nil, List.length_nil, Nat.zero_mod, if_pos rfl]
      rfl
    · have hpos : 0 < l.length := List.length_pos_iff.mpr hl
      rw [chunks_of_ne_nil hn hl, List.cons_append, message, List.length_take]
      by_cases hshort : l.length < n
      · have hdrop : l.drop n = [] := List.drop_eq_nil_of_le (Nat.le_of_lt hshort)
        rw [if_pos (by omega), Nat.mod_eq_of_lt hshort, if_neg (by omega), hdrop, chunks_nil]
      · have hmod : l.length % n = (l.drop n).length % n := by
          rw [List.length_drop, ← Nat.mod_eq_sub_mod (by omega)]
        rw [if_neg (by omega), ih (l.drop n).length (by rw [List.length_drop]; omega) (l.drop n) rfl,
          hmod]
        split_ifs <;> rfl

/-- The message of a stream with nothing behind it is the stream. -/
theorem message_chunks (hn : 0 < n) (l : List α) : message n (chunks n l) = chunks n l := by
  have happend := message_chunks_append hn l []
  simpa [message] using happend

end LinuxFunctionTest.Chunks
