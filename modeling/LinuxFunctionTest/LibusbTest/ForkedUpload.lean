import LinuxFunctionTest.LibusbTest.Framing
import Mathlib.Logic.Function.Basic

/-!
# The upload of a forked client

`libusb_usb_client` forks in `libusb_read_bulk`. The child waits for one transfer from the device and
returns like the parent, so that both run the sending loop of `main` on one file descriptor and share
its offset. Each read gets the next chunk, but the chunks arrive in the order of the transfers. The
file arrives as it is exactly when no chunk overtakes one that it could not be swapped with.
-/

namespace LinuxFunctionTest.LibusbTest

/-- The two processes. -/
inductive Process where
  | parent
  | child
  deriving DecidableEq

/-- The other process. -/
def Process.other : Process → Process
  | .parent => .child
  | .child => .parent

/-- Where a process is: the child in its transfer from the device, about to read, about to send the
chunk it read at an offset, or behind the loop. -/
inductive ProcessPc where
  | receiving
  | reading
  | sending (start : ℕ) (chunk : List UInt8)
  | ended
  deriving DecidableEq

/-- The shared offset, the processes, and the chunks that arrived at the device. -/
structure ForkedUpload where
  offset : ℕ
  pc : Process → ProcessPc
  arrived : List (List UInt8)

/-- A step of a process. The child's transfer ends with data or with a timeout. -/
inductive ForkedStep where
  | receive
  | read (p : Process)
  | transfer (p : Process)
  deriving DecidableEq

/-- After `fork`, which may have failed. -/
def forkedStart (forked : Bool) : ForkedUpload where
  offset := 0
  pc
    | .parent => .reading
    | .child => if forked then .receiving else .ended
  arrived := []

section Client

variable (file : List UInt8)

/-- What `read(fd, data, 512)` returns at an offset. -/
def readAt (offset : ℕ) : List UInt8 := (file.drop offset).take bufferSize

/-- The sending loop of `main` in both processes, and the end of the child's transfer. -/
def forkedMachine : Machine ForkedUpload ForkedStep where
  step s
    | .receive =>
      if s.pc .child = .receiving then
        some { s with pc := Function.update s.pc .child .reading }
      else none
    | .read p =>
      if s.pc p = .reading then
        if readAt file s.offset = [] then some { s with pc := Function.update s.pc p .ended }
        else some { s with
          offset := s.offset + (readAt file s.offset).length
          pc := Function.update s.pc p (.sending s.offset (readAt file s.offset)) }
      else none
    | .transfer p =>
      match s.pc p with
      | .sending _ chunk => some { s with
          pc := Function.update s.pc p .reading
          arrived := s.arrived ++ [chunk] }
      | .receiving | .reading | .ended => none

/-- Both processes have left the loop. -/
def ForkedUpload.Finished (s : ForkedUpload) : Prop := ∀ p, s.pc p = .ended

/-- A transferred chunk does not overtake the chunk of the other process, or the two make up the same
bytes in either order. -/
def Swappable (s : ForkedUpload) : ForkedStep → Prop
  | .transfer p => ∀ start chunk start' chunk', s.pc p = .sending start chunk →
      s.pc p.other = .sending start' chunk' → start' < start → chunk' ++ chunk = chunk ++ chunk'
  | .receive | .read _ => True

/-- The bytes that two processes hold, in the order in which they read them. -/
def heldBytes : ProcessPc → ProcessPc → List UInt8
  | .sending start chunk, .sending start' chunk' =>
    if start < start' then chunk ++ chunk' else chunk' ++ chunk
  | .sending _ chunk, _ => chunk
  | _, .sending _ chunk => chunk
  | _, _ => []

/-- What arrived, what the processes hold and what is still to be read make up the file. -/
def Balanced (s : ForkedUpload) : Prop :=
  s.arrived.flatten ++ (heldBytes (s.pc .parent) (s.pc .child) ++ file.drop s.offset) = file

/-- A held chunk is what a read returned, of the part of the file before the offset. -/
structure HeldChunk (offset start : ℕ) (chunk : List UInt8) : Prop where
  read : chunk = readAt file start
  ne_nil : chunk ≠ []
  le : start + chunk.length ≤ offset

/-- The chunks held are different pieces of the file. -/
structure ForkedHeld (s : ForkedUpload) : Prop where
  offset_le : s.offset ≤ file.length
  held : ∀ p start chunk, s.pc p = .sending start chunk → HeldChunk file s.offset start chunk
  apart : ∀ p start chunk start' chunk', s.pc p = .sending start chunk →
    s.pc p.other = .sending start' chunk' →
    start ≠ start' ∧ (start < start' → start + chunk.length ≤ start')
  ended : s.pc .parent = .ended → s.offset = file.length

/-- At most one process holds a chunk. -/
def Single (s : ForkedUpload) : Prop := ∀ p start chunk start' chunk',
  s.pc p = .sending start chunk → s.pc p.other ≠ .sending start' chunk'

/-- Once the balance is lost it stays lost: the device has received something that is no beginning of
the file, or everything is read and at most one chunk is left. -/
structure ForkedInv (s : ForkedUpload) : Prop extends ForkedHeld file s where
  balance : Balanced file s ∨ ¬ s.arrived.flatten <+: file ∨ (s.offset = file.length ∧ Single s)

end Client

section Lemmas

variable {file : List UInt8} {s t : ForkedUpload} {p : Process}

/-- A chunk is short only at the end of the file. -/
theorem readAt_short {offset : ℕ} (h : (readAt file offset).length < bufferSize) :
    file.length ≤ offset + (readAt file offset).length := by
  unfold readAt at h ⊢
  rw [List.length_take, List.length_drop] at h ⊢
  omega

/-- The rest of the file is the next chunk and what is behind it. -/
theorem readAt_append_drop (file : List UInt8) (offset : ℕ) :
    readAt file offset ++ file.drop (offset + (readAt file offset).length) = file.drop offset := by
  by_cases hshort : (readAt file offset).length < bufferSize
  · have hend := readAt_short hshort
    have hle : (file.drop offset).length ≤ bufferSize := by
      unfold readAt at hshort
      rw [List.length_take] at hshort
      omega
    rw [List.drop_eq_nil_of_le hend, List.append_nil, readAt, List.take_of_length_le hle]
  · have hlen : (readAt file offset).length = bufferSize := by
      have hle : (readAt file offset).length ≤ bufferSize := List.length_take_le _ _
      omega
    rw [hlen, ← List.drop_drop]
    exact List.take_append_drop _ _

/-- A read that returns bytes starts inside the file. -/
theorem lt_of_readAt_ne_nil {offset : ℕ} (h : readAt file offset ≠ []) : offset < file.length := by
  by_contra hle
  apply h
  rw [readAt, List.drop_eq_nil_of_le (by omega), List.take_nil]

/-- A read that returns nothing is at the end of the file. -/
theorem eq_of_readAt_eq_nil {offset : ℕ} (hle : offset ≤ file.length) (h : readAt file offset = []) :
    offset = file.length := by
  have hshort : (readAt file offset).length < bufferSize := by
    rw [h]
    decide
  have hend := readAt_short hshort
  rw [h, List.length_nil] at hend
  omega

/-- Each process is one of the two. -/
theorem Process.eq_or_eq_other (p q : Process) : q = p ∨ q = p.other := by
  cases p <;> cases q <;> decide

/-- The other of the other process. -/
theorem Process.other_other (p : Process) : p.other.other = p := by cases p <;> rfl

/-- Between the states process `p` moved to `x`, and the other one stayed where it was. -/
structure Moved (p : Process) (x : ProcessPc) (s t : ForkedUpload) : Prop where
  self : t.pc p = x
  other : t.pc p.other = s.pc p.other

/-- A step of one process moves it alone. -/
theorem moved_update (s : ForkedUpload) (p : Process) (x : ProcessPc) (offset : ℕ)
    (arrived : List (List UInt8)) : Moved p x s ⟨offset, Function.update s.pc p x, arrived⟩ where
  self := Function.update_self ..
  other := by
    apply Function.update_of_ne
    cases p <;> decide

/-- A process that holds nothing counts for nothing. -/
theorem heldBytes_idle {x y : ProcessPc} (hx : ∀ start chunk, x ≠ .sending start chunk) :
    heldBytes x y = heldBytes .reading y := by
  cases x with
  | sending start chunk => exact absurd rfl (hx start chunk)
  | receiving | reading | ended => cases y <;> rfl

/-- The chunk of the earlier read comes first. -/
theorem heldBytes_first {start : ℕ} {chunk : List UInt8} {y : ProcessPc}
    (hfirst : ∀ start' chunk', y = .sending start' chunk' → start < start') :
    heldBytes (.sending start chunk) y = chunk ++ heldBytes .reading y := by
  cases y with
  | sending start' chunk' => exact if_pos (hfirst start' chunk' rfl)
  | receiving | reading | ended => exact (List.append_nil chunk).symm

/-- The bytes held do not depend on the order of the processes. -/
theorem ForkedHeld.heldBytes_comm (hs : ForkedHeld file s) (p : Process) :
    heldBytes (s.pc .parent) (s.pc .child) = heldBytes (s.pc p) (s.pc p.other) := by
  cases p with
  | parent => rfl
  | child =>
    change heldBytes (s.pc .parent) (s.pc .child) = heldBytes (s.pc .child) (s.pc .parent)
    cases hparent : s.pc .parent <;> cases hchild : s.pc .child <;> try rfl
    rename_i start chunk start' chunk'
    have hne := (hs.apart .parent _ _ _ _ hparent hchild).1
    simp only [heldBytes]
    split_ifs <;> first | rfl | omega

/-- The balance as a process sees it. -/
theorem ForkedHeld.balanced_iff (hs : ForkedHeld file s) (p : Process) :
    Balanced file s ↔
      s.arrived.flatten ++ (heldBytes (s.pc p) (s.pc p.other) ++ file.drop s.offset) = file := by
  rw [Balanced, hs.heldBytes_comm p]

end Lemmas

section Steps

variable {file : List UInt8} {s t : ForkedUpload} {p : Process} {x : ProcessPc}

/-- While a process holds no chunk at most one chunk is held. -/
theorem Moved.single (h : Moved p x s t) (hx : ∀ start chunk, x ≠ .sending start chunk) :
    Single t := by
  intro q start chunk start' chunk' hq hother
  rcases Process.eq_or_eq_other p q with rfl | rfl
  · exact hx start chunk (h.self.symm.trans hq)
  · rw [Process.other_other] at hother
    exact hx start' chunk' (h.self.symm.trans hother)

/-- A process that gives up its chunk, or had none, leaves the other's chunk as it is. -/
theorem ForkedHeld.release (hs : ForkedHeld file s) (h : Moved p x s t)
    (hoffset : t.offset = s.offset) (hx : ∀ start chunk, x ≠ .sending start chunk)
    (hended : x = .ended → s.offset = file.length) : ForkedHeld file t where
  offset_le := hoffset ▸ hs.offset_le
  held := by
    intro q start chunk hq
    rcases Process.eq_or_eq_other p q with rfl | rfl
    · exact absurd (h.self.symm.trans hq) (hx start chunk)
    · rw [hoffset]
      exact hs.held _ start chunk (h.other.symm.trans hq)
  apart := by
    intro q start chunk start' chunk' hq hother
    exact absurd hother (h.single hx q start chunk start' chunk' hq)
  ended := by
    intro hparent
    rw [hoffset]
    rcases Process.eq_or_eq_other p .parent with hp | hp
    · rw [hp, h.self] at hparent
      exact hended hparent
    · rw [hp, h.other, ← hp] at hparent
      exact hs.ended hparent

/-- A step between positions without a chunk keeps the balance as it is. -/
theorem ForkedInv.idle (hs : ForkedInv file s) (h : Moved p x s t) (hoffset : t.offset = s.offset)
    (harrived : t.arrived = s.arrived) (hold : ∀ start chunk, s.pc p ≠ .sending start chunk)
    (hx : ∀ start chunk, x ≠ .sending start chunk) (hended : x = .ended → s.offset = file.length) :
    ForkedInv file t ∧ (Balanced file t ↔ Balanced file s) := by
  have hheld := hs.release h hoffset hx hended
  have hbalanced : Balanced file t ↔ Balanced file s := by
    rw [hheld.balanced_iff p, hs.balanced_iff p, h.self, h.other, heldBytes_idle hx,
      heldBytes_idle hold, hoffset, harrived]
  refine ⟨⟨hheld, ?_⟩, hbalanced⟩
  rw [hbalanced, hoffset, harrived]
  exact hs.balance.imp_right (Or.imp_right fun hend => ⟨hend.1, h.single hx⟩)

/-- A read that returns bytes keeps the balance as it is. -/
theorem ForkedInv.read (hs : ForkedInv file s) (hp : s.pc p = .reading)
    (hne : readAt file s.offset ≠ []) (h : Moved p (.sending s.offset (readAt file s.offset)) s t)
    (hoffset : t.offset = s.offset + (readAt file s.offset).length)
    (harrived : t.arrived = s.arrived) :
    ForkedInv file t ∧ (Balanced file t ↔ Balanced file s) := by
  have hlt := lt_of_readAt_ne_nil hne
  have hpos : 0 < (readAt file s.offset).length := List.length_pos_iff.mpr hne
  have hother : ∀ start chunk, s.pc p.other = .sending start chunk →
      start < s.offset ∧ start + chunk.length ≤ s.offset := by
    intro start chunk hq
    have hchunk := hs.held p.other start chunk hq
    have hlen : 0 < chunk.length := List.length_pos_iff.mpr hchunk.ne_nil
    have hle := hchunk.le
    exact ⟨by omega, hle⟩
  have hheld : ForkedHeld file t := by
    constructor
    · have hlen : (readAt file s.offset).length ≤ file.length - s.offset := by
        rw [readAt, List.length_take, List.length_drop]
        exact Nat.min_le_right _ _
      omega
    · intro q start chunk hq
      rw [hoffset]
      rcases Process.eq_or_eq_other p q with rfl | rfl
      · obtain ⟨rfl, rfl⟩ := ProcessPc.sending.inj (h.self.symm.trans hq)
        exact ⟨rfl, hne, Nat.le_refl _⟩
      · have hchunk := hs.held _ start chunk (h.other.symm.trans hq)
        exact ⟨hchunk.read, hchunk.ne_nil, Nat.le_trans hchunk.le (Nat.le_add_right _ _)⟩
    · intro q start chunk start' chunk' hq hq'
      rcases Process.eq_or_eq_other p q with rfl | rfl
      · obtain ⟨rfl, rfl⟩ := ProcessPc.sending.inj (h.self.symm.trans hq)
        obtain ⟨hbefore, _⟩ := hother start' chunk' (h.other.symm.trans hq')
        exact ⟨by omega, by omega⟩
      · rw [Process.other_other] at hq'
        obtain ⟨rfl, rfl⟩ := ProcessPc.sending.inj (h.self.symm.trans hq')
        obtain ⟨hbefore, hle⟩ := hother start chunk (h.other.symm.trans hq)
        exact ⟨by omega, fun _ => hle⟩
    · intro hparent
      have hend : s.offset = file.length := by
        apply hs.ended
        rcases Process.eq_or_eq_other p .parent with hpp | hpp
        · rw [hpp, h.self] at hparent
          simp at hparent
        · rw [hpp, h.other, ← hpp] at hparent
          exact hparent
      omega
  have hlast : heldBytes (t.pc p) (t.pc p.other) =
      heldBytes (s.pc p) (s.pc p.other) ++ readAt file s.offset := by
    rw [h.self, h.other, hp]
    cases hq : s.pc p.other with
    | sending start chunk =>
      have hbefore := (hother start chunk hq).1
      exact if_neg (by omega)
    | receiving | reading | ended => rfl
  have hbalanced : Balanced file t ↔ Balanced file s := by
    rw [hheld.balanced_iff p, hs.balanced_iff p, hlast, List.append_assoc, hoffset,
      readAt_append_drop, harrived]
  refine ⟨⟨hheld, ?_⟩, hbalanced⟩
  rw [hbalanced, harrived]
  exact hs.balance.imp_right (Or.imp_right fun hend => absurd hend.1 (by omega))

/-- Of two held chunks the one of the earlier read is full. -/
theorem ForkedHeld.full_of_lt (hs : ForkedHeld file s) {start start' : ℕ} {chunk chunk' : List UInt8}
    (hq : s.pc p = .sending start chunk) (hq' : s.pc p.other = .sending start' chunk')
    (hlt : start < start') : chunk.length = bufferSize := by
  have hchunk := hs.held p start chunk hq
  have hchunk' := hs.held p.other start' chunk' hq'
  have hle := (hs.apart p _ _ _ _ hq hq').2 hlt
  have hpos : 0 < chunk'.length := List.length_pos_iff.mpr hchunk'.ne_nil
  have hend := hchunk'.le
  have hoffset := hs.offset_le
  have hmax : (readAt file start).length ≤ bufferSize := List.length_take_le _ _
  rw [hchunk.read] at hle ⊢
  by_contra hne
  have hshort : (readAt file start).length < bufferSize := by omega
  have hfile := readAt_short hshort
  omega

/-- A short chunk is the end of the file. -/
theorem HeldChunk.offset_eq {offset start : ℕ} {chunk : List UInt8}
    (h : HeldChunk file offset start chunk) (hle : offset ≤ file.length)
    (hshort : chunk.length < bufferSize) : offset = file.length := by
  have hend := h.le
  rw [h.read] at hshort hend
  have hfile := readAt_short hshort
  omega

section Transfer

variable {start : ℕ} {chunk : List UInt8}

/-- The balance before and behind a transfer, around what the other process holds. -/
theorem ForkedHeld.balanced_transfer (hs : ForkedHeld file s) (hp : s.pc p = .sending start chunk)
    (ht : ForkedHeld file t) (h : Moved p .reading s t) (hoffset : t.offset = s.offset)
    (harrived : t.arrived = s.arrived ++ [chunk]) :
    (Balanced file s ↔ s.arrived.flatten ++
        (heldBytes (.sending start chunk) (s.pc p.other) ++ file.drop s.offset) = file) ∧
      (Balanced file t ↔ s.arrived.flatten ++ chunk ++
        (heldBytes .reading (s.pc p.other) ++ file.drop s.offset) = file) := by
  have hflatten : t.arrived.flatten = s.arrived.flatten ++ chunk := by simp [harrived]
  constructor
  · rw [hs.balanced_iff p, hp]
  · rw [ht.balanced_iff p, hflatten, hoffset, h.self, h.other]

/-- What has arrived and is no beginning of the file never becomes one. -/
theorem not_prefix_of_transfer (harrived : t.arrived = s.arrived ++ [chunk])
    (hno : ¬ s.arrived.flatten <+: file) : ¬ t.arrived.flatten <+: file := by
  intro hpre
  rw [harrived, List.flatten_append] at hpre
  exact hno ((List.prefix_append _ _).trans hpre)

/-- A transfer in the order of the reads keeps the balance. -/
theorem ForkedInv.transfer_first (hs : ForkedInv file s) (hp : s.pc p = .sending start chunk)
    (h : Moved p .reading s t) (hoffset : t.offset = s.offset)
    (harrived : t.arrived = s.arrived ++ [chunk])
    (hfirst : ∀ start' chunk', s.pc p.other = .sending start' chunk' → start < start') :
    ForkedInv file t ∧ (Balanced file t ↔ Balanced file s) := by
  have hheld := hs.release h hoffset (by simp) (by simp)
  obtain ⟨hbalancedS, hbalancedT⟩ := hs.balanced_transfer hp hheld h hoffset harrived
  have hbalanced : Balanced file t ↔ Balanced file s := by
    rw [hbalancedT, hbalancedS, heldBytes_first hfirst]
    simp only [List.append_assoc]
  refine ⟨⟨hheld, ?_⟩, hbalanced⟩
  rcases hs.balance with hkept | hno | hend
  · exact Or.inl (hbalanced.mpr hkept)
  · exact Or.inr (Or.inl (not_prefix_of_transfer harrived hno))
  · exact Or.inr (Or.inr ⟨hoffset.trans hend.1, h.single (by simp)⟩)

/-- While the other process holds an earlier chunk, the device has a beginning of the file behind the
transfer only if everything was in order before it. -/
theorem ForkedInv.balanced_of_prefix (hs : ForkedInv file s) (hp : s.pc p = .sending start chunk)
    {start' : ℕ} {chunk' : List UInt8} (hq : s.pc p.other = .sending start' chunk')
    (hpre : s.arrived.flatten ++ chunk <+: file) : Balanced file s := by
  rcases hs.balance with hbalanced | hno | hend
  · exact hbalanced
  · exact absurd ((List.prefix_append _ _).trans hpre) hno
  · exact absurd hq (hend.2 p start chunk start' chunk' hp)

/-- A transfer that overtakes the chunk of the other process keeps the balance exactly when the two chunks
can be swapped. -/
theorem ForkedInv.transfer_overtakes (hs : ForkedInv file s) (hp : s.pc p = .sending start chunk)
    (h : Moved p .reading s t) (hoffset : t.offset = s.offset)
    (harrived : t.arrived = s.arrived ++ [chunk]) {start' : ℕ} {chunk' : List UInt8}
    (hq : s.pc p.other = .sending start' chunk') (hlt : start' < start) :
    ForkedInv file t ∧
      (Balanced file t ↔ Balanced file s ∧ chunk' ++ chunk = chunk ++ chunk') := by
  have hheld := hs.release h hoffset (by simp) (by simp)
  obtain ⟨hbalancedS, hbalancedT⟩ := hs.balanced_transfer hp hheld h hoffset harrived
  have hover : heldBytes (.sending start chunk) (s.pc p.other) = chunk' ++ chunk := by
    rw [hq]
    exact if_neg (by omega)
  have hleft : heldBytes .reading (s.pc p.other) = chunk' := by
    rw [hq]
    rfl
  rw [hover] at hbalancedS
  rw [hleft] at hbalancedT
  have hcomm : chunk' ++ chunk = chunk ++ chunk' → (Balanced file t ↔ Balanced file s) := by
    intro hcomm
    rw [hbalancedT, hbalancedS, hcomm]
    simp only [List.append_assoc]
  have hback : Balanced file t → Balanced file s ∧ chunk' ++ chunk = chunk ++ chunk' := by
    intro ht
    have hbalanced := hs.balanced_of_prefix hp hq ⟨_, hbalancedT.mp ht⟩
    refine ⟨hbalanced, ?_⟩
    have heq : s.arrived.flatten ++ (chunk' ++ chunk ++ file.drop s.offset) =
        s.arrived.flatten ++ (chunk ++ chunk' ++ file.drop s.offset) := by
      rw [hbalancedS.mp hbalanced, List.append_assoc chunk, ← List.append_assoc, hbalancedT.mp ht]
    exact List.append_cancel_right (List.append_cancel_left heq)
  refine ⟨⟨hheld, ?_⟩, hback, fun hboth => (hcomm hboth.2).mpr hboth.1⟩
  by_cases hshort : chunk.length < bufferSize
  · refine Or.inr (Or.inr ⟨?_, h.single (by simp)⟩)
    rw [hoffset]
    exact (hs.held p start chunk hp).offset_eq hs.offset_le hshort
  by_cases hpre : s.arrived.flatten ++ chunk <+: file
  · -- both chunks are full and begin the same rest of the file
    have hbalanced := hs.balanced_of_prefix hp hq hpre
    have hfull : chunk'.length = bufferSize :=
      hs.full_of_lt (p := p.other) hq (by rwa [Process.other_other]) hlt
    have hmax : (readAt file start).length ≤ bufferSize := List.length_take_le _ _
    rw [← (hs.held p start chunk hp).read] at hmax
    have heq : chunk = chunk' := by
      obtain ⟨rest, hrest⟩ := hpre
      have hsame := hrest.trans (hbalancedS.mp hbalanced).symm
      rw [List.append_assoc, List.append_cancel_left_eq, List.append_assoc] at hsame
      exact (List.append_inj hsame (by omega)).1
    exact Or.inl ((hcomm (by rw [heq])).mpr hbalanced)
  · refine Or.inr (Or.inl fun harrives => hpre ?_)
    simpa [harrived] using harrives

/-- A transfer keeps the balance exactly when what it overtakes can be swapped with it. -/
theorem ForkedInv.transfer (hs : ForkedInv file s) (hp : s.pc p = .sending start chunk)
    (h : Moved p .reading s t) (hoffset : t.offset = s.offset)
    (harrived : t.arrived = s.arrived ++ [chunk]) :
    ForkedInv file t ∧ (Balanced file t ↔ Balanced file s ∧ Swappable s (.transfer p)) := by
  by_cases hfirst : ∀ start' chunk', s.pc p.other = .sending start' chunk' → start < start'
  · obtain ⟨hinv, hbalanced⟩ := hs.transfer_first hp h hoffset harrived hfirst
    have hswap : Swappable s (.transfer p) := by
      intro start₁ chunk₁ start' chunk' hp₁ hq hlt
      obtain ⟨rfl, rfl⟩ := ProcessPc.sending.inj (hp.symm.trans hp₁)
      have hbefore := hfirst start' chunk' hq
      omega
    exact ⟨hinv, by rw [hbalanced, and_iff_left hswap]⟩
  · obtain ⟨start', chunk', hq, hlt⟩ : ∃ start' chunk',
        s.pc p.other = .sending start' chunk' ∧ start' < start := by
      by_contra hnone
      apply hfirst
      intro start' chunk' hq
      have hne := (hs.apart p _ _ _ _ hp hq).1
      by_contra hle
      exact hnone ⟨start', chunk', hq, by omega⟩
    obtain ⟨hinv, hbalanced⟩ := hs.transfer_overtakes hp h hoffset harrived hq hlt
    refine ⟨hinv, hbalanced.trans (and_congr_right fun _ => ?_)⟩
    constructor
    · intro hcomm start₁ chunk₁ start₂ chunk₂ hp₁ hq₂ _
      obtain ⟨rfl, rfl⟩ := ProcessPc.sending.inj (hp.symm.trans hp₁)
      obtain ⟨rfl, rfl⟩ := ProcessPc.sending.inj (hq.symm.trans hq₂)
      exact hcomm
    · exact fun hall => hall start chunk start' chunk' hp hq hlt

end Transfer

end Steps

section Runs

variable {file : List UInt8} {s t : ForkedUpload}

/-- Every step keeps the invariant, and the balance is lost exactly in a step that swaps two chunks
that make up other bytes in the other order. -/
theorem forkedMachine_step_inv {step : ForkedStep} (hs : ForkedInv file s)
    (ht : (forkedMachine file).step s step = some t) :
    ForkedInv file t ∧ (Balanced file t ↔ Balanced file s ∧ Swappable s step) := by
  cases step with
  | receive =>
    simp only [forkedMachine] at ht
    split_ifs at ht with hreceiving
    obtain rfl := Option.some.inj ht
    obtain ⟨hinv, hbalanced⟩ := hs.idle (moved_update s .child .reading _ _) rfl rfl
      (by simp [hreceiving]) (by simp) (by simp)
    exact ⟨hinv, hbalanced.trans (and_iff_left trivial).symm⟩
  | read p =>
    simp only [forkedMachine] at ht
    split_ifs at ht with hreading hnil
    · obtain rfl := Option.some.inj ht
      obtain ⟨hinv, hbalanced⟩ := hs.idle (moved_update s p .ended _ _) rfl rfl
        (by simp [hreading]) (by simp) (fun _ => eq_of_readAt_eq_nil hs.offset_le hnil)
      exact ⟨hinv, hbalanced.trans (and_iff_left trivial).symm⟩
    · obtain rfl := Option.some.inj ht
      obtain ⟨hinv, hbalanced⟩ := hs.read hreading hnil (moved_update s p _ _ _) rfl rfl
      exact ⟨hinv, hbalanced.trans (and_iff_left trivial).symm⟩
  | transfer p =>
    simp only [forkedMachine] at ht
    split at ht
    · rename_i start chunk hp
      obtain rfl := Option.some.inj ht
      exact hs.transfer hp (moved_update s p .reading _ _) rfl rfl
    all_goals exact absurd ht (by simp)

/-- After `fork` nothing was read. -/
theorem forkedStart_inv (file : List UInt8) (forked : Bool) : ForkedInv file (forkedStart forked) := by
  have hpc : ∀ p start chunk, (forkedStart forked).pc p ≠ .sending start chunk := by
    intro p start chunk
    cases p <;> cases forked <;> simp [forkedStart]
  refine ⟨⟨Nat.zero_le _, ?_, ?_, ?_⟩, Or.inl ?_⟩
  · exact fun p start chunk hp => absurd hp (hpc p start chunk)
  · exact fun p start chunk _ _ hp => absurd hp (hpc p start chunk)
  · simp [forkedStart]
  · cases forked <;> rfl

/-- In every complete run of the two processes the file arrives as it is exactly when every transfer
that overtakes the other process's chunk can be swapped with it. -/
theorem forkedUpload_delivers_iff {forked : Bool} {steps : List ForkedStep}
    (hrun : (forkedMachine file).run (forkedStart forked) steps = some s) (hdone : s.Finished) :
    s.arrived.flatten = file ↔
      (forkedMachine file).Guarded Swappable (forkedStart forked) steps := by
  have hinv : ForkedInv file s := (forkedMachine file).run_invariant
    (fun _ _ _ hs ht => (forkedMachine_step_inv hs ht).1) (forkedStart_inv file forked) hrun
  have hlost : ∀ s step t, ForkedInv file s → (forkedMachine file).step s step = some t →
      (¬ Balanced file t ↔ ¬ Balanced file s ∨ ¬ Swappable s step) := by
    intro s step t hs ht
    rw [(forkedMachine_step_inv hs ht).2, not_and_or]
  have hspoiled := (forkedMachine file).run_spoiled_iff
    (fun _ _ _ hs ht => (forkedMachine_step_inv hs ht).1) hlost (forkedStart_inv file forked) hrun
  have hstart : Balanced file (forkedStart forked) := by cases forked <;> rfl
  have hend : Balanced file s ↔ s.arrived.flatten = file := by
    rw [Balanced, hdone .parent, hdone .child, hinv.ended (hdone .parent), List.drop_length]
    simp [heldBytes]
  rw [← hend, ← not_iff_not, hspoiled]
  simp [hstart]

/-- The child sends the last one of 513 equal bytes before the parent sends the first chunk. -/
theorem forkedUpload_delivers_swapped : ∃ s,
    (forkedMachine (List.replicate 513 7)).run (forkedStart true)
        [.receive, .read .parent, .read .child, .transfer .child, .transfer .parent, .read .parent,
          .read .child] = some s ∧
      (s.arrived.flatten = List.replicate 513 7 ↔
        (forkedMachine (List.replicate 513 7)).Guarded Swappable (forkedStart true)
          [.receive, .read .parent, .read .child, .transfer .child, .transfer .parent, .read .parent,
            .read .child]) := by
  have hends : ((forkedMachine (List.replicate 513 7)).run (forkedStart true)
      [.receive, .read .parent, .read .child, .transfer .child, .transfer .parent, .read .parent,
        .read .child]).map (fun s => (s.pc .parent, s.pc .child)) = some (.ended, .ended) := by decide +kernel
  obtain ⟨s, hs, hpcs⟩ := Option.map_eq_some_iff.mp hends
  obtain ⟨hparent, hchild⟩ := Prod.mk.inj hpcs
  refine ⟨s, hs, forkedUpload_delivers_iff hs fun p => ?_⟩
  cases p with
  | parent => exact hparent
  | child => exact hchild

/-- The child sends the last byte of a file of 513 bytes before the parent sends the first chunk. -/
theorem forkedUpload_reordered : ¬ ∀ s,
    (forkedMachine (List.replicate 512 0 ++ [1])).run (forkedStart true)
      [.receive, .read .parent, .read .child, .transfer .child, .transfer .parent, .read .parent,
        .read .child] = some s → s.arrived.flatten = List.replicate 512 0 ++ [1] := by
  intro h
  have hhead : ((forkedMachine (List.replicate 512 0 ++ [1])).run (forkedStart true)
      [.receive, .read .parent, .read .child, .transfer .child, .transfer .parent, .read .parent,
        .read .child]).map (fun s => s.arrived.flatten.head?) = some (some 1) := by decide +kernel
  obtain ⟨s, hs, hone⟩ := Option.map_eq_some_iff.mp hhead
  rw [h s hs] at hone
  exact absurd hone (by decide +kernel)

end Runs

end LinuxFunctionTest.LibusbTest
