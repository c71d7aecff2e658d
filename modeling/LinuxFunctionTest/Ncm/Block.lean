import LinuxFunctionTest.Ncm.Receive
import LinuxFunctionTest.Library.Image
import Mathlib.Data.List.Forall2
import Mathlib.Data.List.GetD

/-!
# Well-formed transfer blocks

What it means that a pointer table lists some entries, that a block stores some datagrams at these
entries, and that a block carries a list of datagrams. Adding an entry to a table and appending a
datagram extends the list by one, and the receive path hands up exactly the datagrams carried.
-/

namespace LinuxFunctionTest.Ncm

open LinuxFunctionTest.Bytes LinuxFunctionTest.Image

/-- A pointer table at `p` with the given pairs of offset and length, and no table behind it. -/
structure Table (f : NtbFormat) (ndp : List UInt8) (p : ℕ) (entries : List (ℕ × ℕ)) : Prop where
  fits : p + f.ndpSize + (entries.length + 1) * f.dpeSize ≤ ndp.length
  sign : load ndp p 4 = f.ndpSign
  length : load ndp (p + 4) 2 = f.ndpSize + (entries.length + 1) * f.dpeSize
  next : load ndp (p + f.nextNdp) f.width = 0
  entry : ∀ i (h : i < entries.length),
    load ndp (p + f.ndpSize + i * f.dpeSize) f.width = entries[i].1 ∧
      load ndp (p + f.ndpSize + i * f.dpeSize + f.width) f.width = entries[i].2

/-- The entry points to the datagram, which lies at or above `low`. -/
def PointsTo (data : List UInt8) (low : ℕ) (entry : ℕ × ℕ) (frame : Frame) : Prop :=
  entry.2 = frame.length ∧ low ≤ entry.1 ∧ HoldsAt data entry.1 frame

/-- The entries point to the datagrams, one each and in the same order. -/
def Stored (data : List UInt8) (low : ℕ) : List (ℕ × ℕ) → List Frame → Prop :=
  List.Forall₂ (PointsTo data low)

/-- A block that carries the datagrams. -/
structure Block (f : NtbFormat) (data : List UInt8) (frames : List Frame) : Prop where
  sign : load data 0 4 = f.nthSign
  table : ∃ p entries, load data f.ndpIndex f.width = p ∧ f.nthSize ≤ p ∧ p < 2 ^ 31 ∧
    Table f data p entries ∧ Stored data 1 entries frames

/-- Write a table entry: the length and the index of a datagram. -/
def storeEntry (f : NtbFormat) (ndp : List UInt8) (dpe offset len : ℕ) : List UInt8 :=
  store (store ndp (dpe + f.width) f.width len) dpe f.width offset

/-- Enter a datagram behind the last entry of a table: the table and the number of the entry. -/
def addEntry (f : NtbFormat) (ndp : List UInt8) (p offset len : ℕ) : List UInt8 × ℕ :=
  let ndplen := load ndp (p + 4) 2
  let index := subWord 64 (subWord 64 ndplen f.ndpSize / f.dpeSize) 1 % 2 ^ 16
  (store (storeEntry f ndp (p + f.ndpSize + index * f.dpeSize) offset len) (p + 4) 2 (ndplen + f.dpeSize), index)

/-- Turn zeroed memory into an empty table. -/
def startNdp (f : NtbFormat) (sign : ℕ) (ndp : List UInt8) (p : ℕ) : List UInt8 :=
  store (store ndp p 4 sign) (p + 4) 2 (f.ndpSize + f.dpeSize)

section Tables

variable {f : NtbFormat} {ndp : List UInt8} {p : ℕ} {entries : List (ℕ × ℕ)}

/-- A written field apart from the table leaves it. -/
theorem Table.store (h : Table f ndp p entries) {offset width : ℕ} (hin : offset + width ≤ ndp.length)
    (hapart : offset + width ≤ p) (value : ℕ) : Table f (Image.store ndp offset width value) p entries where
  fits := by
    rw [store_length hin]
    exact h.fits
  sign := by rw [load_store_of_apart hin (by omega), h.sign]
  length := by rw [load_store_of_apart hin (by omega), h.length]
  next := by rw [load_store_of_apart hin (by omega), h.next]
  entry := fun i hi => by
    rw [load_store_of_apart hin (by omega), load_store_of_apart hin (by omega)]
    exact h.entry i hi

/-- An entry of a table lies inside it. -/
theorem entry_le {i n size : ℕ} (hi : i < n) : i * size + size ≤ n * size := by
  rw [← Nat.succ_mul]
  exact Nat.mul_le_mul_right size hi

/-- Bytes appended behind the table leave it. -/
theorem Table.append (h : Table f ndp p entries) (rest : List UInt8) : Table f (ndp ++ rest) p entries := by
  have hfits := h.fits
  have hnext := f.next_ge
  have hnext' := f.next_fits
  have hdpe := f.dpe_fits
  have hmul : (entries.length + 1) * f.dpeSize = entries.length * f.dpeSize + f.dpeSize := Nat.succ_mul ..
  constructor
  · rw [List.length_append]
    omega
  · rw [load_append (by omega), h.sign]
  · rw [load_append (by omega), h.length]
  · rw [load_append (by omega), h.next]
  · intro i hi
    have hle : i * f.dpeSize + f.dpeSize ≤ entries.length * f.dpeSize := entry_le hi
    rw [load_append (by omega), load_append (by omega)]
    exact h.entry i hi

/-- A table in a string is one in a longer string that ends with it. -/
theorem Table.prepend (h : Table f ndp p entries) (front : List UInt8) :
    Table f (front ++ ndp) (front.length + p) entries := by
  have hfits := h.fits
  constructor
  · rw [List.length_append]
    omega
  · rw [load_append_right, h.sign]
  · rw [Nat.add_assoc, load_append_right, h.length]
  · rw [Nat.add_assoc, load_append_right, h.next]
  · intro i hi
    simp only [Nat.add_assoc, load_append_right]
    simpa only [Nat.add_assoc] using h.entry i hi

/-- Starting a table keeps the length of the memory. -/
theorem startNdp_length (h : p + 6 ≤ ndp.length) (sign : ℕ) : (startNdp f sign ndp p).length = ndp.length := by
  have hfirst : (Image.store ndp p 4 sign).length = ndp.length := store_length (by omega) _
  rw [startNdp, store_length (by omega), hfirst]

/-- Starting a table leaves the memory below it. -/
theorem load_startNdp (h : p + 6 ≤ ndp.length) (sign : ℕ) {at' width : ℕ} (hbelow : at' + width ≤ p) :
    load (startNdp f sign ndp p) at' width = load ndp at' width := by
  have hfirst : (Image.store ndp p 4 sign).length = ndp.length := store_length (by omega) _
  rw [startNdp, load_store_of_apart (by omega) (by omega), load_store_of_apart (by omega) (by omega)]

/-- Zeroed memory becomes an empty table. -/
theorem startNdp_table {front : List UInt8} {n : ℕ} (hn : f.ndpSize + f.dpeSize ≤ n) :
    Table f (startNdp f f.ndpSign (front ++ List.replicate n 0) front.length) front.length [] := by
  have hlen : (front ++ List.replicate n (0 : UInt8)).length = front.length + n := by simp
  have hnext := f.next_ge
  have hnext' := f.next_fits
  have hsize := f.ndpSize_le
  have hdpe := f.dpe_fits
  have hwidth := f.width_le
  have hlen' : (store (front ++ List.replicate n (0 : UInt8)) front.length 4 f.ndpSign).length =
      front.length + n := by rw [store_length (by omega), hlen]
  constructor
  · rw [startNdp, store_length (by omega)]
    simp
    omega
  · rw [startNdp, load_store_of_apart (by omega) (by omega), load_store_of_lt (by omega) f.ndpSign_lt]
  · rw [startNdp, load_store_of_lt (by omega) (by omega)]
    simp
  · rw [startNdp, load_store_of_apart (by omega) (by omega), load_store_of_apart (by omega) (by omega),
      load_append_right, load_replicate_zero]
  · exact fun i hi => absurd hi (Nat.not_lt_zero i)

/-- The number of the next entry is the number of entries the table has. -/
theorem addEntry_index (h : Table f ndp p entries) (hcount : entries.length < 2 ^ 16) (offset len : ℕ) :
    (addEntry f ndp p offset len).2 = entries.length := by
  have hsize := f.ndpSize_le
  have hdpe : 0 < f.dpeSize := by
    have := f.dpe_fits
    have := f.width_ge
    omega
  have hlt := load_lt ndp (p + 4) 2
  have hload := h.length
  have hbytes : subWord 64 (load ndp (p + 4) 2) f.ndpSize = (entries.length + 1) * f.dpeSize := by
    rw [subWord_of_le (by omega) (by omega)]
    omega
  rw [addEntry]
  simp only
  rw [hbytes, Nat.mul_div_cancel _ hdpe, subWord_of_le (by omega) (by omega), Nat.add_sub_cancel,
    Nat.mod_eq_of_lt hcount]

/-- Where the next entry stands. -/
theorem addEntry_eq (h : Table f ndp p entries) (hcount : entries.length < 2 ^ 16) (offset len : ℕ) :
    (addEntry f ndp p offset len).1 =
      Image.store (storeEntry f ndp (p + f.ndpSize + entries.length * f.dpeSize) offset len) (p + 4) 2
        (f.ndpSize + (entries.length + 1) * f.dpeSize + f.dpeSize) := by
  have hindex := addEntry_index h hcount offset len
  rw [addEntry] at hindex ⊢
  simp only at hindex ⊢
  rw [hindex, h.length]

section Entry

variable {dpe : ℕ} (hin : dpe + f.dpeSize ≤ ndp.length) (offset len : ℕ)
include hin

/-- Writing an entry keeps the length of the memory. -/
theorem storeEntry_length : (storeEntry f ndp dpe offset len).length = ndp.length := by
  have hdpe := f.dpe_fits
  have hfirst : (Image.store ndp (dpe + f.width) f.width len).length = ndp.length := store_length (by omega) _
  rw [storeEntry, store_length (by omega), hfirst]

/-- Writing an entry leaves the memory apart from it. -/
theorem slice_storeEntry {at' n : ℕ} (hapart : at' + n ≤ dpe ∨ dpe + f.dpeSize ≤ at') :
    ((storeEntry f ndp dpe offset len).drop at').take n = (ndp.drop at').take n := by
  have hdpe := f.dpe_fits
  have hfirst : (Image.store ndp (dpe + f.width) f.width len).length = ndp.length := store_length (by omega) _
  rw [storeEntry, slice_store_of_apart (by omega) (by omega), slice_store_of_apart (by omega) (by omega)]

/-- A written entry is read back. -/
theorem load_storeEntry (hoffset : offset < 256 ^ f.width) (hlen : len < 256 ^ f.width) :
    load (storeEntry f ndp dpe offset len) dpe f.width = offset ∧
      load (storeEntry f ndp dpe offset len) (dpe + f.width) f.width = len := by
  have hdpe := f.dpe_fits
  have hfirst : (Image.store ndp (dpe + f.width) f.width len).length = ndp.length := store_length (by omega) _
  constructor
  · rw [storeEntry, load_store_of_lt (by omega) hoffset]
  · rw [storeEntry, load_store_of_apart (by omega) (by omega), load_store_of_lt (by omega) hlen]

end Entry

section Entering

variable (h : Table f ndp p entries)
  (hroom : p + f.ndpSize + (entries.length + 2) * f.dpeSize ≤ ndp.length)
  (hcount : entries.length ≤ 40) (offset len : ℕ)

include hroom in
/-- The place of the next entry is in the memory, and so is the length field of the table. -/
theorem next_entry_fits : p + f.ndpSize + entries.length * f.dpeSize + f.dpeSize ≤ ndp.length ∧
    p + 4 + 2 ≤ ndp.length := by
  have hmul : (entries.length + 2) * f.dpeSize = entries.length * f.dpeSize + 2 * f.dpeSize := Nat.add_mul ..
  have hnext := f.next_ge
  have hfits := f.next_fits
  omega

include h hroom hcount

/-- Entering a datagram keeps the length of the memory. -/
theorem addEntry_length : (addEntry f ndp p offset len).1.length = ndp.length := by
  obtain ⟨hin, hlength⟩ := next_entry_fits hroom
  rw [addEntry_eq h (by omega), store_length (by rw [storeEntry_length hin]; exact hlength), storeEntry_length hin]

/-- Entering a datagram leaves the memory apart from the new entry and from the length of the table. -/
theorem slice_addEntry {at' n : ℕ} (hapart : at' + n ≤ p + 4 ∨ p + 6 ≤ at')
    (hentry : at' + n ≤ p + f.ndpSize + entries.length * f.dpeSize ∨
      p + f.ndpSize + (entries.length + 1) * f.dpeSize ≤ at') :
    ((addEntry f ndp p offset len).1.drop at').take n = (ndp.drop at').take n := by
  have hmul : (entries.length + 1) * f.dpeSize = entries.length * f.dpeSize + f.dpeSize := Nat.succ_mul ..
  obtain ⟨hin, hlength⟩ := next_entry_fits hroom
  rw [addEntry_eq h (by omega), slice_store_of_apart (by rw [storeEntry_length hin]; exact hlength) hapart,
    slice_storeEntry hin _ _ (by omega)]

/-- Entering a datagram lists it behind the others. -/
theorem Table.addEntry (hoffset : offset < 256 ^ f.width) (hlen : len < 256 ^ f.width) :
    Table f (Ncm.addEntry f ndp p offset len).1 p (entries ++ [(offset, len)]) := by
  have hmul : (entries.length + 2) * f.dpeSize = entries.length * f.dpeSize + 2 * f.dpeSize := Nat.add_mul ..
  have hmul' : (entries.length + 1) * f.dpeSize = entries.length * f.dpeSize + f.dpeSize := Nat.succ_mul ..
  have hbound : entries.length * f.dpeSize ≤ 40 * f.dpeSize := Nat.mul_le_mul_right _ hcount
  have hnext := f.next_ge
  have hfits := f.next_fits
  have hsize := f.ndpSize_le
  have hdpe := f.dpe_fits
  have hwidth := f.width_le
  have hlength : (entries ++ [(offset, len)]).length = entries.length + 1 := by simp
  obtain ⟨hin, hlengthIn⟩ := next_entry_fits hroom
  have hsame : (storeEntry f ndp (p + f.ndpSize + entries.length * f.dpeSize) offset len).length = ndp.length :=
    storeEntry_length hin _ _
  constructor
  · rw [addEntry_length h hroom hcount, hlength, Nat.add_assoc entries.length]
    exact hroom
  · rw [load, slice_addEntry h hroom hcount _ _ (by omega) (by omega)]
    exact h.sign
  · rw [hlength, addEntry_eq h (by omega), load_store_of_lt (by omega) (by omega), Nat.succ_mul (_ + 1)]
    omega
  · rw [load, slice_addEntry h hroom hcount _ _ (by omega) (by omega)]
    exact h.next
  · intro i hi
    rcases Nat.lt_or_ge i entries.length with hold | hnew
    · have hle : i * f.dpeSize + f.dpeSize ≤ entries.length * f.dpeSize := entry_le hold
      rw [load, slice_addEntry h hroom hcount _ _ (by omega) (by omega), load,
        slice_addEntry h hroom hcount _ _ (by omega) (by omega), List.getElem_append_left hold]
      exact h.entry i hold
    · obtain rfl : i = entries.length := by omega
      have hread := load_storeEntry hin offset len hoffset hlen
      rw [List.getElem_concat_length rfl, addEntry_eq h (by omega), load_store_of_apart (by omega) (by omega),
        load_store_of_apart (by omega) (by omega)]
      exact hread

end Entering

end Tables

section Datagrams

variable {data : List UInt8} {low : ℕ} {entries : List (ℕ × ℕ)} {frames : List Frame}

/-- A change of the image that keeps every string from `low` on keeps the datagrams stored there. -/
theorem Stored.mono {data' : List UInt8} {low' : ℕ} (h : Stored data low entries frames) (hlow : low' ≤ low)
    (hkeep : ∀ offset part, low ≤ offset → HoldsAt data offset part → HoldsAt data' offset part) :
    Stored data' low' entries frames :=
  h.imp fun _ _ hp => ⟨hp.1, hlow.trans hp.2.1, hkeep _ _ hp.2.1 hp.2.2⟩

/-- Appended bytes leave the datagrams. -/
theorem Stored.append (h : Stored data low entries frames) (rest : List UInt8) :
    Stored (data ++ rest) low entries frames :=
  h.mono le_rfl fun _ _ _ hp => hp.append rest

/-- An appended datagram is stored at the end of the image. -/
theorem Stored.snoc (h : Stored data low entries frames) (hlow : low ≤ data.length) (frame : Frame) :
    Stored (data ++ frame) low (entries ++ [(data.length, frame.length)]) (frames ++ [frame]) :=
  List.rel_append (h.append frame) (.cons ⟨rfl, hlow, holdsAt_append_self data frame⟩ .nil)

end Datagrams

section Reception

/-- A received buffer that holds the bytes, with arbitrary memory around them. -/
def SkbIn.ofBytes (data : List UInt8) (stray : ℤ → UInt8) : SkbIn where
  memory i := if 0 ≤ i ∧ i < data.length then data.getD i.toNat 0 else stray i
  len := data.length

variable {data : List UInt8} (stray : ℤ → UInt8)

/-- Reads inside the block see its bytes. -/
theorem bytes_ofBytes {offset len : ℕ} (h : offset + len ≤ data.length) :
    (SkbIn.ofBytes data stray).bytes offset len = (data.drop offset).take len := by
  apply List.ext_getElem
  · simp only [bytes_length, List.length_take, List.length_drop]
    omega
  · intro i hi _
    rw [bytes_length] at hi
    have hin : (0 : ℤ) ≤ offset + i ∧ (offset + i : ℤ) < data.length := by omega
    have htoNat : ((offset : ℤ) + i).toNat = offset + i := by omega
    simp only [SkbIn.bytes, SkbIn.ofBytes, List.getElem_map, List.getElem_range, if_pos hin, htoNat,
      List.getElem_take, List.getElem_drop]
    rw [List.getD_eq_getElem _ _ (by omega)]

/-- Fields inside the block are those of its bytes. -/
theorem field_ofBytes {offset width : ℕ} (h : offset + width ≤ data.length) :
    (SkbIn.ofBytes data stray).field offset width = load data offset width := by
  rw [SkbIn.field, bytes_ofBytes stray h, load]

variable {f : NtbFormat} {p low rxMax : ℕ} {entries : List (ℕ × ℕ)} {frames : List Frame}

/-- From an entry on, the loop hands up the datagrams of that entry and of those behind it. -/
theorem rxEntries_ofBytes (htable : Table f data p entries) (hstored : Stored data 1 entries frames)
    (hframes : ∀ frame ∈ frames, ethHlen ≤ frame.length ∧ frame.length ≤ rxMax) (n i : ℕ) (up : List Frame)
    (hi : i + n = frames.length) :
    rxEntries f rxMax (SkbIn.ofBytes data stray) (fun _ => true) n ((p + f.ndpSize + i * f.dpeSize : ℕ) : ℤ) up =
      (up ++ frames.drop i, true) := by
  induction n generalizing i up with
  | zero =>
    rw [rxEntries, List.drop_of_length_le (by omega), List.append_nil]
  | succ n ih =>
    have hframe : i < frames.length := by omega
    have hentry : i < entries.length := hstored.length_eq ▸ hframe
    have hmul : (entries.length + 1) * f.dpeSize = entries.length * f.dpeSize + f.dpeSize := Nat.succ_mul ..
    have hle : i * f.dpeSize + f.dpeSize ≤ entries.length * f.dpeSize := entry_le hentry
    have hdpe := f.dpe_fits
    have hfits := htable.fits
    obtain ⟨hoffset, hlen⟩ := htable.entry i hentry
    obtain ⟨hlength, hlow, hholds⟩ := hstored.get hentry hframe
    simp only [List.get_eq_getElem] at hlength hlow hholds
    have hsize := hframes _ (List.getElem_mem hframe)
    have hfield : (SkbIn.ofBytes data stray).field ((p + f.ndpSize + i * f.dpeSize : ℕ) : ℤ) f.width =
        entries[i].1 := by
      rw [field_ofBytes stray (by omega), hoffset]
    have hfield' : (SkbIn.ofBytes data stray).field (((p + f.ndpSize + i * f.dpeSize : ℕ) : ℤ) + f.width) f.width =
        frames[i].length := by
      rw [← Int.natCast_add, field_ofBytes stray (by omega), hlen, hlength]
    have hnext : ((p + f.ndpSize + i * f.dpeSize : ℕ) : ℤ) + f.dpeSize =
        ((p + f.ndpSize + (i + 1) * f.dpeSize : ℕ) : ℤ) := by
      rw [← Int.natCast_add, Nat.succ_mul, Nat.add_assoc]
    have hin := hholds.1
    have hnull : ¬ (entries[i].1 = 0 ∨ frames[i].length = 0) := by
      have : 14 ≤ frames[i].length := hsize.1
      omega
    have hsane : ¬ (entries[i].1 > (SkbIn.ofBytes data stray).len ∨
        frames[i].length > (SkbIn.ofBytes data stray).len - entries[i].1 ∨ frames[i].length > rxMax ∨
        frames[i].length < ethHlen) := by
      have hdata : (SkbIn.ofBytes data stray).len = data.length := rfl
      rw [hdata]
      omega
    rw [rxEntries]
    simp only
    rw [hfield, hfield', if_neg hnull, if_neg hsane, if_pos trivial, hnext, bytes_ofBytes stray hin, hholds.2,
      ih (i + 1) _ (by omega), List.drop_eq_getElem_cons hframe, List.append_assoc, List.singleton_append]

/-- The verdict on a table that lies in the block is the number of its entries. -/
theorem rxVerifyNdp_ofBytes (htable : Table f data p entries) (hentries : entries ≠ [])
    (hp : p < 2 ^ 31) (hlen : data.length < 2 ^ 32) :
    rxVerifyNdp f (SkbIn.ofBytes data stray) p = entries.length := by
  have hsize := f.ndpSize_le
  have hnext := f.next_ge
  have hfits := f.next_fits
  have hdpe := f.dpe_fits
  have hwidth := f.width_ge
  have hmin := f.ndpLengthMin_le
  have hin := htable.fits
  have hpos := List.length_pos_iff.mpr hentries
  have hmul : (entries.length + 1) * f.dpeSize = entries.length * f.dpeSize + f.dpeSize := Nat.succ_mul ..
  have hone : 1 * f.dpeSize ≤ entries.length * f.dpeSize := Nat.mul_le_mul_right _ hpos
  have hlength : (SkbIn.ofBytes data stray).field ((p : ℤ) + 4) 2 =
      f.ndpSize + (entries.length + 1) * f.dpeSize := by
    have hcast : (p : ℤ) + 4 = ((p + 4 : ℕ) : ℤ) := rfl
    rw [hcast, field_ofBytes stray (by omega), htable.length]
  have hcount : (f.ndpSize + (entries.length + 1) * f.dpeSize - f.ndpSize) / f.dpeSize - 1 = entries.length := by
    rw [Nat.add_sub_cancel_left, Nat.mul_div_cancel _ (by omega), Nat.add_sub_cancel]
  have hdata : (SkbIn.ofBytes data stray).len = data.length := rfl
  rw [rxVerifyNdp, hdata, if_neg (by omega)]
  simp only
  rw [hlength, if_neg (by omega), hcount, if_neg (by omega)]

/-- Datagrams are no longer than the block that carries them. -/
theorem Block.length_le {f : NtbFormat} (h : Block f data frames) {frame : Frame} (hframe : frame ∈ frames) :
    frame.length ≤ data.length := by
  obtain ⟨p, entries, _, _, _, _, hstored⟩ := h.table
  obtain ⟨i, hi, rfl⟩ := List.getElem_of_mem hframe
  have hholds := (hstored.get (hstored.length_eq.symm ▸ hi) hi).2.2.1
  simp only [List.get_eq_getElem] at hholds
  omega

/-- A block is received as the datagrams it carries, whatever memory surrounds it. -/
theorem Block.rxFixup {ctx : RxCtx} (h : Block (ntbFormat ctx.isNdp16) data frames) (hne : frames ≠ [])
    (hlen : data.length < 2 ^ 32) (hmax : load data 8 (ntbFormat ctx.isNdp16).width ≤ ctx.rxMax)
    (hframes : ∀ frame ∈ frames, ethHlen ≤ frame.length ∧ frame.length ≤ ctx.rxMax) :
    rxFixup ctx (SkbIn.ofBytes data stray) (fun _ => true) = (frames, 1, { ctx with
      rxSeq := load data 6 2
      rxOverhead := ctx.rxOverhead + subWord 32 data.length (payloadOf frames % 2 ^ 32)
      rxNtbs := ctx.rxNtbs + 1 }) := by
  obtain ⟨p, entries, hindex, hhigh, hp, htable, hstored⟩ := h.table
  have hentries : entries ≠ [] := by
    rintro rfl
    exact hne (List.forall₂_nil_left_iff.mp hstored)
  have hdpe := (ntbFormat ctx.isNdp16).dpe_fits
  have hwidth := (ntbFormat ctx.isNdp16).width_ge
  have hnext := (ntbFormat ctx.isNdp16).next_ge
  have hnextfits := (ntbFormat ctx.isNdp16).next_fits
  have hindexge := (ntbFormat ctx.isNdp16).ndpIndex_ge
  have hnth := (ntbFormat ctx.isNdp16).nth_fits
  have hin := htable.fits
  have hdata : (SkbIn.ofBytes data stray).len = data.length := rfl
  have hfield : ∀ offset width : ℕ, offset + width ≤ data.length →
      (SkbIn.ofBytes data stray).field (offset : ℤ) width = load data offset width :=
    fun _ _ hfit => field_ofBytes stray hfit
  have hheader : rxVerifyNth (ntbFormat ctx.isNdp16) ctx (SkbIn.ofBytes data stray) =
      ((p : ℤ), { ctx with rxSeq := load data 6 2 }) := by
    have hsign := hfield 0 4 (by omega)
    have hblock := hfield 8 (ntbFormat ctx.isNdp16).width (by omega)
    have hseq := hfield 6 2 (by omega)
    rw [rxVerifyNth, hdata, if_neg (by omega), if_neg (by rw [← h.sign, ← hsign]; simp), if_neg (by
        rw [Nat.not_lt]
        exact hblock.le.trans hmax), hfield _ _ (by omega), hindex, toInt32, if_pos hp]
    exact congrArg (fun seq => ((p : ℤ), { ctx with rxSeq := seq })) hseq
  have hndp : rxNdp (ntbFormat ctx.isNdp16) ctx.rxMax (SkbIn.ofBytes data stray) (fun _ => true) p [] =
      (frames, some 0) := by
    have hall := rxEntries_ofBytes stray htable hstored hframes frames.length 0 [] (Nat.zero_add _)
    have hfirst : ((p + (ntbFormat ctx.isNdp16).ndpSize + 0 * (ntbFormat ctx.isNdp16).dpeSize : ℕ) : ℤ) =
        (p : ℤ) + (ntbFormat ctx.isNdp16).ndpSize := by
      rw [Nat.zero_mul, Nat.add_zero, Int.natCast_add]
    have hcast : (p : ℤ) + (ntbFormat ctx.isNdp16).nextNdp = ((p + (ntbFormat ctx.isNdp16).nextNdp : ℕ) : ℤ) := by
      rw [Int.natCast_add]
    rw [hfirst, List.drop_zero, List.nil_append] at hall
    rw [rxNdp]
    simp only
    rw [rxVerifyNdp_ofBytes stray htable hentries hp hlen, if_neg (by omega), hfield p 4 (by omega), htable.sign,
      if_neg (not_not_intro (Eq.refl (ntbFormat ctx.isNdp16).ndpSign)), Int.toNat_natCast, hstored.length_eq, hall,
      if_pos rfl, hcast, hfield _ _ (by omega), htable.next]
    rfl
  rw [Ncm.rxFixup]
  simp only
  rw [hheader]
  simp only
  rw [if_neg (by omega), rxNdps, hndp]
  rfl

end Reception

end LinuxFunctionTest.Ncm
