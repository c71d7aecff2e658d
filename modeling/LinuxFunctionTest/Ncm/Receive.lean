import LinuxFunctionTest.Ncm.Format
import LinuxFunctionTest.Library.Bytes
import LinuxFunctionTest.Library.Errno

/-!
# Reception of a transfer block

The receive path checks the block header, follows the chain of datagram pointer tables and hands a
copy of every datagram to the network stack. The block comes from the device, so every field is
arbitrary. Memory is modelled around the buffer, since a pointer table may reach past its end.
-/

namespace LinuxFunctionTest.Ncm

open LinuxFunctionTest.Bytes

/-- A received buffer: the memory around `skb->data`, addressed from there, and `skb->len`. -/
structure SkbIn where
  memory : ℤ → UInt8
  len : ℕ

/-- Consecutive bytes of the memory. -/
def SkbIn.bytes (skb : SkbIn) (offset : ℤ) (len : ℕ) : List UInt8 :=
  (List.range len).map fun (i : ℕ) => skb.memory (offset + i)

/-- A little-endian field of the memory. -/
def SkbIn.field (skb : SkbIn) (offset : ℤ) (width : ℕ) : ℕ := ofLE (skb.bytes offset width)

/-- The fields of `cdc_ncm_ctx` that the receive path uses. -/
structure RxCtx where
  isNdp16 : Bool
  rxMax : ℕ
  rxSeq : ℕ
  rxOverhead : ℕ
  rxNtbs : ℕ

/-- Verify the block header: the offset of the first NDP or a negative error, and the new sequence number. -/
def rxVerifyNth (f : NtbFormat) (ctx : RxCtx) (skbIn : SkbIn) : ℤ × RxCtx :=
  if skbIn.len < f.nthSize + f.ndpSize then (-Errno.einval, ctx)
  else if skbIn.field 0 4 ≠ f.nthSign then (-Errno.einval, ctx)
  else if skbIn.field 8 f.width > ctx.rxMax then (-Errno.einval, ctx)
  else (toInt32 (skbIn.field f.ndpIndex f.width), { ctx with rxSeq := skbIn.field 6 2 })

/-- `cdc_ncm_rx_verify_nth16` -/
def rxVerifyNth16 : RxCtx → SkbIn → ℤ × RxCtx := rxVerifyNth ntb16

/-- `cdc_ncm_rx_verify_nth32` -/
def rxVerifyNth32 : RxCtx → SkbIn → ℤ × RxCtx := rxVerifyNth ntb32

/-- Verify a pointer table header: the number of datagrams or a negative error. -/
def rxVerifyNdp (f : NtbFormat) (skbIn : SkbIn) (ndpoffset : ℤ) : ℤ :=
  -- the sum is a size_t, which a negative offset wraps
  if ((ndpoffset + f.ndpSize) % 2 ^ 64 : ℤ) > skbIn.len then -Errno.einval
  else
    let wLength := skbIn.field (ndpoffset + 4) 2
    if wLength < f.ndpLengthMin then -Errno.einval
    else
      let ret := (wLength - f.ndpSize) / f.dpeSize - 1
      if f.ndpSize + ret * f.dpeSize > skbIn.len then -Errno.einval else ret

/-- `cdc_ncm_rx_verify_ndp16` -/
def rxVerifyNdp16 : SkbIn → ℤ → ℤ := rxVerifyNdp ntb16

/-- `cdc_ncm_rx_verify_ndp32` -/
def rxVerifyNdp32 : SkbIn → ℤ → ℤ := rxVerifyNdp ntb32

section Fixup

variable (f : NtbFormat) (rxMax : ℕ) (skbIn : SkbIn) (alloc : ℕ → Bool)

/-- The loop over the entries of a table. It appends the datagrams it hands up and reports whether
every copy could be allocated; `alloc` answers for the allocation behind that many others. -/
def rxEntries : ℕ → ℤ → List Frame → List Frame × Bool
  | 0, _, up => (up, true)
  | remaining + 1, dpe, up =>
    let offset := skbIn.field dpe f.width
    let len := skbIn.field (dpe + f.width) f.width
    if offset = 0 ∨ len = 0 then (up, true)
    else if offset > skbIn.len ∨ len > skbIn.len - offset ∨ len > rxMax ∨ len < ethHlen then (up, true)
    else if alloc up.length then
      rxEntries remaining (dpe + f.dpeSize) (up ++ [skbIn.bytes offset len])
    else (up, false)

/-- One NDP: the datagrams handed up so far and the offset of the next NDP, none on an error. -/
def rxNdp (ndpoffset : ℤ) (up : List Frame) : List Frame × Option ℤ :=
  let nframes := rxVerifyNdp f skbIn ndpoffset
  if nframes < 0 then (up, none)
  else
    let entries :=
      if skbIn.field ndpoffset 4 ≠ f.ndpSign then (up, true)
      else rxEntries f rxMax skbIn alloc nframes.toNat (ndpoffset + f.ndpSize) up
    if entries.2 then (entries.1, some (toInt32 (skbIn.field (ndpoffset + f.nextNdp) f.width)))
    else (entries.1, none)

/-- The chain of NDPs, followed `loopcount` times beyond the first; the flag is false on an error. -/
def rxNdps : ℕ → ℤ → List Frame → List Frame × Bool
  | 0, ndpoffset, up =>
    let ndp := rxNdp f rxMax skbIn alloc ndpoffset up
    (ndp.1, ndp.2.isSome)
  | loopcount + 1, ndpoffset, up =>
    match rxNdp f rxMax skbIn alloc ndpoffset up with
    | (up, none) => (up, false)
    | (up, some next) => if next = 0 then (up, true) else rxNdps loopcount next up

end Fixup

/-- The bytes of a list of datagrams. -/
def payloadOf (frames : List Frame) : ℕ := (frames.map List.length).sum

/-- `cdc_ncm_rx_fixup`: the datagrams handed up, the return value, and the new context. -/
def rxFixup (ctx : RxCtx) (skbIn : SkbIn) (alloc : ℕ → Bool) : List Frame × ℕ × RxCtx :=
  let f := ntbFormat ctx.isNdp16
  let nth := rxVerifyNth f ctx skbIn
  if nth.1 < 0 then ([], 0, nth.2)
  else
    let ndps := rxNdps f ctx.rxMax skbIn alloc 50 nth.1 []
    if ndps.2 then
      (ndps.1, 1, { nth.2 with
        rxOverhead := nth.2.rxOverhead + subWord 32 skbIn.len (payloadOf ndps.1 % 2 ^ 32)
        rxNtbs := nth.2.rxNtbs + 1 })
    else (ndps.1, 0, nth.2)

/-- A datagram copied out of the block, of a size the host accepts. -/
def CopiedFrom (skbIn : SkbIn) (rxMax : ℕ) (frame : Frame) : Prop :=
  ethHlen ≤ frame.length ∧ frame.length ≤ rxMax ∧
    ∃ offset : ℕ, offset + frame.length ≤ skbIn.len ∧ frame = skbIn.bytes offset frame.length

/-- The two buffers have the same length and the same memory from `low` to below `high`. -/
structure AgreeOn (low high : ℤ) (skb skb' : SkbIn) : Prop where
  len : skb.len = skb'.len
  memory : ∀ i, low ≤ i → i < high → skb.memory i = skb'.memory i

@[simp] theorem bytes_length (skb : SkbIn) (offset : ℤ) (len : ℕ) : (skb.bytes offset len).length = len := by
  simp [SkbIn.bytes]

/-- Reads inside the common memory agree. -/
theorem AgreeOn.bytes {low high : ℤ} {skb skb' : SkbIn} (h : AgreeOn low high skb skb') (offset : ℤ) (len : ℕ)
    (hlow : low ≤ offset) (hhigh : offset + len ≤ high) : skb.bytes offset len = skb'.bytes offset len := by
  unfold SkbIn.bytes
  apply List.map_congr_left
  intro i hi
  have hlt := List.mem_range.mp hi
  exact h.memory _ (by omega) (by omega)

/-- Fields inside the common memory agree. -/
theorem AgreeOn.field {low high : ℤ} {skb skb' : SkbIn} (h : AgreeOn low high skb skb') (offset : ℤ) (width : ℕ)
    (hlow : low ≤ offset) (hhigh : offset + width ≤ high) :
    skb.field offset width = skb'.field offset width := by
  rw [SkbIn.field, SkbIn.field, h.bytes offset width hlow hhigh]

/-- A field is below the power of 256 of its width. -/
theorem field_lt (skb : SkbIn) (offset : ℤ) (width : ℕ) : skb.field offset width < 256 ^ width := by
  have h := ofLE_lt (skb.bytes offset width)
  rwa [bytes_length] at h

/-- A 32-bit word is an `int`. -/
theorem toInt32_bounds {n : ℕ} (h : n < 2 ^ 32) : -2 ^ 31 ≤ toInt32 n ∧ toInt32 n < 2 ^ 31 := by
  unfold toInt32
  split <;> omega

/-- A field of a format, read as an `int`, is one; in the 16-bit format it is not negative. -/
theorem toInt32_field_bounds (isNdp16 : Bool) (skb : SkbIn) (offset : ℤ) :
    -2 ^ 31 ≤ toInt32 (skb.field offset (ntbFormat isNdp16).width) ∧
      toInt32 (skb.field offset (ntbFormat isNdp16).width) < 2 ^ 31 ∧
      (isNdp16 = true → 0 ≤ toInt32 (skb.field offset (ntbFormat isNdp16).width)) := by
  have hlt := field_lt skb offset (ntbFormat isNdp16).width
  cases isNdp16 with
  | false =>
    have hbounds := toInt32_bounds hlt
    exact ⟨hbounds.1, hbounds.2, by simp⟩
  | true =>
    have hlt' : skb.field offset (ntbFormat true).width < 2 ^ 16 := hlt
    unfold toInt32
    rw [if_pos (by omega)]
    omega

section Tables

variable {f : NtbFormat} {skbIn : SkbIn} {ndpoffset : ℤ}

/-- An accepted table has its header before the end of the block, and no more entries than fit the block. -/
theorem rxVerifyNdp_spec (hlen : skbIn.len < 2 ^ 32) (hint : -2 ^ 31 ≤ ndpoffset ∧ ndpoffset < 2 ^ 31)
    (h : ¬ rxVerifyNdp f skbIn ndpoffset < 0) :
    -f.ndpSize ≤ ndpoffset ∧ ndpoffset + f.ndpSize ≤ skbIn.len ∧
      f.ndpSize + (rxVerifyNdp f skbIn ndpoffset).toNat * f.dpeSize ≤ skbIn.len := by
  have hsize := f.ndpSize_le
  unfold rxVerifyNdp at h ⊢
  simp only [Errno.einval] at h ⊢
  split at h
  · omega
  · rename_i hfits
    rw [if_neg hfits]
    split at h
    · omega
    · rename_i hmin
      rw [if_neg hmin]
      split at h
      · omega
      · rename_i hcount
        rw [if_neg hcount]
        exact ⟨by omega, by omega, by simpa using Nat.not_lt.mp hcount⟩

/-- The verdict on a table looks at its header only. -/
theorem AgreeOn.verdict {low high : ℤ} {skb skb' : SkbIn} (h : AgreeOn low high skb skb')
    (hlen : skb.len < 2 ^ 32) (hint : -2 ^ 31 ≤ ndpoffset ∧ ndpoffset < 2 ^ 31)
    (hlow : ndpoffset < low → ndpoffset < -f.ndpSize) (hhigh : (skb.len : ℤ) ≤ high) :
    rxVerifyNdp f skb ndpoffset = rxVerifyNdp f skb' ndpoffset := by
  have hsize := f.ndpSize_le
  have hnext := f.next_ge
  have hnext' := f.next_fits
  unfold rxVerifyNdp
  rw [← h.len]
  split
  · rfl
  · rename_i hfits
    rw [h.field (ndpoffset + 4) 2 (by omega) (by omega)]

end Tables

section Entries

variable (f : NtbFormat) (rxMax : ℕ) (alloc : ℕ → Bool)

/-- What the entries of a table add are copies out of the block, one for an entry at most. -/
theorem rxEntries_spec (skbIn : SkbIn) (n : ℕ) (dpe : ℤ) (up : List Frame)
    (hup : ∀ frame ∈ up, CopiedFrom skbIn rxMax frame) :
    (∀ frame ∈ (rxEntries f rxMax skbIn alloc n dpe up).1, CopiedFrom skbIn rxMax frame) ∧
      (rxEntries f rxMax skbIn alloc n dpe up).1.length ≤ up.length + n := by
  induction n generalizing dpe up with
  | zero => exact ⟨hup, le_rfl⟩
  | succ n ih =>
    unfold rxEntries
    simp only
    split_ifs with hnull hbad halloc
    · exact ⟨hup, Nat.le_add_right _ _⟩
    · exact ⟨hup, Nat.le_add_right _ _⟩
    · have hcopied : ∀ frame ∈ up ++ [skbIn.bytes (skbIn.field dpe f.width)
          (skbIn.field (dpe + f.width) f.width)], CopiedFrom skbIn rxMax frame := by
        intro frame hframe
        rcases List.mem_append.mp hframe with hold | hnew
        · exact hup frame hold
        · obtain rfl := List.mem_singleton.mp hnew
          refine ⟨?_, ?_, skbIn.field dpe f.width, ?_, ?_⟩ <;> rw [bytes_length] <;> omega
      obtain ⟨hall, hlen⟩ := ih (dpe + f.dpeSize) _ hcopied
      refine ⟨hall, hlen.trans ?_⟩
      simp only [List.length_append, List.length_singleton]
      omega
    · exact ⟨hup, Nat.le_add_right _ _⟩

/-- The entries of a table depend on the table and on the block. -/
theorem AgreeOn.entries {low high : ℤ} {skb skb' : SkbIn} (h : AgreeOn low high skb skb') (hzero : low ≤ 0)
    (hblock : (skb.len : ℤ) ≤ high) (n : ℕ) (dpe : ℤ) (up : List Frame) (hlow : low ≤ dpe)
    (hhigh : dpe + n * f.dpeSize ≤ high) :
    rxEntries f rxMax skb alloc n dpe up = rxEntries f rxMax skb' alloc n dpe up := by
  induction n generalizing dpe up with
  | zero => rfl
  | succ n ih =>
    have hdpe := f.dpe_fits
    have hmul : ((n + 1 : ℕ) : ℤ) * f.dpeSize = n * f.dpeSize + f.dpeSize := by
      rw [Int.natCast_add, Int.add_mul]
      simp
    have hpos : (0 : ℤ) ≤ n * f.dpeSize :=
      Int.mul_nonneg (Int.natCast_nonneg _) (Int.natCast_nonneg _)
    have hoffset := h.field dpe f.width hlow (by omega)
    have hlen := h.field (dpe + f.width) f.width (by omega) (by omega)
    unfold rxEntries
    simp only [← hoffset, ← hlen, ← h.len]
    split_ifs with hnull hbad halloc
    · rfl
    · rfl
    · rw [h.bytes (skb.field dpe f.width) _ (by omega) (by omega)]
      exact ih _ _ (by omega) (by omega)
    · rfl

end Entries

section Chain

variable (f : NtbFormat) (isNdp16 : Bool) (rxMax : ℕ) (alloc : ℕ → Bool)

/-- What one NDP adds are copies out of the block, at most as many as the block has room for entries. -/
theorem rxNdp_spec {skbIn : SkbIn} (hlen : skbIn.len < 2 ^ 32) {ndpoffset : ℤ}
    (hint : -2 ^ 31 ≤ ndpoffset ∧ ndpoffset < 2 ^ 31) {up : List Frame}
    (hup : ∀ frame ∈ up, CopiedFrom skbIn rxMax frame) :
    (∀ frame ∈ (rxNdp f rxMax skbIn alloc ndpoffset up).1, CopiedFrom skbIn rxMax frame) ∧
      (rxNdp f rxMax skbIn alloc ndpoffset up).1.length * f.dpeSize ≤ up.length * f.dpeSize + skbIn.len := by
  unfold rxNdp
  simp only
  split_ifs with hneg hsign halloc halloc
  · exact ⟨hup, Nat.le_add_right _ _⟩
  · exact ⟨hup, Nat.le_add_right _ _⟩
  · exact absurd rfl halloc
  all_goals
    have hcount := (rxVerifyNdp_spec hlen hint hneg).2.2
    obtain ⟨hall, hmore⟩ := rxEntries_spec f rxMax alloc skbIn
      (rxVerifyNdp f skbIn ndpoffset).toNat (ndpoffset + f.ndpSize) up hup
    refine ⟨hall, (Nat.mul_le_mul_right _ hmore).trans ?_⟩
    rw [Nat.add_mul]
    omega

/-- An NDP hands the chain a next offset that is an `int`. -/
theorem rxNdp_next {skbIn : SkbIn} {ndpoffset next : ℤ} {up : List Frame}
    (h : (rxNdp (ntbFormat isNdp16) rxMax skbIn alloc ndpoffset up).2 = some next) :
    -2 ^ 31 ≤ next ∧ next < 2 ^ 31 ∧ (isNdp16 = true → 0 ≤ next) := by
  unfold rxNdp at h
  simp only at h
  split_ifs at h <;> obtain rfl := Option.some.inj h <;> exact toInt32_field_bounds ..

/-- The chain of NDPs hands up copies out of the block, and each NDP adds no more than fit the block. -/
theorem rxNdps_spec {skbIn : SkbIn} (hlen : skbIn.len < 2 ^ 32) (loopcount : ℕ) {ndpoffset : ℤ}
    (hint : -2 ^ 31 ≤ ndpoffset ∧ ndpoffset < 2 ^ 31) {up : List Frame}
    (hup : ∀ frame ∈ up, CopiedFrom skbIn rxMax frame) :
    (∀ frame ∈ (rxNdps (ntbFormat isNdp16) rxMax skbIn alloc loopcount ndpoffset up).1,
        CopiedFrom skbIn rxMax frame) ∧
      (rxNdps (ntbFormat isNdp16) rxMax skbIn alloc loopcount ndpoffset up).1.length *
          (ntbFormat isNdp16).dpeSize ≤
        up.length * (ntbFormat isNdp16).dpeSize + (loopcount + 1) * skbIn.len := by
  induction loopcount generalizing ndpoffset up with
  | zero =>
    rw [Nat.zero_add, Nat.one_mul]
    exact rxNdp_spec (ntbFormat isNdp16) rxMax alloc hlen hint hup
  | succ loopcount ih =>
    obtain ⟨hall, hmore⟩ := rxNdp_spec (ntbFormat isNdp16) rxMax alloc hlen hint hup
    have hsplit : (loopcount + 1 + 1) * skbIn.len = (loopcount + 1) * skbIn.len + skbIn.len := by
      rw [Nat.add_mul, Nat.one_mul]
    rw [hsplit]
    unfold rxNdps
    split
    · rename_i out hndp
      rw [hndp] at hall hmore
      exact ⟨hall, by simp only at hmore ⊢; omega⟩
    · rename_i out next hndp
      rw [hndp] at hall hmore
      have hnext := rxNdp_next isNdp16 rxMax alloc (by rw [hndp])
      split
      · exact ⟨hall, by simp only at hmore ⊢; omega⟩
      · obtain ⟨hall', hmore'⟩ := ih ⟨hnext.1, hnext.2.1⟩ hall
        exact ⟨hall', by simp only at hmore hmore' ⊢; omega⟩

/-- The lowest address the receive path can read: an NDP index of 32 bits may point in front of the block. -/
def lowestRead (isNdp16 : Bool) : ℤ := if isNdp16 then 0 else -16

/-- The end of what the receive path can read: the header of an NDP may end with the block, and its entries fill as
much as the block holds beside the header. -/
def readEnd (isNdp16 : Bool) (len : ℕ) : ℤ := 2 * len - (ntbFormat isNdp16).ndpSize

/-- An NDP is read no further than this. -/
theorem AgreeOn.ndp {skb skb' : SkbIn}
    (h : AgreeOn (lowestRead isNdp16) (readEnd isNdp16 skb.len) skb skb') (hlen : skb.len < 2 ^ 32)
    (hroom : (ntbFormat isNdp16).ndpSize ≤ skb.len) {ndpoffset : ℤ}
    (hint : -2 ^ 31 ≤ ndpoffset ∧ ndpoffset < 2 ^ 31) (hpos : isNdp16 = true → 0 ≤ ndpoffset) (up : List Frame) :
    rxNdp (ntbFormat isNdp16) rxMax skb alloc ndpoffset up =
      rxNdp (ntbFormat isNdp16) rxMax skb' alloc ndpoffset up := by
  have hlowest : ndpoffset < lowestRead isNdp16 → ndpoffset < -(ntbFormat isNdp16).ndpSize := by
    cases isNdp16 with
    | false => exact fun hlt => by simpa [lowestRead, ntbFormat, ntb32] using hlt
    | true => exact fun hlt => absurd hlt (by simpa [lowestRead] using hpos rfl)
  have hzero : lowestRead isNdp16 ≤ 0 := by
    unfold lowestRead
    split <;> omega
  have hblock : (skb.len : ℤ) ≤ readEnd isNdp16 skb.len := by
    unfold readEnd
    omega
  have hverdict := h.verdict hlen hint hlowest hblock
  have hnextge := (ntbFormat isNdp16).next_ge
  have hnextfits := (ntbFormat isNdp16).next_fits
  unfold rxNdp
  simp only [← hverdict]
  by_cases hneg : rxVerifyNdp (ntbFormat isNdp16) skb ndpoffset < 0
  · rw [if_pos hneg, if_pos hneg]
  · rw [if_neg hneg, if_neg hneg]
    obtain ⟨hlow, hfits, hcount⟩ := rxVerifyNdp_spec hlen hint hneg
    have hlow' : lowestRead isNdp16 ≤ ndpoffset := by
      by_contra hlt
      have := hlowest (by omega)
      omega
    have hentries := h.entries (ntbFormat isNdp16) rxMax alloc hzero hblock
      (rxVerifyNdp (ntbFormat isNdp16) skb ndpoffset).toNat (ndpoffset + (ntbFormat isNdp16).ndpSize) up
      (by omega) (by unfold readEnd; omega)
    rw [h.field ndpoffset 4 hlow' (by omega),
      h.field (ndpoffset + (ntbFormat isNdp16).nextNdp) _ (by omega) (by omega), hentries]

/-- The chain of NDPs is read no further than this. -/
theorem AgreeOn.chain {skb skb' : SkbIn}
    (h : AgreeOn (lowestRead isNdp16) (readEnd isNdp16 skb.len) skb skb') (hlen : skb.len < 2 ^ 32)
    (hroom : (ntbFormat isNdp16).ndpSize ≤ skb.len) (loopcount : ℕ)
    {ndpoffset : ℤ} (hint : -2 ^ 31 ≤ ndpoffset ∧ ndpoffset < 2 ^ 31) (hpos : isNdp16 = true → 0 ≤ ndpoffset)
    (up : List Frame) :
    rxNdps (ntbFormat isNdp16) rxMax skb alloc loopcount ndpoffset up =
      rxNdps (ntbFormat isNdp16) rxMax skb' alloc loopcount ndpoffset up := by
  induction loopcount generalizing ndpoffset up with
  | zero =>
    unfold rxNdps
    rw [h.ndp isNdp16 rxMax alloc hlen hroom hint hpos up]
  | succ loopcount ih =>
    unfold rxNdps
    rw [← h.ndp isNdp16 rxMax alloc hlen hroom hint hpos up]
    split
    · rfl
    · rename_i out next hndp
      have hnext := rxNdp_next isNdp16 rxMax alloc (by rw [hndp])
      split
      · rfl
      · exact ih ⟨hnext.1, hnext.2.1⟩ hnext.2.2 out

end Chain

section Fixup

variable (ctx : RxCtx) (skbIn : SkbIn) (alloc : ℕ → Bool)

/-- The header check returns an error or an index that is an `int`. -/
theorem rxVerifyNth_bounds (isNdp16 : Bool) :
    -2 ^ 31 ≤ (rxVerifyNth (ntbFormat isNdp16) ctx skbIn).1 ∧
      (rxVerifyNth (ntbFormat isNdp16) ctx skbIn).1 < 2 ^ 31 := by
  unfold rxVerifyNth
  simp only [Errno.einval]
  split_ifs <;> first | omega | exact ⟨(toInt32_field_bounds ..).1, (toInt32_field_bounds ..).2.1⟩

/-- Whatever the device sends, every datagram handed up is a copy of bytes of the block, neither shorter than an
Ethernet header nor longer than the host accepts, and there are at most 51 of them for each entry that fits. -/
theorem rxFixup_copies (hlen : skbIn.len < 2 ^ 32) :
    (∀ frame ∈ (rxFixup ctx skbIn alloc).1, CopiedFrom skbIn ctx.rxMax frame) ∧
      (rxFixup ctx skbIn alloc).1.length * (ntbFormat ctx.isNdp16).dpeSize ≤ 51 * skbIn.len := by
  unfold rxFixup
  simp only
  split_ifs with hneg hok
  · exact ⟨nofun, by simp⟩
  all_goals
    have h := rxNdps_spec ctx.isNdp16 ctx.rxMax alloc hlen 50
      (rxVerifyNth_bounds ctx skbIn ctx.isNdp16) (nofun : ∀ frame ∈ [], _)
    simpa using h

/-- A block of the 16-bit format, and the four bytes behind it. A table points to a datagram of 14 bytes and to a
second table, whose header ends the block and whose entry lies behind it. -/
def sampleBytes : List UInt8 :=
  [0x4e, 0x43, 0x4d, 0x48, 12, 0, 1, 0, 50, 0, 12, 0] ++
    [0x4e, 0x43, 0x4d, 0x30, 16, 0, 42, 0, 28, 0, 14, 0, 0, 0, 0, 0] ++ List.replicate 14 7 ++
      [0x4e, 0x43, 0x4d, 0x30, 16, 0, 0, 0] ++ [27, 0, 15, 0]

/-- The block in memory that is zero around these bytes. -/
def sampleSkb : SkbIn := ⟨fun i => if 0 ≤ i then sampleBytes.getD i.toNat 0 else 0, 50⟩

/-- The same block with other memory around it. -/
def straySkb : SkbIn := ⟨fun i => if 0 ≤ i ∧ i < 92 then sampleSkb.memory i else 9, 50⟩

/-- A receiver of the 16-bit format. -/
def sampleCtx : RxCtx := ⟨true, 16384, 0, 0, 0⟩

/-- A datagram of each table is handed up. -/
theorem rxFixup_copies_sample :
    (rxFixup sampleCtx sampleSkb fun _ => true).1 = [List.replicate 14 7, 0 :: List.replicate 14 7] ∧
      (∀ frame ∈ (rxFixup sampleCtx sampleSkb fun _ => true).1, CopiedFrom sampleSkb 16384 frame) ∧
      (rxFixup sampleCtx sampleSkb fun _ => true).1.length * 4 ≤ 51 * 50 :=
  ⟨by decide +kernel, rxFixup_copies sampleCtx sampleSkb (fun _ => true) (by decide)⟩

/-- Whatever the device sends, the outcome depends on the block and on the memory behind it up to twice its
length less a table header, in the 32-bit format also on the 16 bytes in front of it, and on nothing else. -/
theorem rxFixup_reach {skb skb' : SkbIn} (hlen : skb.len < 2 ^ 32)
    (h : AgreeOn (lowestRead ctx.isNdp16) (readEnd ctx.isNdp16 skb.len) skb skb') :
    rxFixup ctx skb alloc = rxFixup ctx skb' alloc := by
  have hzero : lowestRead ctx.isNdp16 ≤ 0 := by
    unfold lowestRead
    split <;> omega
  have hindex := (ntbFormat ctx.isNdp16).ndpIndex_ge
  have hfits := (ntbFormat ctx.isNdp16).nth_fits
  by_cases hshort : skb.len < (ntbFormat ctx.isNdp16).nthSize + (ntbFormat ctx.isNdp16).ndpSize
  · have herror : ∀ skb : SkbIn, skb.len < (ntbFormat ctx.isNdp16).nthSize + (ntbFormat ctx.isNdp16).ndpSize →
        rxFixup ctx skb alloc = ([], 0, ctx) := by
      intro skb hshort
      simp [rxFixup, rxVerifyNth, hshort, Errno.einval]
    rw [herror skb hshort, herror skb' (h.len ▸ hshort)]
  · have hblock : (skb.len : ℤ) ≤ readEnd ctx.isNdp16 skb.len := by
      unfold readEnd
      omega
    have hnth : rxVerifyNth (ntbFormat ctx.isNdp16) ctx skb = rxVerifyNth (ntbFormat ctx.isNdp16) ctx skb' := by
      unfold rxVerifyNth
      rw [← h.len, if_neg hshort, if_neg hshort,
        h.field 0 4 (by omega) (by omega),
        h.field 8 _ (by omega) (by omega),
        h.field (ntbFormat ctx.isNdp16).ndpIndex _ (by omega) (by omega),
        h.field 6 2 (by omega) (by omega)]
    unfold rxFixup
    simp only [← hnth, ← h.len]
    by_cases hneg : (rxVerifyNth (ntbFormat ctx.isNdp16) ctx skb).1 < 0
    · rw [if_pos hneg, if_pos hneg]
    · rw [if_neg hneg, if_neg hneg, h.chain ctx.isNdp16 ctx.rxMax alloc hlen (by omega) 50
        (rxVerifyNth_bounds ctx skb ctx.isNdp16) (fun _ => Int.not_lt.mp hneg) []]

/-- The entry behind the block is read, and what lies further behind does not matter. -/
theorem rxFixup_reach_sample :
    rxFixup sampleCtx sampleSkb (fun _ => true) = rxFixup sampleCtx straySkb fun _ => true :=
  rxFixup_reach sampleCtx (fun _ => true) (show sampleSkb.len < 2 ^ 32 by decide)
    ⟨rfl, fun i hlow hhigh => (if_pos ⟨hlow, hhigh⟩).symm⟩

end Fixup

end LinuxFunctionTest.Ncm
