import LinuxFunctionTest.Ncm.Transmit

/-!
# The block being collected

Between two calls the transmit path holds a block in the making. Its pointer table, in the block
or aside, lists exactly the datagrams collected, and every datagram lies in the block where the
table says. The steps of the path keep this: finding the table, aligning, entering a datagram.
-/

namespace LinuxFunctionTest.Ncm

open LinuxFunctionTest.Bytes LinuxFunctionTest.Image LinuxFunctionTest.Alignment

/-- The bytes that a block with a single datagram of `longest` bytes may need, wherever its table stands. -/
def TxSettings.room (set : TxSettings) (longest : ℕ) : ℕ :=
  set.format.nthSize + (set.txModulus + set.txRemainder) + longest + set.maxNdpSize +
    (max set.txNdpModulus (set.txModulus + set.txRemainder) - 1)

/-- Settings under which datagrams of up to `longest` bytes fit the smallest buffer, and blocks stay within
`largest` bytes. -/
structure TxSettings.Sane (set : TxSettings) (longest largest : ℕ) : Prop where
  ndpModulus : ∃ k ≤ 16, set.txNdpModulus = 2 ^ k
  modulus : ∃ k ≤ 16, set.txModulus = 2 ^ k
  remainder : set.txRemainder < set.txModulus
  datagrams_pos : 0 < set.txMaxDatagrams
  datagrams_le : set.txMaxDatagrams ≤ dptDatagramsMax
  maxpacket : 2 ≤ set.maxpacket
  allocated : set.ndpToEnd = true → set.delayedAllocated = true
  maxNdpSize : set.maxNdpSize = set.format.ndpSize + (set.txMaxDatagrams + 1) * set.format.dpeSize
  room_le : set.room longest ≤ set.txMax
  room_le_min : set.room longest ≤ ntbMinOutSize
  txMax_le : set.txMax ≤ largest
  largest_ge : ntbMinOutSize ≤ largest
  largest_le : largest ≤ 2 ^ 16 + 1

/-- A datagram that the network stack may hand over. -/
def Sendable (longest : ℕ) (frame : Frame) : Prop := ethHlen ≤ frame.length ∧ frame.length ≤ longest

section Tail

variable {skb : SkbOut} {modulus remainder max k : ℕ}

/-- Aligning appends zeros, no more than to the end: it stops there, or leaves the remainder. -/
theorem alignTail_spec (hk : k ≤ 16) (hmodulus : modulus = 2 ^ k) (hremainder : remainder < modulus)
    (hlen : skb.data.length ≤ max) (hmax : max ≤ 2 ^ 17) (hcapacity : max ≤ skb.capacity) :
    ∃ padding, alignTail skb modulus remainder max =
        { skb with data := skb.data ++ List.replicate padding 0 } ∧
      skb.data.length + padding ≤ max ∧ padding ≤ modulus - 1 + remainder ∧
      (skb.data.length + padding = max ∨ (skb.data.length + padding) % modulus = remainder) := by
  subst hmodulus
  have hpow : 2 ^ k ≤ 2 ^ 16 := Nat.pow_le_pow_right (by decide) hk
  have hpos := Nat.two_pow_pos k
  have hbits : k ≤ 32 := by omega
  have hfit : skb.data.length + 2 ^ k ≤ 2 ^ 32 := by omega
  have hup := le_align hbits hfit
  have hlt := align_lt hbits hfit
  obtain ⟨q, hq⟩ := dvd_align hbits hfit
  obtain ⟨padding, hpadding⟩ : ∃ padding, padding = align 32 skb.data.length (2 ^ k) - skb.data.length + remainder :=
    ⟨_, rfl⟩
  have hsub : subWord 32 (align 32 skb.data.length (2 ^ k)) skb.data.length + remainder = padding := by
    rw [subWord_of_le hup (by omega), hpadding]
  have hrem : (skb.data.length + padding) % 2 ^ k = remainder := by
    have hsum : skb.data.length + padding = 2 ^ k * q + remainder := by omega
    rw [hsum, Nat.mul_add_mod, Nat.mod_eq_of_lt hremainder]
  have hgrow : ∀ n, skb.data.length + n ≤ max →
      (if n ≠ 0 ∧ n ≤ skb.tailroom then { skb with data := skb.data ++ List.replicate n 0 } else skb) =
        { skb with data := skb.data ++ List.replicate n 0 } := by
    intro n hn
    by_cases hzero : n = 0
    · rw [hzero, if_neg (by simp)]
      simp
    · rw [if_pos ⟨hzero, by unfold SkbOut.tailroom; omega⟩]
  unfold alignTail
  simp only
  rw [hsub]
  by_cases hover : skb.data.length + padding > max
  · rw [if_pos hover, subWord_of_le hlen (by omega)]
    exact ⟨_, hgrow _ (by omega), by omega, by omega, .inl (by omega)⟩
  · rw [if_neg hover]
    exact ⟨padding, hgrow _ (by omega), by omega, by omega, .inr hrem⟩

/-- Bytes that fit the buffer are appended. -/
theorem put_of_fits {bytes : List UInt8} (h : skb.data.length + bytes.length ≤ skb.capacity) :
    skb.put bytes = some { skb with data := skb.data ++ bytes } := by
  rw [SkbOut.put, if_pos (by unfold SkbOut.tailroom; omega)]

end Tail

/-- No table is being collected aside. -/
def DelayedClear (set : TxSettings) (delayed : List UInt8) : Prop := delayed = List.replicate set.maxNdpSize 0

/-- The table at the pointer lists the entries, and these point to the datagrams of the block. -/
inductive Open (set : TxSettings) (delayed data : List UInt8) (entries : List (ℕ × ℕ)) (frames : List Frame) :
    NdpPtr → Prop
  | aside (toEnd : set.ndpToEnd = true) (size : delayed.length = set.maxNdpSize)
      (table : Table set.format delayed 0 entries) (stored : Stored data set.format.nthSize entries frames) :
      Open set delayed data entries frames .delayed
  | inside {p : ℕ} (inFront : set.ndpToEnd = false) (clear : DelayedClear set delayed)
      (index : load data set.format.ndpIndex set.format.width = p) (low : set.format.nthSize ≤ p)
      (high : p + set.maxNdpSize ≤ data.length) (aligned : p % set.txNdpModulus = 0)
      (table : Table set.format data p entries) (stored : Stored data (p + set.maxNdpSize) entries frames) :
      Open set delayed data entries frames (.inSkb p)

/-- The block is new, with its header alone, or its table is open. -/
inductive Ready (set : TxSettings) (delayed data : List UInt8) : List (ℕ × ℕ) → List Frame → Prop
  | fresh (size : data.length = set.format.nthSize)
      (index : load data set.format.ndpIndex set.format.width = 0) (clear : DelayedClear set delayed) :
      Ready set delayed data [] []
  | opened {entries : List (ℕ × ℕ)} {frames : List Frame} {ptr : NdpPtr} (some : frames ≠ [])
      (table : Open set delayed data entries frames ptr) : Ready set delayed data entries frames

section Steps

variable {set : TxSettings} {longest largest : ℕ} {delayed data : List UInt8} {entries : List (ℕ × ℕ)}
  {frames : List Frame} {ptr : NdpPtr}

/-- Sizes that follow from sane settings. -/
theorem TxSettings.Sane.sizes (h : set.Sane longest largest) :
    16 ≤ set.maxNdpSize ∧ set.maxNdpSize ≤ 2048 ∧ 0 < set.txNdpModulus ∧ set.txNdpModulus ≤ 2 ^ 16 ∧
      0 < set.txModulus := by
  have hroom := h.room_le_min
  have hdpe := set.format.dpe_fits
  have hwidth := set.format.width_ge
  have hfits := set.format.next_fits
  have hnext := set.format.next_ge
  have hdatagrams := h.datagrams_pos
  have hmul : 2 * set.format.dpeSize ≤ (set.txMaxDatagrams + 1) * set.format.dpeSize :=
    Nat.mul_le_mul_right _ (by omega)
  have hsize := h.maxNdpSize
  obtain ⟨k, hk, hmodulus⟩ := h.ndpModulus
  obtain ⟨j, hj, hmodulus'⟩ := h.modulus
  have hpow := Nat.pow_le_pow_right (n := 2) (by decide) hk
  have hpos := Nat.two_pow_pos k
  have hpos' := Nat.two_pow_pos j
  unfold TxSettings.room ntbMinOutSize at hroom
  omega

/-- An open table has an entry for each datagram. -/
theorem Open.length_eq (h : Open set delayed data entries frames ptr) : entries.length = frames.length := by
  cases h with
  | aside toEnd size table stored => exact stored.length_eq
  | inside inFront clear index low high aligned table stored => exact stored.length_eq

/-- Appended bytes leave an open table. -/
theorem Open.append (h : Open set delayed data entries frames ptr)
    (hnth : set.format.nthSize ≤ data.length) (rest : List UInt8) :
    Open set delayed (data ++ rest) entries frames ptr := by
  cases h with
  | aside toEnd size table stored => exact .aside toEnd size table (stored.append rest)
  | inside inFront clear index low high aligned table stored =>
    have hfits := set.format.nth_fits
    refine .inside inFront clear ?_ low ?_ aligned (table.append rest) (stored.append rest)
    · rw [load_append (by omega), index]
    · rw [List.length_append]
      omega

/-- The chain of tables of a block with one table is found at once. -/
theorem findNdp_first {f : NtbFormat} {p : ℕ} (hp : p ≠ 0) (hsign : load data p 4 = f.ndpSign) :
    findNdp f data f.ndpSign (256 ^ f.width) p none = some (some p, none) := by
  obtain ⟨fuel, hfuel⟩ := Nat.exists_eq_succ_of_ne_zero (Nat.pow_pos (n := f.width) (show 0 < 256 by decide)).ne'
  rw [hfuel, findNdp, if_neg hp, if_pos hsign]

/-- A block without a table has an empty chain. -/
theorem findNdp_zero (f : NtbFormat) (data : List UInt8) (sign fuel : ℕ) :
    findNdp f data sign fuel 0 none = some (none, none) := by
  cases fuel <;> rfl

end Steps

/-- The check for room, which is made in words, passes where there is room. -/
theorem not_left_lt {curr len reserve need : ℕ} (h : len + reserve + need ≤ curr) (hcurr : curr ≤ 2 ^ 17) :
    ¬ subWord 64 (subWord 32 curr len) reserve < need := by
  have hleft : subWord 32 curr len = curr - len := subWord_of_le (by omega) (by omega)
  rw [hleft, subWord_of_le (by omega) (by omega)]
  omega

section FindingTheTable

variable {ctx : TxCtx} {skb : SkbOut} {longest largest : ℕ} {entries : List (ℕ × ℕ)} {frames : List Frame}
  {ptr : NdpPtr} {reserve : ℕ}

/-- An open table is found. -/
theorem ndp_opened (hset : ctx.set.Sane longest largest)
    (h : Open ctx.set ctx.delayedNdp skb.data entries frames ptr) :
    ndp ctx.set.format ctx skb ctx.set.format.ndpSign reserve = some (ctx, skb, some ptr) := by
  cases h with
  | aside toEnd size table stored => rw [ndp, if_neg (by simp [hset.allocated toEnd]), if_pos ⟨toEnd, table.sign⟩]
  | @inside p inFront clear index low high aligned table stored =>
    have hp : p ≠ 0 := by
      have := ctx.set.format.nth_fits
      have := ctx.set.format.width_ge
      omega
    rw [ndp, if_neg (by simp [inFront]), if_neg (by simp [inFront]), if_neg (by simp [inFront]), index,
      findNdp_first hp table.sign]
    rfl

/-- What a search for the table of a new block finds: the table is started, in the block behind an alignment, or
aside. -/
structure Started (ctx : TxCtx) (skb : SkbOut) (delayed : List UInt8) (skb' : SkbOut) (ptr : NdpPtr) : Prop where
  table : Open ctx.set delayed skb'.data [] [] ptr
  sign : load skb'.data 0 4 = load skb.data 0 4
  capacity : skb'.capacity = skb.capacity
  low : skb.data.length ≤ skb'.data.length
  high : skb'.data.length + delayedNdpSize ctx.set ≤
    skb.data.length + ctx.set.maxNdpSize + (max ctx.set.txNdpModulus (ctx.set.txModulus + ctx.set.txRemainder) - 1)

/-- A new block has room for its table, which is started. -/
theorem ndp_fresh (hset : ctx.set.Sane longest largest) (hsize : skb.data.length = ctx.set.format.nthSize)
    (hindex : load skb.data ctx.set.format.ndpIndex ctx.set.format.width = 0)
    (hclear : DelayedClear ctx.set ctx.delayedNdp) (hroom : ctx.set.room longest ≤ ctx.txCurrSize)
    (hcurr : ctx.txCurrSize ≤ 2 ^ 16 + 1) (hcapacity : ctx.txCurrSize ≤ skb.capacity)
    (hreserve : reserve ≤ longest + ctx.set.txModulus + ctx.set.txRemainder) :
    ∃ delayed skb' ptr, ndp ctx.set.format ctx skb ctx.set.format.ndpSign reserve =
        some ({ ctx with delayedNdp := delayed }, skb', some ptr) ∧ Started ctx skb delayed skb' ptr := by
  obtain ⟨hndp, hndp', hmod, hmod', hmodulus⟩ := hset.sizes
  have hnth := ctx.set.format.nth_fits
  have hnth' := ctx.set.format.nthSize_le
  have hge := ctx.set.format.ndpIndex_ge
  have hwidth := ctx.set.format.width_ge
  have hsize' := hset.maxNdpSize
  have hdatagrams := hset.datagrams_pos
  have hsign := ctx.set.format.ndpSign_pos
  have hlt := ctx.set.format.ndpSign_lt
  have hmul : 2 * ctx.set.format.dpeSize ≤ (ctx.set.txMaxDatagrams + 1) * ctx.set.format.dpeSize :=
    Nat.mul_le_mul_right _ (by omega)
  unfold TxSettings.room at hroom
  by_cases hend : ctx.set.ndpToEnd = true
  · have hdelayed : ctx.delayedNdp = List.replicate ctx.set.maxNdpSize 0 := hclear
    have hzero : load ctx.delayedNdp 0 4 = 0 := by rw [hdelayed, load_replicate_zero]
    have hstored : load skb.data ctx.set.format.ndpIndex ctx.set.format.width = 0 := hindex
    refine ⟨startNdp ctx.set.format ctx.set.format.ndpSign ctx.delayedNdp 0,
      { skb with data := store skb.data ctx.set.format.ndpIndex ctx.set.format.width skb.data.length }, .delayed,
      ?_, ?_⟩
    · rw [ndp, if_neg (by simp [hset.allocated hend]), if_neg (by rw [hzero]; omega), if_neg (by rw [hzero]; simp),
        hindex, findNdp_zero]
      simp only [Option.bind_some, hend, if_true, Option.elim_none]
      rw [if_neg (not_left_lt (by omega) (by omega))]
    · have hlen : (store skb.data ctx.set.format.ndpIndex ctx.set.format.width skb.data.length).length =
          skb.data.length := store_length (by omega) _
      have htable : Table ctx.set.format (startNdp ctx.set.format ctx.set.format.ndpSign
          ([] ++ List.replicate ctx.set.maxNdpSize 0) 0) 0 [] := startNdp_table (by omega)
      rw [List.nil_append] at htable
      constructor
      · refine .aside hend ?_ (hdelayed ▸ htable) .nil
        rw [startNdp_length (by rw [hdelayed, List.length_replicate]; omega), hdelayed, List.length_replicate]
      · exact load_store_of_apart (by omega) (by omega) _
      · rfl
      · exact hlen.ge
      · rw [hlen, delayedNdpSize, if_pos hend]
        omega
  · have hfront : ctx.set.ndpToEnd = false := by simpa using hend
    obtain ⟨k, hk, hpow⟩ := hset.ndpModulus
    obtain ⟨padding, hskb, hmax, hpad, haligned⟩ := alignTail_spec hk hpow hmod
      (show skb.data.length ≤ ctx.txCurrSize by omega) (by omega) hcapacity
    obtain ⟨p, hp⟩ : ∃ p, p = skb.data.length + padding := ⟨_, rfl⟩
    obtain ⟨front, hfrontdata⟩ : ∃ front, front = store (skb.data ++ List.replicate padding 0)
      ctx.set.format.ndpIndex ctx.set.format.width p := ⟨_, rfl⟩
    have hpadded : (skb.data ++ List.replicate padding (0 : UInt8)).length = p := by
      rw [List.length_append, List.length_replicate, hp]
    have hfrontlen : front.length = p := by rw [hfrontdata, store_length (by omega), hpadded]
    have hput : SkbOut.put ⟨front, skb.capacity⟩ (List.replicate ctx.set.maxNdpSize 0) =
        some ⟨front ++ List.replicate ctx.set.maxNdpSize 0, skb.capacity⟩ :=
      put_of_fits (by simp only [List.length_replicate]; omega)
    refine ⟨ctx.delayedNdp,
      ⟨startNdp ctx.set.format ctx.set.format.ndpSign (front ++ List.replicate ctx.set.maxNdpSize 0) p, skb.capacity⟩,
      .inSkb p, ?_, ?_⟩
    · rw [ndp, if_neg (by simp [hfront]), if_neg (by simp [hfront]), if_neg (by simp [hfront]), hindex,
        findNdp_zero]
      simp only [Option.bind_some, hfront, Bool.false_eq_true, if_false, Option.elim_none, hskb, hpadded]
      rw [if_neg (not_left_lt (by omega) (by omega)), ← hfrontdata, hput]
      rfl
    · have hlen : (front ++ List.replicate ctx.set.maxNdpSize (0 : UInt8)).length = p + ctx.set.maxNdpSize := by
        rw [List.length_append, List.length_replicate, hfrontlen]
      have hpow2 : 256 ^ 2 ≤ 256 ^ ctx.set.format.width := Nat.pow_le_pow_right (by decide) hwidth
      constructor
      · refine .inside hfront hclear ?_ (by omega) ?_ ?_ ?_ .nil
        · rw [load_startNdp (by omega) _ (by omega), load_append (by omega), hfrontdata,
            load_store_of_lt (by omega) (by omega)]
        · rw [startNdp_length (by omega), hlen]
        · exact hp ▸ haligned.resolve_left (by omega)
        · exact hfrontlen ▸ startNdp_table (by omega)
      · rw [load_startNdp (by omega) _ (by omega), load_append (by omega), hfrontdata,
          load_store_of_apart (by omega) (by omega), load_append (by omega)]
      · rfl
      · simp only
        rw [startNdp_length (by omega), hlen]
        omega
      · simp only
        rw [startNdp_length (by omega), hlen, delayedNdpSize, if_neg hend]
        omega

end FindingTheTable

section Entering

variable {s : Fill} {longest largest : ℕ} {entries : List (ℕ × ℕ)} {frames : List Frame} {ptr : NdpPtr} {skb : Frame}

/-- The context, the buffer and the variables of the loop once a datagram is entered. -/
def Fill.entered (s : Fill) (delayed data : List UInt8) (skb : Frame) : Fill :=
  { s with
    ctx := { s.ctx with
      delayedNdp := delayed
      txCurrFramePayload := s.ctx.txCurrFramePayload + skb.length }
    skbOut := { s.skbOut with data := data }
    skb := none
    n := s.n + 1 }

/-- A datagram that fits is entered in the table and appended. -/
theorem addDatagram_spec (hset : s.ctx.set.Sane longest largest)
    (h : Open s.ctx.set s.ctx.delayedNdp s.skbOut.data entries frames ptr)
    (hnth : s.ctx.set.format.nthSize ≤ s.skbOut.data.length) (hcount : entries.length < s.ctx.set.txMaxDatagrams)
    (hframe : ethHlen ≤ skb.length) (hfits : s.skbOut.data.length + skb.length ≤ s.skbOut.capacity)
    (hlarge : s.skbOut.data.length + skb.length ≤ 2 ^ 16 + 1) :
    ∃ delayed data, addDatagram s.ctx.set.format s ptr skb = some (s.entered delayed data skb, false) ∧
      Open s.ctx.set delayed data (entries ++ [(s.skbOut.data.length, skb.length)]) (frames ++ [skb]) ptr ∧
      data.length = s.skbOut.data.length + skb.length ∧
      load data 0 4 = load s.skbOut.data 0 4 := by
  obtain ⟨hndp, hndp', hmod, hmod', hmodulus⟩ := hset.sizes
  have hsize := hset.maxNdpSize
  have hdatagrams := hset.datagrams_le
  have hnthfits := s.ctx.set.format.nth_fits
  have hnthge := s.ctx.set.format.ndpIndex_ge
  have hwidth := s.ctx.set.format.width_ge
  have hnext := s.ctx.set.format.next_ge
  have hnextfits := s.ctx.set.format.next_fits
  have hpow : 256 ^ 2 ≤ 256 ^ s.ctx.set.format.width := Nat.pow_le_pow_right (by decide) hwidth
  have hentry : (entries.length + 2) * s.ctx.set.format.dpeSize ≤
      (s.ctx.set.txMaxDatagrams + 1) * s.ctx.set.format.dpeSize := Nat.mul_le_mul_right _ (by omega)
  have hentry' : (entries.length + 1) * s.ctx.set.format.dpeSize ≤
      (entries.length + 2) * s.ctx.set.format.dpeSize := Nat.mul_le_mul_right _ (by omega)
  unfold ethHlen at hframe
  unfold dptDatagramsMax at hdatagrams
  cases h with
  | aside toEnd size table stored =>
    have hroom : 0 + s.ctx.set.format.ndpSize + (entries.length + 2) * s.ctx.set.format.dpeSize ≤
        s.ctx.delayedNdp.length := by omega
    have hcount' : entries.length ≤ 40 := by omega
    refine ⟨(addEntry s.ctx.set.format s.ctx.delayedNdp 0 s.skbOut.data.length skb.length).1,
      s.skbOut.data ++ skb, ?_, ?_, List.length_append, load_append (by omega) _⟩
    · rw [addDatagram]
      simp only [put_of_fits hfits, Option.map_some]
      rw [if_neg (by rw [addEntry_index table (by omega)]; unfold dptDatagramsMax; omega)]
      rfl
    · exact .aside toEnd ((addEntry_length table hroom hcount' _ _).trans size)
        (table.addEntry hroom hcount' _ _ (by omega) (by omega)) (stored.snoc hnth skb)
  | @inside p inFront clear index low high aligned table stored =>
    have hroom : p + s.ctx.set.format.ndpSize + (entries.length + 2) * s.ctx.set.format.dpeSize ≤
        s.skbOut.data.length := by omega
    have hcount' : entries.length ≤ 40 := by omega
    obtain ⟨data, hdata⟩ : ∃ data, data =
      (addEntry s.ctx.set.format s.skbOut.data p s.skbOut.data.length skb.length).1 := ⟨_, rfl⟩
    have hlen : data.length = s.skbOut.data.length := hdata ▸ addEntry_length table hroom hcount' _ _
    have hbelow : ∀ offset width, offset + width ≤ p → load data offset width = load s.skbOut.data offset width :=
      fun offset width hle => by
        rw [hdata, load, slice_addEntry table hroom hcount' _ _ (by omega) (by omega), load]
    have hkept : Stored data (p + s.ctx.set.maxNdpSize) entries frames := by
      refine stored.mono le_rfl fun offset part hoffset hpart => ⟨hlen ▸ hpart.1, ?_⟩
      rw [hdata, slice_addEntry table hroom hcount' _ _ (by omega) (by omega)]
      exact hpart.2
    refine ⟨s.ctx.delayedNdp, data ++ skb, ?_, ?_, by rw [List.length_append, hlen], ?_⟩
    · rw [addDatagram]
      simp only [← hdata]
      rw [put_of_fits (by rw [hlen]; exact hfits), Option.map_some,
        if_neg (by rw [addEntry_index table (by omega)]; unfold dptDatagramsMax; omega)]
      rfl
    · refine .inside inFront clear ?_ low ?_ aligned ?_ ?_
      · rw [load_append (by omega), hbelow _ _ (by omega), index]
      · rw [List.length_append, hlen]
        omega
      · exact (hdata ▸ table.addEntry hroom hcount' _ _ (by omega) (by omega)).append skb
      · exact hlen ▸ hkept.snoc (hlen ▸ high) skb
    · rw [load_append (by omega), hbelow _ _ (by omega)]

end Entering

/-- The block in the making: its table lists the datagrams, every one at an offset that leaves the remainder, and
`spare` bytes are left behind them. -/
structure Collecting (ctx : TxCtx) (skbOut : SkbOut) (longest largest spare : ℕ) (entries : List (ℕ × ℕ))
    (frames : List Frame) : Prop where
  sane : ctx.set.Sane longest largest
  ready : Ready ctx.set ctx.delayedNdp skbOut.data entries frames
  sign : load skbOut.data 0 4 = ctx.set.format.nthSign
  aligned : ∀ entry ∈ entries, entry.1 % ctx.set.txModulus = ctx.set.txRemainder
  sendable : ∀ frame ∈ frames, Sendable longest frame
  room : ctx.set.room longest ≤ ctx.txCurrSize
  curr_le : ctx.txCurrSize ≤ largest
  capacity : ctx.txCurrSize ≤ skbOut.capacity
  fits : frames ≠ [] → skbOut.data.length + spare ≤ ctx.txCurrSize
  payload : ctx.txCurrFramePayload = payloadOf frames
  nth : ctx.set.format.nthSize ≤ skbOut.data.length

/-- The room kept at the end of a block for a table that goes there. -/
def tableAtEnd (set : TxSettings) : ℕ := if set.ndpToEnd then set.maxNdpSize else 0

/-- The datagrams that wait to be entered, in order. -/
def Fill.pending (s : Fill) : List Frame := s.skb.toList ++ s.ctx.txRemSkb.toList

/-- The datagrams that wait carry the signature of the table. -/
structure Fill.Signed (s : Fill) : Prop where
  skb : s.skb.isSome → s.sign = s.ctx.set.format.ndpSign
  remaining : s.ctx.txRemSkb.isSome → s.ctx.txRemSign = s.ctx.set.format.ndpSign

/-- What neither the search for a buffer nor the loop touches. -/
structure TxCtx.Accounts (ctx ctx' : TxCtx) : Prop where
  set : ctx'.set = ctx.set
  timerActive : ctx'.timerActive = ctx.timerActive
  stop : ctx'.stop = ctx.stop
  txDropped : ctx'.txDropped = ctx.txDropped
  txTimerPending : ctx'.txTimerPending = ctx.txTimerPending
  txOverhead : ctx'.txOverhead = ctx.txOverhead
  txNtbs : ctx'.txNtbs = ctx.txNtbs

/-- What the loop leaves of the context. -/
structure TxCtx.Kept (ctx ctx' : TxCtx) : Prop extends TxCtx.Accounts ctx ctx' where
  txCurrSize : ctx'.txCurrSize = ctx.txCurrSize
  txLowMemVal : ctx'.txLowMemVal = ctx.txLowMemVal

/-- What two steps leave both of them leave. -/
theorem TxCtx.Accounts.trans {ctx ctx' ctx'' : TxCtx} (h : ctx.Accounts ctx') (h' : ctx'.Accounts ctx'') :
    ctx.Accounts ctx'' where
  set := h'.set.trans h.set
  timerActive := h'.timerActive.trans h.timerActive
  stop := h'.stop.trans h.stop
  txDropped := h'.txDropped.trans h.txDropped
  txTimerPending := h'.txTimerPending.trans h.txTimerPending
  txOverhead := h'.txOverhead.trans h.txOverhead
  txNtbs := h'.txNtbs.trans h.txNtbs

/-- What two parts of the loop leave both of them leave. -/
theorem TxCtx.Kept.trans {ctx ctx' ctx'' : TxCtx} (h : ctx.Kept ctx') (h' : ctx'.Kept ctx'') : ctx.Kept ctx'' where
  toAccounts := h.toAccounts.trans h'.toAccounts
  txCurrSize := h'.txCurrSize.trans h.txCurrSize
  txLowMemVal := h'.txLowMemVal.trans h.txLowMemVal

/-- The context itself. -/
theorem TxCtx.Kept.refl (ctx : TxCtx) : ctx.Kept ctx := ⟨⟨rfl, rfl, rfl, rfl, rfl, rfl, rfl⟩, rfl, rfl⟩

section Loop

variable {s : Fill} {longest largest : ℕ} {entries : List (ℕ × ℕ)} {frames : List Frame}

/-- How one pass of the loop over datagrams ends. -/
inductive StepOutcome (s : Fill) (longest largest : ℕ) (entries : List (ℕ × ℕ)) (frames : List Frame) :
    Fill × Bool → Prop
  /-- Nothing waits any more. -/
  | empty {s' : Fill} (kept : s.ctx.Kept s'.ctx) (pending : s.pending = []) (pending' : s'.pending = [])
      (n : s'.n = s.n) (ready : s'.ready2send = s.ready2send)
      (collecting : Collecting s'.ctx s'.skbOut longest largest (delayedNdpSize s.ctx.set) entries frames) :
      StepOutcome s longest largest entries frames (s', true)
  /-- The datagram is stored for the next block. -/
  | full {s' : Fill} (kept : s.ctx.Kept s'.ctx) (none : s'.skb = none) (pending : s'.pending = s.pending)
      (signed : s'.Signed) (n : s'.n = s.n) (some : frames ≠ []) (ready : s'.ready2send = true)
      (collecting : Collecting s'.ctx s'.skbOut longest largest (tableAtEnd s.ctx.set) entries frames) :
      StepOutcome s longest largest entries frames (s', true)
  /-- The datagram is entered. -/
  | entered {s' : Fill} {skb : Frame} {entry : ℕ × ℕ} (kept : s.ctx.Kept s'.ctx) (none : s'.skb = none)
      (pending : s.pending = skb :: s'.pending) (signed : s'.Signed) (n : s'.n = s.n + 1)
      (ready : s'.ready2send = s.ready2send)
      (collecting : Collecting s'.ctx s'.skbOut longest largest (delayedNdpSize s.ctx.set) (entries ++ [entry])
        (frames ++ [skb])) :
      StepOutcome s longest largest entries frames (s', false)

/-- The block in the making does not depend on the rest of the context. -/
theorem Collecting.congr {ctx ctx' : TxCtx} {skbOut : SkbOut} {spare : ℕ}
    (h : Collecting ctx skbOut longest largest spare entries frames) (hset : ctx'.set = ctx.set)
    (hcurr : ctx'.txCurrSize = ctx.txCurrSize) (hdelayed : ctx'.delayedNdp = ctx.delayedNdp)
    (hpayload : ctx'.txCurrFramePayload = ctx.txCurrFramePayload) :
    Collecting ctx' skbOut longest largest spare entries frames where
  sane := hset ▸ h.sane
  ready := by
    rw [hset, hdelayed]
    exact h.ready
  sign := hset ▸ h.sign
  aligned := hset ▸ h.aligned
  sendable := h.sendable
  room := by
    rw [hset, hcurr]
    exact h.room
  curr_le := hcurr ▸ h.curr_le
  capacity := hcurr ▸ h.capacity
  fits := hcurr ▸ h.fits
  payload := hpayload ▸ h.payload
  nth := hset ▸ h.nth

/-- What taking the remaining datagram leaves as it was. -/
structure Taken (s t : Fill) : Prop where
  pending : t.pending = s.pending
  signed : t.Signed
  kept : s.ctx.Kept t.ctx
  n : t.n = s.n
  ready : t.ready2send = s.ready2send
  skbOut : t.skbOut = s.skbOut
  delayed : t.ctx.delayedNdp = s.ctx.delayedNdp
  payload : t.ctx.txCurrFramePayload = s.ctx.txCurrFramePayload
  remaining : s.skb = none ∨ t.skb = none → t.ctx.txRemSkb = none

/-- Taking the remaining datagram changes neither what waits nor the block. -/
theorem takeRemaining_spec (h : s.Signed) : Taken s (takeRemaining s) := by
  unfold takeRemaining
  cases hskb : s.skb with
  | none =>
    rw [Option.isNone_none, if_pos rfl]
    exact ⟨by simp [Fill.pending, hskb], ⟨h.remaining, nofun⟩, ⟨⟨rfl, rfl, rfl, rfl, rfl, rfl, rfl⟩, rfl, rfl⟩,
      rfl, rfl, rfl, rfl, rfl, fun _ => rfl⟩
  | some skb =>
    rw [Option.isNone_some, if_neg (by simp)]
    exact ⟨rfl, h, .refl _, rfl, rfl, rfl, rfl, rfl, by simp [hskb]⟩

/-- The table of a block in the making is found or started, and what is left behind it. -/
theorem ndp_spec {ctx : TxCtx} {skbOut : SkbOut} (reserve : ℕ)
    (h : Collecting ctx skbOut longest largest (delayedNdpSize ctx.set) entries frames)
    (hreserve : reserve ≤ longest + ctx.set.txModulus + ctx.set.txRemainder) :
    ∃ delayed skb' ptr, ndp ctx.set.format ctx skbOut ctx.set.format.ndpSign reserve =
        some ({ ctx with delayedNdp := delayed }, skb', some ptr) ∧
      Open ctx.set delayed skb'.data entries frames ptr ∧
      load skb'.data 0 4 = ctx.set.format.nthSign ∧ skb'.capacity = skbOut.capacity ∧
      ctx.set.format.nthSize ≤ skb'.data.length ∧
      (frames ≠ [] → skb'.data.length + delayedNdpSize ctx.set ≤ ctx.txCurrSize) ∧
      (frames = [] → skb'.data.length + delayedNdpSize ctx.set + (ctx.set.txModulus + ctx.set.txRemainder) +
        longest ≤ ctx.txCurrSize) := by
  have hlargest := h.sane.largest_le
  have hcurr := h.curr_le
  cases h.ready with
  | fresh size index clear =>
    have hroom := h.room
    obtain ⟨delayed, skb', ptr, hndp, hstarted⟩ :=
      ndp_fresh h.sane size index clear hroom (by omega) h.capacity hreserve
    have hhigh := hstarted.high
    have hlow := hstarted.low
    unfold TxSettings.room at hroom
    exact ⟨delayed, skb', ptr, hndp, hstarted.table, hstarted.sign.trans h.sign, hstarted.capacity, by omega,
      fun hne => absurd rfl hne, fun _ => by omega⟩
  | @opened _ _ ptr some table =>
    exact ⟨ctx.delayedNdp, skbOut, ptr, ndp_opened h.sane table, table, h.sign, rfl, h.nth, h.fits,
      fun hnil => absurd hnil some⟩

/-- Appending a datagram adds its length to the payload. -/
theorem payloadOf_snoc (frames : List Frame) (frame : Frame) :
    payloadOf (frames ++ [frame]) = payloadOf frames + frame.length := by
  simp [payloadOf]

/-- The datagram at hand is entered, or stored for the next block where this one has no room for it. -/
theorem place_spec {t : Fill} {skb : Frame} (h : Collecting t.ctx t.skbOut longest largest
      (delayedNdpSize t.ctx.set) entries frames)
    (hn : t.n = frames.length) (hlt : t.n < t.ctx.set.txMaxDatagrams) (hsigned : t.Signed)
    (hskb : t.skb = some skb) (hsend : Sendable longest skb) (hheld : frames ≠ [] → t.ctx.txRemSkb = none) :
    ∃ r, place t.ctx.set.format t skb = some r ∧ StepOutcome t longest largest entries frames r := by
  obtain ⟨hndp, hndp', hmod, hmod', hmodulus⟩ := h.sane.sizes
  have hremainder := h.sane.remainder
  obtain ⟨k, hk, hpow⟩ := h.sane.modulus
  have hlargest := h.sane.largest_le
  have hcurr := h.curr_le
  have hcapacity := h.capacity
  have hsize := hsend.1
  have hlong := hsend.2
  unfold ethHlen at hsize
  have hsign : t.sign = t.ctx.set.format.ndpSign := hsigned.skb (hskb ▸ rfl)
  obtain ⟨delayed, skb', ptr, hfound, hopen, hnthsign, hcap, hnth, hsome, hnil⟩ :=
    ndp_spec (skb.length + t.ctx.set.txModulus + t.ctx.set.txRemainder) h (by omega)
  have htail : tableAtEnd t.ctx.set + (t.ctx.set.txModulus + t.ctx.set.txRemainder - 1) ≤
      delayedNdpSize t.ctx.set ∨ tableAtEnd t.ctx.set = 0 := by
    unfold tableAtEnd delayedNdpSize
    split <;> omega
  have hlen : skb'.data.length ≤ t.ctx.txCurrSize := by
    rcases eq_or_ne frames [] with hempty | hne
    · have := hnil hempty
      omega
    · have := hsome hne
      omega
  obtain ⟨padding, halign, hmax, hpad, haligned⟩ :=
    alignTail_spec hk hpow hremainder hlen (by omega) (hcap ▸ hcapacity)
  obtain ⟨data, hdata⟩ : ∃ data, data = skb'.data ++ List.replicate padding 0 := ⟨_, rfl⟩
  have hdatalen : data.length = skb'.data.length + padding := by
    rw [hdata, List.length_append, List.length_replicate]
  have hopen' : Open t.ctx.set delayed data entries frames ptr := hdata ▸ hopen.append hnth _
  have hsign' : load data 0 4 = t.ctx.set.format.nthSign := by
    have hge := t.ctx.set.format.ndpIndex_ge
    have hfits := t.ctx.set.format.nth_fits
    rw [hdata, load_append (by omega), hnthsign]
  have hmin := h.sane.room_le_min
  have hdelayed : delayedNdpSize t.ctx.set < 2 ^ 20 := by
    unfold TxSettings.room ntbMinOutSize at hmin
    unfold delayedNdpSize
    split <;> omega
  rw [place]
  simp only [hsign, hfound, Option.bind_some, halign, ← hdata]
  rw [Nat.mod_eq_of_lt (by unfold TxSettings.room ntbMinOutSize at hmin; omega)]
  by_cases hfull : data.length + skb.length + delayedNdpSize t.ctx.set > t.ctx.txCurrSize
  · have hne : frames ≠ [] := fun hempty => by
      have := hnil hempty
      omega
    have hpos : t.n ≠ 0 := hn ▸ fun hzero => hne (List.length_eq_zero_iff.mp hzero)
    have hnone := hheld hne
    rw [if_pos hfull]
    refine ⟨_, rfl, .full ?_ ?_ ?_ ?_ ?_ hne ?_ ?_⟩
    all_goals simp only [noRoom, if_neg hpos]
    · exact ⟨⟨rfl, rfl, rfl, by simp [hnone], rfl, rfl, rfl⟩, rfl, rfl⟩
    · simp [Fill.pending, hskb, hnone]
    · exact ⟨nofun, fun _ => rfl⟩
    · have := hsome hne
      exact { sane := h.sane, ready := .opened hne hopen', sign := hsign', aligned := h.aligned
              sendable := h.sendable, room := h.room, curr_le := hcurr, capacity := hcap ▸ hcapacity
              fits := fun _ => by simp only; omega
              payload := h.payload, nth := by simp only; omega }
  · rw [if_neg hfull]
    have hcount := hopen'.length_eq
    obtain ⟨delayed', data', hadd, hopen'', hlen', hsign''⟩ := addDatagram_spec (s := { t with
        ctx := { t.ctx with delayedNdp := delayed }
        sign := t.ctx.set.format.ndpSign
        skbOut := { skb' with data := data } }) h.sane hopen' (by simp only; omega) (by simp only; omega)
      hsend.1 (by simp only; omega) (by simp only; omega)
    simp only at hlen' hsign''
    have hentry : data.length % t.ctx.set.txModulus = t.ctx.set.txRemainder :=
      hdatalen ▸ haligned.resolve_left (by omega)
    refine ⟨_, hadd, .entered ⟨⟨rfl, rfl, rfl, rfl, rfl, rfl, rfl⟩, rfl, rfl⟩ rfl ?_ ⟨nofun, hsigned.remaining⟩ rfl rfl
      { sane := h.sane, ready := .opened (by simp) hopen'', sign := hsign''.trans hsign', aligned := ?_
        sendable := ?_, room := h.room, curr_le := hcurr, capacity := hcap ▸ hcapacity
        fits := fun _ => ?_, payload := ?_, nth := ?_ }⟩
    · simp [Fill.pending, Fill.entered, hskb]
    · rintro entry hentries
      rcases List.mem_append.mp hentries with hold | hnew
      · exact h.aligned entry hold
      · exact List.mem_singleton.mp hnew ▸ hentry
    · rintro frame hframes
      rcases List.mem_append.mp hframes with hold | hnew
      · exact h.sendable frame hold
      · exact List.mem_singleton.mp hnew ▸ hsend
    · simp only [Fill.entered]
      omega
    · simp only [Fill.entered]
      rw [payloadOf_snoc, h.payload]
    · simp only [Fill.entered]
      omega

/-- An outcome counts for the state before the remaining datagram was taken. -/
theorem StepOutcome.of_taken {t : Fill} {r : Fill × Bool} (htaken : Taken s t)
    (h : StepOutcome t longest largest entries frames r) : StepOutcome s longest largest entries frames r := by
  have hset := htaken.kept.set
  cases h with
  | empty kept pending pending' n ready collecting =>
    exact .empty (htaken.kept.trans kept) (htaken.pending ▸ pending) pending' (n.trans htaken.n)
      (ready.trans htaken.ready) (hset ▸ collecting)
  | full kept none pending signed n some ready collecting =>
    exact .full (htaken.kept.trans kept) none (pending.trans htaken.pending) signed (n.trans htaken.n) some ready
      (hset ▸ collecting)
  | entered kept none pending signed n ready collecting =>
    exact .entered (htaken.kept.trans kept) none (htaken.pending ▸ pending) signed (htaken.n ▸ n)
      (ready.trans htaken.ready) (hset ▸ collecting)

/-- One pass of the loop takes the first datagram that waits, or leaves the loop. -/
theorem fillStep_spec (h : Collecting s.ctx s.skbOut longest largest (delayedNdpSize s.ctx.set) entries frames)
    (hn : s.n = frames.length) (hlt : s.n < s.ctx.set.txMaxDatagrams) (hsigned : s.Signed)
    (hsend : ∀ frame ∈ s.pending, Sendable longest frame) (hheld : frames ≠ [] → s.skb = none) :
    ∃ r, fillStep s.ctx.set.format s = some r ∧ StepOutcome s longest largest entries frames r := by
  have htaken := takeRemaining_spec hsigned
  obtain ⟨t, ht⟩ : ∃ t, t = takeRemaining s := ⟨_, rfl⟩
  rw [← ht] at htaken
  have hset := htaken.kept.set
  have hcollecting : Collecting t.ctx t.skbOut longest largest (delayedNdpSize t.ctx.set) entries frames := by
    rw [htaken.skbOut, hset]
    exact h.congr hset htaken.kept.txCurrSize htaken.delayed htaken.payload
  rw [fillStep]
  simp only [← ht]
  cases hskb : t.skb with
  | none =>
    have hpending : t.pending = [] := by simp [Fill.pending, hskb, htaken.remaining (.inr hskb)]
    exact ⟨_, rfl, .of_taken htaken (.empty (.refl _) hpending hpending rfl rfl hcollecting)⟩
  | some skb =>
    have hmem : skb ∈ s.pending := htaken.pending ▸ (by simp [Fill.pending, hskb])
    obtain ⟨r, hr, houtcome⟩ := place_spec hcollecting (htaken.n.trans hn) (by rw [hset, htaken.n]; exact hlt)
      htaken.signed hskb (hsend skb hmem) fun hne => htaken.remaining (.inl (hheld hne))
    exact ⟨r, hset ▸ hr, houtcome.of_taken htaken⟩

end Loop

end LinuxFunctionTest.Ncm
