import LinuxFunctionTest.Ncm.Collecting

/-!
# One call of the transmit path

A call puts the datagrams that wait behind those collected, as far as they fit. It keeps the block
in the making or completes it, and a completed block carries exactly the datagrams collected.
-/

namespace LinuxFunctionTest.Ncm

open LinuxFunctionTest.Bytes LinuxFunctionTest.Image LinuxFunctionTest.Alignment

section Loop

variable {s : Fill} {longest largest : ℕ} {entries : List (ℕ × ℕ)} {frames : List Frame}

/-- The table at the end is part of the room kept for it. -/
theorem tableAtEnd_le {set : TxSettings} (h : 0 < set.txModulus) : tableAtEnd set ≤ delayedNdpSize set := by
  unfold tableAtEnd delayedNdpSize
  split <;> omega

/-- Less room may be asked for behind the datagrams. -/
theorem Collecting.mono {ctx : TxCtx} {skbOut : SkbOut} {spare spare' : ℕ}
    (h : Collecting ctx skbOut longest largest spare entries frames) (hle : spare' ≤ spare) :
    Collecting ctx skbOut longest largest spare' entries frames :=
  { h with fits := fun hne => (Nat.add_le_add_left hle _).trans (h.fits hne) }

/-- What the loop over the datagrams leaves: those taken are in the block, at most one waits, and a block that need
not go out has room for its table. -/
structure LoopOutcome (s : Fill) (longest largest : ℕ) (frames : List Frame) (s' : Fill)
    (entries' : List (ℕ × ℕ)) (taken : List Frame) : Prop where
  kept : s.ctx.Kept s'.ctx
  skb : s'.skb = none
  pending : s.pending = taken ++ s'.ctx.txRemSkb.toList
  signed : s'.Signed
  n : s'.n = (frames ++ taken).length
  ready : s.ready2send = true → s'.ready2send = true
  closing : Collecting s'.ctx s'.skbOut longest largest (tableAtEnd s.ctx.set) entries' (frames ++ taken)
  waiting : frames ++ taken = [] ∨ (s'.ready2send = false ∧ s'.n < s.ctx.set.txMaxDatagrams) →
    s'.ctx.txRemSkb = none ∧
      Collecting s'.ctx s'.skbOut longest largest (delayedNdpSize s.ctx.set) entries' (frames ++ taken)

/-- Without a datagram at hand, what waits is the remaining one. -/
theorem pending_of_none (h : s.skb = none) : s.pending = s.ctx.txRemSkb.toList := by
  simp [Fill.pending, h]

/-- The loop takes the datagrams that wait, in order, until one has no room or the block is complete. -/
theorem fillLoop_spec (passes : ℕ)
    (h : Collecting s.ctx s.skbOut longest largest (delayedNdpSize s.ctx.set) entries frames)
    (hn : s.n = frames.length) (hpasses : s.n + passes = s.ctx.set.txMaxDatagrams) (hsigned : s.Signed)
    (hsend : ∀ frame ∈ s.pending, Sendable longest frame) (hheld : frames ≠ [] → s.skb = none) :
    ∃ s' entries' taken, fillLoop s.ctx.set.format passes s = some s' ∧
      LoopOutcome s longest largest frames s' entries' taken := by
  have hdatagrams := h.sane.datagrams_pos
  induction passes generalizing s entries frames with
  | zero =>
    have hne : frames ≠ [] := by
      rintro rfl
      simp only [List.length_nil] at hn
      omega
    refine ⟨s, entries, [], rfl, ⟨.refl _, hheld hne, pending_of_none (hheld hne), hsigned,
      by simpa using hn, id, ?_, ?_⟩⟩
    · rw [List.append_nil]
      exact h.mono (tableAtEnd_le h.sane.sizes.2.2.2.2)
    · rintro (hempty | hwait)
      · exact absurd (by simpa using hempty) hne
      · omega
  | succ passes ih =>
    obtain ⟨r, hr, houtcome⟩ := fillStep_spec h hn (by omega) hsigned hsend hheld
    rw [fillLoop, hr, Option.bind_some]
    cases houtcome with
    | @empty s' kept pending pending' n ready collecting =>
      obtain ⟨hskb, hrem⟩ : s'.skb = none ∧ s'.ctx.txRemSkb = none := by
        simpa [Fill.pending] using pending'
      refine ⟨s', entries, [], rfl, ⟨kept, hskb, by simp [pending, hrem], ⟨by simp [hskb], by simp [hrem]⟩, ?_,
        fun hready => ready.trans hready, ?_, fun _ => ⟨hrem, ?_⟩⟩⟩
      · rw [List.append_nil, n, hn]
      · rw [List.append_nil]
        exact collecting.mono (tableAtEnd_le h.sane.sizes.2.2.2.2)
      · rw [List.append_nil]
        exact collecting
    | @full s' kept none pending signed n some ready collecting =>
      refine ⟨s', entries, [], rfl, ⟨kept, none, ?_, signed, ?_, fun _ => ready, ?_, ?_⟩⟩
      · rw [← pending, pending_of_none none, List.nil_append]
      · rw [List.append_nil, n, hn]
      · rw [List.append_nil]
        exact collecting
      · rintro (hempty | hwait)
        · exact absurd (by simpa using hempty) some
        · exact absurd hwait.1 (by simp [ready])
    | @entered s' skb entry kept none pending signed n ready collecting =>
      have hset := kept.set
      obtain ⟨s'', entries'', taken, hrun, hloop⟩ := ih (s := s') (hset ▸ collecting)
        (by rw [n, hn, List.length_append, List.length_singleton]) (by rw [hset]; omega) signed
        (fun frame hframe => hsend frame (pending ▸ List.mem_cons_of_mem _ hframe)) (fun _ => none)
        (hset ▸ hdatagrams)
      have hsplit : frames ++ [skb] ++ taken = frames ++ skb :: taken := by simp
      refine ⟨s'', entries'', skb :: taken, hset ▸ hrun, ⟨kept.trans hloop.kept, hloop.skb, ?_, hloop.signed, ?_, ?_,
        ?_, ?_⟩⟩
      · rw [pending, hloop.pending, List.cons_append]
      · rw [hloop.n, hsplit]
      · exact fun hready => hloop.ready (ready.trans hready)
      · rw [← hsplit, ← hset]
        exact hloop.closing
      · rw [← hsplit, ← hset]
        exact hloop.waiting

end Loop

/-- A block that carries the datagrams as the device asks for it: every datagram at an offset that leaves the
remainder, and a table in front of them at a multiple of its alignment. -/
structure Compliant (set : TxSettings) (data : List UInt8) (frames : List Frame) : Prop where
  sign : load data 0 4 = set.format.nthSign
  table : ∃ p entries, load data set.format.ndpIndex set.format.width = p ∧ set.format.nthSize ≤ p ∧ p < 2 ^ 31 ∧
    Table set.format data p entries ∧ Stored data set.format.nthSize entries frames ∧
    (∀ entry ∈ entries, entry.1 % set.txModulus = set.txRemainder) ∧
    (set.ndpToEnd = false → p % set.txNdpModulus = 0)

section Sending

variable {set : TxSettings} {data : List UInt8} {frames : List Frame}

/-- Such a block carries the datagrams. -/
theorem Compliant.block (h : Compliant set data frames) : Block set.format data frames := by
  obtain ⟨p, entries, hindex, hlow, hp, htable, hstored, _⟩ := h.table
  have hfits := set.format.nth_fits
  have hwidth := set.format.width_ge
  exact ⟨h.sign, p, entries, hindex, hlow, hp, htable, hstored.mono (by omega) fun _ _ _ hpart => hpart⟩

/-- Padding behind a block leaves it. -/
theorem Compliant.append (h : Compliant set data frames) (rest : List UInt8) :
    Compliant set (data ++ rest) frames := by
  obtain ⟨p, entries, hindex, hlow, hp, htable, hstored, haligned⟩ := h.table
  have hfits := set.format.nth_fits
  have hge := set.format.ndpIndex_ge
  have hin := htable.fits
  refine ⟨?_, p, entries, ?_, hlow, hp, htable.append rest, hstored.append rest, haligned⟩
  · rw [load_append (by omega), h.sign]
  · rw [load_append (by omega), hindex]

/-- Completing the length of a block leaves what it carries. -/
theorem Compliant.storeLength (h : Compliant set data frames) (value : ℕ) :
    Compliant set (store data 8 set.format.width value) frames := by
  obtain ⟨p, entries, hindex, hlow, hp, htable, hstored, haligned⟩ := h.table
  have hfits := set.format.nth_fits
  have hge := set.format.ndpIndex_ge
  have hin := htable.fits
  refine ⟨?_, p, entries, ?_, hlow, hp, htable.store (by omega) (by omega) _, ?_, haligned⟩
  · rw [load_store_of_apart (by omega) (by omega), h.sign]
  · rw [load_store_of_apart (by omega) (by omega), hindex]
  · exact hstored.mono le_rfl fun offset part hoffset hpart => hpart.store (by omega) (by omega) _

variable {ctx : TxCtx} {skbOut : SkbOut} {longest largest : ℕ} {entries : List (ℕ × ℕ)}

/-- With its table in place, in front or at the end, a block carries the datagrams collected. -/
theorem putDelayedNdp_spec (h : Collecting ctx skbOut longest largest (tableAtEnd ctx.set) entries frames)
    (hne : frames ≠ []) :
    ∃ delayed data, putDelayedNdp ctx.set.format ctx skbOut =
        some ({ ctx with delayedNdp := delayed }, { skbOut with data := data }) ∧
      DelayedClear ctx.set delayed ∧ Compliant ctx.set data frames ∧ data.length ≤ ctx.txCurrSize := by
  obtain ⟨hndp, hndp', hmod, hmod', hmodulus⟩ := h.sane.sizes
  have hlargest := h.sane.largest_le
  have hcurr := h.curr_le
  have hcapacity := h.capacity
  have hnth := h.nth
  have hnthfits := ctx.set.format.nth_fits
  have hge := ctx.set.format.ndpIndex_ge
  have hwidth := ctx.set.format.width_ge
  have hfits := h.fits hne
  have hpow2 : 256 ^ 2 ≤ 256 ^ ctx.set.format.width := Nat.pow_le_pow_right (by decide) hwidth
  obtain ⟨k, hk, hpow⟩ := h.sane.ndpModulus
  cases h.ready with
  | fresh => exact absurd rfl hne
  | opened some table =>
    cases table with
    | inside inFront clear index low high aligned table stored =>
      refine ⟨ctx.delayedNdp, skbOut.data, ?_, clear, ?_, ?_⟩
      · rw [putDelayedNdp, if_neg (by simp [inFront])]
      · exact ⟨h.sign, _, entries, index, low, by omega, table, stored.mono (by omega) fun _ _ _ hp => hp,
          h.aligned, fun _ => aligned⟩
      · omega
    | aside toEnd size table stored =>
      rw [tableAtEnd, if_pos toEnd] at hfits
      have hsub : subWord 32 ctx.txCurrSize ctx.set.maxNdpSize = ctx.txCurrSize - ctx.set.maxNdpSize :=
        subWord_of_le (by omega) (by omega)
      obtain ⟨padding, halign, hmax, hpad, _⟩ := alignTail_spec hk hpow hmod
        (show skbOut.data.length ≤ ctx.txCurrSize - ctx.set.maxNdpSize by omega) (by omega) (by omega)
      obtain ⟨p, hp⟩ : ∃ p, p = skbOut.data.length + padding := ⟨_, rfl⟩
      have hpadded : (skbOut.data ++ List.replicate padding (0 : UInt8)).length = p := by
        rw [List.length_append, List.length_replicate, hp]
      obtain ⟨front, hfront⟩ : ∃ front, front = store (skbOut.data ++ List.replicate padding 0)
        ctx.set.format.ndpIndex ctx.set.format.width p := ⟨_, rfl⟩
      have hlen : front.length = p := by rw [hfront, store_length (by omega), hpadded]
      have hstored : Stored front ctx.set.format.nthSize entries frames := by
        refine (stored.append (List.replicate padding 0)).mono le_rfl fun offset part hoffset hpart => ?_
        exact hfront ▸ hpart.store (by omega) (by omega) _
      refine ⟨List.replicate ctx.set.maxNdpSize 0, front ++ ctx.delayedNdp, ?_, rfl, ?_, ?_⟩
      · rw [putDelayedNdp, if_pos toEnd]
        simp only [hsub, halign, hpadded, ← hfront]
        rw [List.take_of_length_le size.le, put_of_fits (by simp only; omega), Option.map_some]
      · refine ⟨?_, p, entries, ?_, by omega, by omega, ?_, hstored.append _, h.aligned, by simp [toEnd]⟩
        · rw [load_append (by omega), hfront, load_store_of_apart (by omega) (by omega), load_append (by omega),
            h.sign]
        · rw [load_append (by omega), hfront, load_store_of_lt (by omega) (by omega)]
        · exact hlen ▸ table.prepend front
      · rw [List.length_append, hlen, size]
        omega

/-- Padding stays within the size of the block; it fills the block or ends it with a short packet. -/
theorem pad_spec (hlen : skbOut.data.length ≤ ctx.txCurrSize) (hcapacity : ctx.txCurrSize ≤ skbOut.capacity)
    (hcurr : ctx.txCurrSize < 2 ^ 32) (hpacket : 2 ≤ ctx.set.maxpacket) :
    ∃ rest, pad ctx skbOut = some { skbOut with data := skbOut.data ++ rest } ∧
      (skbOut.data ++ rest).length ≤ ctx.txCurrSize ∧
      ((skbOut.data ++ rest).length = ctx.txCurrSize ∨
        (skbOut.data ++ rest).length % ctx.set.maxpacket ≠ 0) := by
  unfold pad
  simp only
  by_cases hfull : ¬ ctx.set.sendZlp ∧ skbOut.data.length > ctx.set.minTxPkt
  · have hsub : subWord 32 ctx.txCurrSize skbOut.data.length = ctx.txCurrSize - skbOut.data.length :=
      subWord_of_le hlen hcurr
    have htotal : (skbOut.data ++ List.replicate (ctx.txCurrSize - skbOut.data.length) (0 : UInt8)).length =
        ctx.txCurrSize := by
      rw [List.length_append, List.length_replicate]
      omega
    rw [if_pos hfull, hsub, if_neg (by omega)]
    exact ⟨_, put_of_fits (by rw [List.length_replicate]; omega), htotal.le, .inl htotal⟩
  · rw [if_neg hfull]
    by_cases hshort : skbOut.data.length < ctx.txCurrSize ∧ skbOut.data.length % ctx.set.maxpacket = 0
    · have htotal : (skbOut.data ++ [0]).length = skbOut.data.length + 1 := by simp
      have hone : (skbOut.data.length + 1) % ctx.set.maxpacket = 1 := by
        rw [Nat.add_mod, hshort.2, Nat.zero_add, Nat.mod_mod, Nat.mod_eq_of_lt hpacket]
      rw [if_pos hshort]
      refine ⟨[0], put_of_fits (by simp only [List.length_singleton]; omega), by omega, .inr ?_⟩
      rw [htotal, hone]
      decide
    · rw [if_neg hshort]
      exact ⟨[], by rw [List.append_nil], by rw [List.append_nil]; exact hlen,
        by rw [List.append_nil]; omega⟩

/-- What a block on its way to the device is: it carries the datagrams as the device asks for it, is no larger
than its buffer, names its own length, and ends with a short packet unless it fills its buffer. -/
structure Sent (ctx : TxCtx) (ntb : SkbOut) (frames : List Frame) : Prop where
  compliant : Compliant ctx.set ntb.data frames
  size : ntb.data.length ≤ ctx.txCurrSize
  blockLength : load ntb.data 8 ctx.set.format.width = ntb.data.length % 256 ^ ctx.set.format.width
  ends : ntb.data.length = ctx.txCurrSize ∨ ntb.data.length % ctx.set.maxpacket ≠ 0

/-- A block with datagrams is completed, and the framing overhead is counted. -/
theorem sendNtb_spec (h : Collecting ctx skbOut longest largest (tableAtEnd ctx.set) entries frames)
    (hne : frames ≠ []) :
    ∃ delayed ntb, sendNtb ctx.set.format ctx skbOut = some ({ ctx with
        delayedNdp := delayed
        txCurrSkb := none
        txOverhead := ctx.txOverhead + subWord 32 ntb.data.length (payloadOf frames % 2 ^ 32)
        txNtbs := ctx.txNtbs + 1 }, ntb) ∧
      DelayedClear ctx.set delayed ∧ Sent ctx ntb frames := by
  have hlargest := h.sane.largest_le
  have hcurr := h.curr_le
  obtain ⟨delayed, data, hput, hclear, hcompliant, hlen⟩ := putDelayedNdp_spec h hne
  obtain ⟨rest, hpad, hsize, hends⟩ := pad_spec
    (show ({ skbOut with data := data } : SkbOut).data.length ≤
      ({ ctx with delayedNdp := delayed } : TxCtx).txCurrSize from hlen)
    h.capacity (by simp only; omega) h.sane.maxpacket
  simp only at hpad hsize hends
  have hpadded := hcompliant.append rest
  have hroom : 8 + ctx.set.format.width ≤ (data ++ rest).length := by
    obtain ⟨p, entries, _, hlow, _, htable, _⟩ := hpadded.table
    have hfits := ctx.set.format.nth_fits
    have hge := ctx.set.format.ndpIndex_ge
    have hin := htable.fits
    omega
  refine ⟨delayed, { skbOut with
    data := store (data ++ rest) 8 ctx.set.format.width (data ++ rest).length }, ?_, hclear, ?_⟩
  · rw [sendNtb, hput, Option.bind_some]
    simp only
    rw [hpad, Option.map_some, store_length hroom, h.payload]
  · exact { compliant := hpadded.storeLength _
            size := (store_length hroom _).trans_le hsize
            blockLength := by
              simp only
              rw [load_store hroom, store_length hroom]
            ends := by
              simp only
              rw [store_length hroom]
              exact hends }

end Sending

/-- Between two calls: the datagrams collected, none without a block, and at most one that waits for the next block,
none beside datagrams collected. -/
structure Held (ctx : TxCtx) (longest largest : ℕ) (frames : List Frame) : Prop where
  sane : ctx.set.Sane longest largest
  idle : ctx.txCurrSkb = none → frames = [] ∧ DelayedClear ctx.set ctx.delayedNdp
  busy : ∀ skbOut, ctx.txCurrSkb = some skbOut →
    (∃ entries, Collecting ctx skbOut longest largest (delayedNdpSize ctx.set) entries frames) ∧
      ctx.txCurrFrameNum = frames.length ∧ frames.length < ctx.set.txMaxDatagrams
  alone : frames ≠ [] → ctx.txRemSkb = none
  signed : ctx.txRemSkb.isSome → ctx.txRemSign = ctx.set.format.ndpSign
  sendable : ∀ frame ∈ ctx.txRemSkb.toList, Sendable longest frame

/-- While memory for full buffers lasts, a block has the full size that was set when it was begun. -/
def FullSize (ctx : TxCtx) (mem : Memory) (ctx' : TxCtx) : Prop :=
  mem.full.isSome = true → ctx.txLowMemVal = 0 → ctx'.txLowMemVal = 0 ∧
    (ctx'.txCurrSize = ctx.set.txMax ∨ (ctx.txCurrSkb.isSome = true ∧ ctx'.txCurrSize = ctx.txCurrSize))

/-- How a call of the transmit path ends. -/
inductive TxOutcome (ctx : TxCtx) (skb : Option Frame) (mem : Memory) (longest largest : ℕ) (frames : List Frame) :
    TxCtx × Option SkbOut → Prop
  /-- No memory for a block: the datagram that waited is lost, the new one waits. -/
  | failed {ctx' : TxCtx} {lost : List Frame} (memory : mem.full = none ∨ (ctx.txLowMemVal ≠ 0 ∧ mem.small = none))
      (idle : ctx.txCurrSkb = none) (held : Held ctx' longest largest [])
      (still : ctx'.txCurrSkb = none) (set : ctx'.set = ctx.set)
      (order : ctx.txRemSkb.toList ++ skb.toList = lost ++ ctx'.txRemSkb.toList)
      (txDropped : ctx'.txDropped = ctx.txDropped + lost.length)
      (timerActive : ctx'.timerActive = ctx.timerActive) (stop : ctx'.stop = ctx.stop)
      (txTimerPending : ctx'.txTimerPending = ctx.txTimerPending)
      (txOverhead : ctx'.txOverhead = ctx.txOverhead) (txNtbs : ctx'.txNtbs = ctx.txNtbs) :
      TxOutcome ctx skb mem longest largest frames (ctx', none)
  /-- The block waits for more, under the timer. -/
  | waits {ctx' : TxCtx} {taken : List Frame} (held : Held ctx' longest largest (frames ++ taken))
      (set : ctx'.set = ctx.set) (order : ctx.txRemSkb.toList ++ skb.toList = taken)
      (empty : ctx'.txRemSkb = none) (flush : skb = none → frames ++ taken = [])
      (txDropped : ctx'.txDropped = ctx.txDropped)
      (armed : frames ++ taken ≠ [] → ctx'.timerActive = true ∨ ctx'.stop = true)
      (timerActive : ctx.timerActive = true → ctx'.timerActive = true) (stop : ctx'.stop = ctx.stop)
      (pending_le : ctx.txTimerPending ≤ timerPendingCnt → ctx'.txTimerPending ≤ timerPendingCnt)
      (txOverhead : ctx'.txOverhead = ctx.txOverhead) (txNtbs : ctx'.txNtbs = ctx.txNtbs)
      (fullSize : FullSize ctx mem ctx') :
      TxOutcome ctx skb mem longest largest frames (ctx', none)
  /-- A block goes out. -/
  | sends {ctx' : TxCtx} {ntb : SkbOut} {taken : List Frame} (held : Held ctx' longest largest [])
      (still : ctx'.txCurrSkb = none) (set : ctx'.set = ctx.set)
      (order : ctx.txRemSkb.toList ++ skb.toList = taken ++ ctx'.txRemSkb.toList)
      (nonempty : frames ++ taken ≠ []) (sendable : ∀ frame ∈ frames ++ taken, Sendable longest frame)
      (sent : Sent ctx' ntb (frames ++ taken)) (curr_le : ctx'.txCurrSize ≤ largest)
      (txDropped : ctx'.txDropped = ctx.txDropped)
      (timerActive : ctx'.timerActive = ctx.timerActive) (stop : ctx'.stop = ctx.stop)
      (txTimerPending : ctx'.txTimerPending = ctx.txTimerPending)
      (txOverhead : ctx'.txOverhead =
        ctx.txOverhead + subWord 32 ntb.data.length (payloadOf (frames ++ taken) % 2 ^ 32))
      (txNtbs : ctx'.txNtbs = ctx.txNtbs + 1) (fullSize : FullSize ctx mem ctx') :
      TxOutcome ctx skb mem longest largest frames (ctx', some ntb)

section Calls

variable {longest largest : ℕ} {frames : List Frame}

/-- Leaving without a block changes nothing but the timer, which then runs if there are datagrams in the block. -/
theorem exitNoSkb_spec (ctx : TxCtx) (n : ℕ) :
    ∃ active, exitNoSkb ctx n = { ctx with timerActive := active } ∧ (ctx.timerActive = true → active = true) ∧
      (ctx.txCurrSkb.isSome = true → n > 0 → active = true ∨ ctx.stop = true) ∧
      (ctx.txCurrSkb.isSome = false → active = ctx.timerActive) := by
  unfold exitNoSkb txTimeoutStart
  by_cases hheld : ctx.txCurrSkb.isSome = true ∧ n > 0
  · rw [if_pos hheld]
    by_cases hrunning : ctx.timerActive = true ∨ ctx.stop = true
    · rw [if_pos hrunning]
      exact ⟨ctx.timerActive, rfl, id, fun _ _ => hrunning, fun _ => rfl⟩
    · rw [if_neg hrunning]
      exact ⟨true, rfl, fun _ => rfl, fun _ _ => .inl rfl, fun hno => absurd hheld.1 (by simp [hno])⟩
  · rw [if_neg hheld]
    exact ⟨ctx.timerActive, rfl, id, fun hsome hn => absurd ⟨hsome, hn⟩ hheld, fun _ => rfl⟩

/-- Holding does not depend on the timer. -/
theorem Held.congr {ctx ctx' : TxCtx} (h : Held ctx longest largest frames) (hset : ctx'.set = ctx.set)
    (hskb : ctx'.txCurrSkb = ctx.txCurrSkb) (hsize : ctx'.txCurrSize = ctx.txCurrSize)
    (hdelayed : ctx'.delayedNdp = ctx.delayedNdp) (hpayload : ctx'.txCurrFramePayload = ctx.txCurrFramePayload)
    (hnum : ctx'.txCurrFrameNum = ctx.txCurrFrameNum) (hrem : ctx'.txRemSkb = ctx.txRemSkb)
    (hsign : ctx'.txRemSign = ctx.txRemSign) : Held ctx' longest largest frames where
  sane := hset ▸ h.sane
  idle := by
    rw [hskb, hset, hdelayed]
    exact h.idle
  busy := fun skbOut hskbOut => by
    obtain ⟨⟨entries, hcollecting⟩, hrest⟩ := h.busy skbOut (hskb ▸ hskbOut)
    rw [hset, hnum]
    exact ⟨⟨entries, hcollecting.congr hset hsize hdelayed hpayload⟩, hrest⟩
  alone := hrem ▸ h.alone
  signed := by
    rw [hrem, hsign, hset]
    exact h.signed
  sendable := hrem ▸ h.sendable

/-- Behind the loop the block is kept, under the timer, or goes out. -/
theorem afterLoop_spec {ctx : TxCtx} {skb : Option Frame} (mem : Memory) {s s' : Fill} {entries' : List (ℕ × ℕ)}
    {taken : List Frame} (hacc : ctx.Accounts s.ctx) (hloop : LoopOutcome s longest largest frames s' entries' taken)
    (horder : s.pending = ctx.txRemSkb.toList ++ skb.toList) (hready : skb = none → s.ready2send = true)
    (hsend : ∀ frame ∈ s.pending, Sendable longest frame) (hfull : FullSize ctx mem s.ctx) :
    ∃ r, afterLoop ctx.set.format s' = some r ∧ TxOutcome ctx skb mem longest largest frames r := by
  have hkept := hacc.trans hloop.kept.toAccounts
  have hset := hkept.set
  have hset' := hloop.kept.set
  have hfull' : FullSize ctx mem s'.ctx := by
    rw [FullSize, hloop.kept.txCurrSize, hloop.kept.txLowMemVal]
    exact hfull
  have hsane : ctx.set.Sane longest largest := hset ▸ hloop.closing.sane
  have hrem : ∀ frame ∈ s'.ctx.txRemSkb.toList, Sendable longest frame := fun frame hframe =>
    hsend frame (hloop.pending ▸ List.mem_append_right _ hframe)
  have hsigned : s'.ctx.txRemSkb.isSome → s'.ctx.txRemSign = ctx.set.format.ndpSign := hset ▸ hloop.signed.remaining
  have hlen : s'.n = 0 ↔ frames ++ taken = [] := by rw [hloop.n, List.length_eq_zero_iff]
  by_cases hwaits : frames ++ taken = [] ∨ (s'.ready2send = false ∧ s'.n < s.ctx.set.txMaxDatagrams ∧
      ctx.set.timerInterval > 0)
  · obtain ⟨hempty, hcollecting⟩ := hloop.waiting (hwaits.imp_right fun h => ⟨h.1, h.2.1⟩)
    have hmax : s'.n < s'.ctx.set.txMaxDatagrams := by
      have hpos := hsane.datagrams_pos
      rw [hset]
      rcases hwaits with hnil | hwait
      · rw [hlen.mpr hnil]
        exact hpos
      · exact hacc.set ▸ hwait.2.1
    -- both ways of waiting differ in the count of timer rounds only
    obtain ⟨rounds, hrounds, hafter⟩ : ∃ rounds,
        (rounds = s'.ctx.txTimerPending ∨ rounds = timerPendingCnt) ∧
        afterLoop ctx.set.format s' = some (exitNoSkb { s'.ctx with
          txCurrFrameNum := s'.n
          txCurrSkb := some s'.skbOut
          txTimerPending := rounds } s'.n, none) := by
      unfold afterLoop
      simp only [hloop.skb, Option.isSome_none, Bool.false_eq_true, if_false]
      by_cases hzero : s'.n = 0
      · rw [if_pos hzero]
        exact ⟨s'.ctx.txTimerPending, .inl rfl, rfl⟩
      · have hwait := hwaits.resolve_left (hlen.not.mp hzero)
        rw [if_neg hzero, if_pos ⟨hmax, hwait.1, hset ▸ hwait.2.2⟩]
        refine ⟨_, ?_, rfl⟩
        split
        · exact .inr rfl
        · exact .inl rfl
    obtain ⟨active, hexit, hmono, harmed, _⟩ := exitNoSkb_spec { s'.ctx with
      txCurrFrameNum := s'.n
      txCurrSkb := some s'.skbOut
      txTimerPending := rounds } s'.n
    have hheld : Held ({ s'.ctx with
        txCurrFrameNum := s'.n
        txCurrSkb := some s'.skbOut
        txTimerPending := rounds
        timerActive := active } : TxCtx) longest largest (frames ++ taken) :=
      { sane := hset ▸ hsane
        idle := nofun
        busy := fun skbOut hskbOut => by
          obtain rfl := Option.some.inj hskbOut
          exact ⟨⟨entries', (hset' ▸ hcollecting).congr rfl rfl rfl rfl⟩, hloop.n, hloop.n ▸ hmax⟩
        alone := fun _ => hempty
        signed := hset ▸ hsigned
        sendable := hrem }
    refine ⟨_, hafter, ?_⟩
    rw [hexit]
    refine .waits hheld hset ?_ hempty ?_ hkept.txDropped ?_ ?_ hkept.stop ?_ hkept.txOverhead hkept.txNtbs hfull'
    · rw [← horder, hloop.pending, hempty, Option.toList_none, List.append_nil]
    · intro hnone
      refine hwaits.resolve_right fun hwait => ?_
      have := hloop.ready (hready hnone)
      exact absurd hwait.1 (by simp [this])
    · intro hne
      exact harmed rfl (Nat.pos_of_ne_zero (hlen.not.mpr hne))
    · intro hrunning
      exact hmono (hkept.timerActive.trans hrunning)
    · intro hle
      rcases hrounds with rfl | rfl
      · exact hkept.txTimerPending ▸ hle
      · exact le_rfl
  · rw [not_or] at hwaits
    obtain ⟨hne, hgo⟩ := hwaits
    have hclosing := hloop.closing
    have hcurr := hclosing.curr_le
    obtain ⟨ctx', hkept', hdelayed, hpayload, hrem', hsign', hafter⟩ : ∃ ctx', s'.ctx.Kept ctx' ∧
        ctx'.delayedNdp = s'.ctx.delayedNdp ∧ ctx'.txCurrFramePayload = s'.ctx.txCurrFramePayload ∧
        ctx'.txRemSkb = s'.ctx.txRemSkb ∧ ctx'.txRemSign = s'.ctx.txRemSign ∧
        afterLoop s'.ctx.set.format s' =
          (sendNtb ctx'.set.format ctx' s'.skbOut).map fun sent => (sent.1, some sent.2) := by
      unfold afterLoop
      simp only [hloop.skb, Option.isSome_none, Bool.false_eq_true, if_false]
      rw [if_neg (hlen.not.mpr hne), if_neg (fun h => hgo ⟨h.2.1, hset' ▸ h.1, hset ▸ h.2.2⟩)]
      exact ⟨{ s'.ctx with
        txCurrFrameNum := s'.n
        txReasonMaxDatagram := if s'.n = s'.ctx.set.txMaxDatagrams then s'.ctx.txReasonMaxDatagram + 1
          else s'.ctx.txReasonMaxDatagram }, ⟨⟨rfl, rfl, rfl, rfl, rfl, rfl, rfl⟩, rfl, rfl⟩, rfl, rfl, rfl, rfl, rfl⟩
    have hall := hkept.trans hkept'.toAccounts
    have hclosing' : Collecting ctx' s'.skbOut longest largest (tableAtEnd ctx'.set) entries' (frames ++ taken) := by
      rw [hkept'.set]
      exact (hset' ▸ hclosing).congr hkept'.set hkept'.txCurrSize hdelayed hpayload
    obtain ⟨delayed, ntb, hntb, hclear, hsent⟩ := sendNtb_spec hclosing' hne
    rw [hset, hntb, Option.map_some] at hafter
    refine ⟨_, hafter, .sends ?_ rfl hall.set ?_ hne hclosing.sendable
      ⟨hsent.compliant, hsent.size, hsent.blockLength, hsent.ends⟩ ?_ hall.txDropped hall.timerActive hall.stop
      hall.txTimerPending (hall.txOverhead ▸ rfl) (hall.txNtbs ▸ rfl) ?_⟩
    · exact { sane := hclosing'.sane
              idle := fun _ => ⟨rfl, hclear⟩
              busy := nofun
              alone := fun h => absurd rfl h
              signed := by
                simp only
                rw [hrem', hsign', hall.set]
                exact hsigned
              sendable := by
                simp only
                rw [hrem']
                exact hrem }
    · simp only
      rw [← horder, hloop.pending, hrem']
    · simp only
      rw [hkept'.txCurrSize]
      exact hcurr
    · rw [FullSize, hkept'.txCurrSize, hkept'.txLowMemVal]
      exact hfull'

/-- A buffer is found, of a size that fits a datagram, or the datagram at hand is given up. -/
theorem allocOut_spec {ctx : TxCtx} {skb : Option Frame} (mem : Memory) (hsane : ctx.set.Sane longest largest)
    (hskb : ∀ frame ∈ skb.toList, Sendable longest frame) :
    ∃ val count size, (allocOut ctx skb mem).1 =
        { ctx with txLowMemVal := val, txLowMemMaxCnt := count, txCurrSize := size } ∧
      (∀ skbOut, (allocOut ctx skb mem).2 = some skbOut →
        skbOut.data = [] ∧ size ≤ skbOut.capacity ∧ ctx.set.room longest ≤ size ∧ size ≤ largest) ∧
      ((allocOut ctx skb mem).2 = none → mem.full = none ∨ (ctx.txLowMemVal ≠ 0 ∧ mem.small = none)) ∧
      (mem.full.isSome = true → ctx.txLowMemVal = 0 → val = 0 ∧ size = ctx.set.txMax) := by
  have hmin := hsane.room_le_min
  have hroom : longest ≤ ctx.set.room longest := by
    unfold TxSettings.room
    omega
  have hlargest := hsane.largest_ge
  have hsmall : (skb.elim ntbMinOutSize fun skb => max skb.length ntbMinOutSize) = ntbMinOutSize := by
    cases skb with
    | none => rfl
    | some frame =>
      have hlen : frame.length ≤ longest := (hskb frame (by simp)).2
      rw [Option.elim_some]
      omega
  unfold allocOut
  simp only [hsmall]
  split
  · rename_i hzero
    split
    · refine ⟨_, _, _, rfl, fun skbOut hskbOut => ?_, nofun, fun _ _ => ⟨hzero, rfl⟩⟩
      obtain rfl := Option.some.inj hskbOut
      exact ⟨rfl, Nat.le_add_right _ _, hsane.room_le, hsane.txMax_le⟩
    · rename_i hfull
      split
      · exact ⟨_, _, _, rfl, nofun, fun _ => .inl hfull, by simp [hfull]⟩
      · split
        · exact ⟨_, _, _, rfl, nofun, fun _ => .inl hfull, by simp [hfull]⟩
        · refine ⟨_, _, _, rfl, fun skbOut hskbOut => ?_, nofun, by simp [hfull]⟩
          obtain rfl := Option.some.inj hskbOut
          exact ⟨rfl, Nat.le_add_right _ _, hmin, hlargest⟩
  · rename_i hlow
    split
    · rename_i hno
      exact ⟨_, _, _, rfl, nofun, fun _ => .inr ⟨hlow, hno⟩, fun _ hzero => absurd hzero hlow⟩
    · refine ⟨_, _, _, rfl, fun skbOut hskbOut => ?_, nofun, fun _ hzero => absurd hzero hlow⟩
      obtain rfl := Option.some.inj hskbOut
      exact ⟨rfl, Nat.le_add_right _ _, hmin, hlargest⟩

/-- The header of a new block. -/
theorem putHeader_spec {f : NtbFormat} (ctx : TxCtx) {skbOut : SkbOut} (hdata : skbOut.data = [])
    (hcapacity : f.nthSize ≤ skbOut.capacity) :
    ∃ data, putHeader f ctx skbOut =
        some ({ ctx with txSeq := (ctx.txSeq + 1) % 2 ^ 16, txCurrFrameNum := 0, txCurrFramePayload := 0 },
          { skbOut with data := data }) ∧
      data.length = f.nthSize ∧ load data 0 4 = f.nthSign ∧ load data f.ndpIndex f.width = 0 := by
  have hfits := f.nth_fits
  have hge := f.ndpIndex_ge
  have hwidth := f.width_ge
  have hzero : (List.replicate f.nthSize (0 : UInt8)).length = f.nthSize := List.length_replicate
  have hfirst : (store (List.replicate f.nthSize 0) 0 4 f.nthSign).length = f.nthSize := by
    rw [store_length (by omega), hzero]
  have hsecond : (store (store (List.replicate f.nthSize 0) 0 4 f.nthSign) 4 2 f.nthSize).length = f.nthSize := by
    rw [store_length (by omega), hfirst]
  refine ⟨store (store (store (List.replicate f.nthSize 0) 0 4 f.nthSign) 4 2 f.nthSize) 6 2 ctx.txSeq, ?_, ?_, ?_,
    ?_⟩
  · rw [putHeader, put_of_fits (by rw [hdata, hzero, List.length_nil, Nat.zero_add]; exact hcapacity), Option.map_some]
    simp only [hdata, List.nil_append]
  · rw [store_length (by omega), hsecond]
  · rw [load_store_of_apart (by omega) (by omega), load_store_of_apart (by omega) (by omega),
      load_store_of_lt (by omega) f.nthSign_lt]
  · rw [load_store_of_apart (by omega) (by omega), load_store_of_apart (by omega) (by omega),
      load_store_of_apart (by omega) (by omega), load_replicate_zero]

/-- What the exchange of the new datagram for the remaining one leaves. -/
structure Swapped (ctx : TxCtx) (skb : Option Frame) (t : TxCtx × Option Frame × ℕ) : Prop where
  order : t.2.1.toList ++ t.1.txRemSkb.toList = ctx.txRemSkb.toList ++ skb.toList
  kept : ctx.Kept t.1
  txCurrSkb : t.1.txCurrSkb = ctx.txCurrSkb
  delayedNdp : t.1.delayedNdp = ctx.delayedNdp
  payload : t.1.txCurrFramePayload = ctx.txCurrFramePayload
  txCurrFrameNum : t.1.txCurrFrameNum = ctx.txCurrFrameNum
  lost : t.2.1.toList = if skb.isSome then ctx.txRemSkb.toList else []
  sign : t.2.1.isSome → t.2.2 = ctx.set.format.ndpSign
  remaining : t.1.txRemSkb.isSome → t.1.txRemSign = ctx.set.format.ndpSign

/-- The exchange keeps the order of the datagrams that wait. -/
theorem swapRemaining_spec {ctx : TxCtx} (h : Held ctx longest largest frames) (skb : Option Frame) :
    Swapped ctx skb (swapRemaining ctx skb ctx.set.format.ndpSign) := by
  unfold swapRemaining
  cases skb with
  | none => exact ⟨by simp, .refl _, rfl, rfl, rfl, rfl, by simp, nofun, h.signed⟩
  | some frame =>
    exact ⟨rfl, ⟨⟨rfl, rfl, rfl, rfl, rfl, rfl, rfl⟩, rfl, rfl⟩, rfl, rfl, rfl, rfl, by simp, h.signed, fun _ => rfl⟩

/-- Filling a block with the datagrams that wait keeps it or sends it. -/
theorem fillBlock_spec {ctx ctx' : TxCtx} {skb skb' : Option Frame} {sign : ℕ} {skbOut : SkbOut} (mem : Memory)
    {entries : List (ℕ × ℕ)} (hacc : ctx.Accounts ctx')
    (h : Collecting ctx' skbOut longest largest (delayedNdpSize ctx'.set) entries frames)
    (hnum : ctx'.txCurrFrameNum = frames.length) (hlt : frames.length < ctx'.set.txMaxDatagrams)
    (horder : skb'.toList ++ ctx'.txRemSkb.toList = ctx.txRemSkb.toList ++ skb.toList)
    (hsign : skb'.isSome → sign = ctx.set.format.ndpSign)
    (hremaining : ctx'.txRemSkb.isSome → ctx'.txRemSign = ctx.set.format.ndpSign)
    (hsend : ∀ frame ∈ ctx.txRemSkb.toList ++ skb.toList, Sendable longest frame) (halone : frames ≠ [] → skb' = none)
    (hfull : FullSize ctx mem ctx') :
    ∃ r, fillBlock ctx.set.format ctx' skbOut skb' sign skb.isNone = some r ∧
      TxOutcome ctx skb mem longest largest frames r := by
  have hset := hacc.set
  obtain ⟨s', entries', taken, hrun, hloop⟩ := fillLoop_spec (ctx'.set.txMaxDatagrams - ctx'.txCurrFrameNum)
    (s := ⟨ctx', skbOut, skb', sign, ctx'.txCurrFrameNum, skb.isNone⟩) h hnum (by simp only; omega)
    ⟨hset ▸ hsign, hset ▸ hremaining⟩ (fun frame hframe => hsend frame (horder ▸ hframe)) halone
  obtain ⟨r, hr, houtcome⟩ := afterLoop_spec mem hacc hloop horder (fun hnone => by simp [hnone])
    (fun frame hframe => hsend frame (horder ▸ hframe)) hfull
  refine ⟨r, ?_, houtcome⟩
  rw [fillBlock, ← hset, hrun, Option.bind_some, hset, hr]

/-- A call of the transmit path runs to its end, keeps what is held, and loses nothing unless memory fails. -/
theorem txFixup_spec {ctx : TxCtx} {skb : Option Frame} (mem : Memory) (h : Held ctx longest largest frames)
    (hskb : ∀ frame ∈ skb.toList, Sendable longest frame) :
    ∃ r, txFixup ctx skb mem = some r ∧ TxOutcome ctx skb mem longest largest frames r := by
  have hswap := swapRemaining_spec h skb
  obtain ⟨t, ht⟩ : ∃ t, t = swapRemaining ctx skb ctx.set.format.ndpSign := ⟨_, rfl⟩
  rw [← ht] at hswap
  have hset := hswap.kept.set
  have hsend : ∀ frame ∈ ctx.txRemSkb.toList ++ skb.toList, Sendable longest frame := by
    intro frame hframe
    rcases List.mem_append.mp hframe with hold | hnew
    · exact h.sendable frame hold
    · exact hskb frame hnew
  have halone : frames ≠ [] → t.2.1 = none := by
    intro hne
    have hlost := hswap.lost
    rw [h.alone hne] at hlost
    simpa using hlost
  rw [txFixup, fillTxFrame]
  simp only [← ht]
  cases hcurr : t.1.txCurrSkb with
  | some skbOut =>
    obtain ⟨⟨entries, hcollecting⟩, hnum, hlt⟩ := h.busy skbOut (hswap.txCurrSkb ▸ hcurr)
    have hcollecting' : Collecting t.1 skbOut longest largest (delayedNdpSize t.1.set) entries frames := by
      rw [hset]
      exact hcollecting.congr hset hswap.kept.txCurrSize hswap.delayedNdp hswap.payload
    exact fillBlock_spec mem hswap.kept.toAccounts hcollecting' (hswap.txCurrFrameNum.trans hnum) (hset ▸ hlt)
      hswap.order hswap.sign hswap.remaining hsend halone fun _ hzero =>
        ⟨hswap.kept.txLowMemVal.trans hzero, .inr ⟨hswap.txCurrSkb ▸ hcurr ▸ rfl, hswap.kept.txCurrSize⟩⟩
  | none =>
    have hidle : ctx.txCurrSkb = none := hswap.txCurrSkb ▸ hcurr
    obtain ⟨rfl, hclear⟩ := h.idle hidle
    have hclear' : DelayedClear t.1.set t.1.delayedNdp := by
      rw [hset, hswap.delayedNdp]
      exact hclear
    have hsane : t.1.set.Sane longest largest := hset ▸ h.sane
    obtain ⟨val, count, size, halloc, hsome, hnone, hfull⟩ := allocOut_spec mem hsane
      fun frame hframe => hsend frame (hswap.order ▸ List.mem_append_left t.1.txRemSkb.toList hframe)
    simp only
    cases hfound : (allocOut t.1 t.2.1 mem).2 with
    | none =>
      simp only
      rw [halloc, exitNoSkb, if_neg (by simp)]
      refine ⟨_, rfl, .failed (hswap.kept.txLowMemVal ▸ hnone hfound) hidle ?_ hcurr hset hswap.order.symm ?_
        hswap.kept.timerActive hswap.kept.stop hswap.kept.txTimerPending hswap.kept.txOverhead hswap.kept.txNtbs⟩
      · exact { sane := hsane
                idle := fun _ => ⟨rfl, hclear'⟩
                busy := fun skbOut hskbOut => absurd (hcurr.symm.trans hskbOut) (by simp)
                alone := fun hne => absurd rfl hne
                signed := by
                  simp only
                  rw [hset]
                  exact hswap.remaining
                sendable := fun frame hframe => hsend frame (hswap.order ▸ List.mem_append_right _ hframe) }
      · simp only
        rw [← hswap.kept.txDropped]
        cases t.2.1 <;> rfl
    | some skbOut =>
      obtain ⟨hdata, hcapacity, hroom, hsize⟩ := hsome skbOut hfound
      have hnth : t.1.set.format.nthSize ≤ t.1.set.room longest := by
        unfold TxSettings.room
        omega
      obtain ⟨data, hput, hlen, hsign, hindex⟩ := putHeader_spec (f := ctx.set.format)
        (allocOut t.1 t.2.1 mem).1 hdata (by rw [← hset]; omega)
      simp only
      rw [hput, Option.bind_some, halloc]
      rw [← hset] at hlen hsign hindex
      have hfresh : Collecting ({ t.1 with
          txLowMemVal := val
          txLowMemMaxCnt := count
          txCurrSize := size
          txSeq := (t.1.txSeq + 1) % 2 ^ 16
          txCurrFrameNum := 0
          txCurrFramePayload := 0 } : TxCtx) { skbOut with data := data } longest largest
          (delayedNdpSize t.1.set) [] [] :=
        { sane := hsane, ready := .fresh hlen hindex hclear', sign := hsign, aligned := nofun, sendable := nofun
          room := hroom, curr_le := hsize, capacity := hcapacity, fits := fun hne => absurd rfl hne
          payload := rfl, nth := hlen.ge }
      refine fillBlock_spec mem ?_ hfresh rfl hsane.datagrams_pos hswap.order hswap.sign hswap.remaining hsend halone
        fun hmem hzero => ?_
      · exact ⟨hset, hswap.kept.timerActive, hswap.kept.stop, hswap.kept.txDropped, hswap.kept.txTimerPending,
          hswap.kept.txOverhead, hswap.kept.txNtbs⟩
      · have hsize' := hfull hmem (hswap.kept.txLowMemVal.trans hzero)
        exact ⟨hsize'.1, .inl (hsize'.2.trans (hset ▸ rfl))⟩

end Calls

end LinuxFunctionTest.Ncm
