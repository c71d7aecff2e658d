import LinuxFunctionTest.Sketh.TransmitConservation

/-!
# DMA ownership on the TX ring

The log is read as the history of the mappings recorded in TX slots. The ownership law allows a
slot to be mapped or passed over only when its last mapping was unmapped, an unmapping only with
the recorded address and length and after the device completed the slot, and the release of
packet memory only when every live mapping of it is completed.

The driver asks none of this: cleaning looks only at the `skb` pointer, and the `XDP_TX` path maps
memory that it frees at once, in a slot without `skb`. The law holds along a run exactly when
every step of the run is taken in a state that happens to respect it.
-/

namespace LinuxFunctionTest.Sketh

/-- A mapping recorded in a slot: address, length, the packet memory it covers, and whether the
device has completed the slot since. -/
structure TxMapping where
  dma : ℕ
  len : ℕ
  mem : ℕ
  done : Bool

/-- The effect of one event on the live mapping of slot `i`. -/
def mappingAfter (i : ℕ) (e : SkethEvent) (m : Option TxMapping) : Option TxMapping :=
  match e with
  | .txMap slot dma len mem => if slot = i then some ⟨dma, len, mem, false⟩ else m
  | .txUnmap slot _ _ => if slot = i then none else m
  | .txComplete slot => if slot = i then m.map fun m => { m with done := true } else m
  | _ => m

/-- The mapping of slot `i` that was obtained and not yet unmapped. -/
def liveMapping (log : List SkethEvent) (i : ℕ) : Option TxMapping :=
  log.foldr (mappingAfter i) none

/-- What the ownership law asks of an event after a history. -/
def DmaAllowed (past : List SkethEvent) : SkethEvent → Prop
  | .txMap slot _ _ _ => liveMapping past slot = none
  | .txUnmap slot dma len => ∃ mem, liveMapping past slot = some ⟨dma, len, mem, true⟩
  | .txPass slot => liveMapping past slot = none
  | .kfree id => ∀ slot m, liveMapping past slot = some m → m.mem = id → m.done = true
  | _ => True

/-- A history in which every event respects the ownership law. -/
def DmaLegal : List SkethEvent → Prop
  | [] => True
  | e :: past => DmaAllowed past e ∧ DmaLegal past

/-- The ownership law holds of everything the adapter has done. -/
def DmaOwned (a : SkethAdapter) : Prop := DmaLegal a.log

/-- A step of the transmit side or of the device. -/
inductive TxDmaStep where
  | startXmit (skb : SkBuff) (dma : Option ℕ)
  | xdpTxVerdict (len : ℕ) (dma : Option ℕ)
  | cleanTxRing
  | deviceComplete (slot : ℕ)

/-- The device completes a slot at any time after its packet was posted. -/
def txDmaMachine : Machine SkethAdapter TxDmaStep where
  step a label := match label with
    | .startXmit skb dma => some (skethStartXmit a.nextBuffer { skb with id := a.fresh } dma)
    | .xdpTxVerdict len dma => some (xdpTxVerdict a.nextBuffer a.fresh len dma)
    | .cleanTxRing => skethCleanTxRing a
    | .deviceComplete slot => if (a.txSlot slot).isSome then some (a.emit (.txComplete slot)) else none

/-- The state before the step respects the law: a packet meets a slot without mapping, an `XDP_TX`
frame fails to map, and cleaning meets only completed mappings. -/
def DmaCare (a : SkethAdapter) : TxDmaStep → Prop
  | .startXmit skb dma => Posts a skb dma → (a.txRing.txBuffer a.txRing.nextToUse).mapped = false
  | .xdpTxVerdict _ dma => dma = none
  | .cleanTxRing => ∀ i, a.txRing.InFlight i → (a.txRing.txBuffer i).mapped = true →
      ∃ m, liveMapping a.log i = some m ∧ m.done = true
  | .deviceComplete _ => True

/-- The slot content that records a mapping. -/
def bufferOf : Option TxMapping → SkethTxBuffer
  | none => .empty
  | some m => ⟨some m.mem, m.dma, m.len, true⟩

/-- Every slot records exactly its live mapping. -/
def Tracks (a : SkethAdapter) : Prop := ∀ i, a.txRing.txBuffer i = bufferOf (liveMapping a.log i)

/-- The inductive invariant of the careful runs. -/
structure DmaInv (a : SkethAdapter) : Prop where
  formed : a.txRing.Formed
  up : a.down = false
  tracks : Tracks a
  unique : ∀ i j m n, liveMapping a.log i = some m → liveMapping a.log j = some n →
    m.mem = n.mem → i = j
  mem_lt : ∀ i m, liveMapping a.log i = some m → m.mem < a.fresh
  legal : DmaLegal a.log

section History

variable (past : List SkethEvent)

@[simp] theorem liveMapping_txHold (s id i : ℕ) (old : Option ℕ) :
    liveMapping (.txHold s id old :: past) i = liveMapping past i := rfl

@[simp] theorem liveMapping_txPass (s i : ℕ) :
    liveMapping (.txPass s :: past) i = liveMapping past i := rfl

@[simp] theorem liveMapping_kfree (id i : ℕ) :
    liveMapping (.kfree id :: past) i = liveMapping past i := rfl

/-- Unmapping ends the slot's mapping. -/
theorem liveMapping_txUnmap (s dma len i : ℕ) :
    liveMapping (.txUnmap s dma len :: past) i = if s = i then none else liveMapping past i := rfl

/-- Completion marks the slot's mapping. -/
theorem liveMapping_txComplete (s i : ℕ) :
    liveMapping (.txComplete s :: past) i =
      if s = i then (liveMapping past i).map fun m => { m with done := true }
      else liveMapping past i := rfl

/-- A legal history has legal beginnings. -/
theorem DmaLegal.of_append {past} {recent : List SkethEvent} (h : DmaLegal (recent ++ past)) :
    DmaLegal past := by
  induction recent with
  | nil => exact h
  | cons e rest ih => exact ih h.2

end History

section Tracking

variable {a : SkethAdapter}

/-- A tracked slot without mapping mark has no live mapping. -/
theorem Tracks.none_of_unmapped (h : Tracks a) {i : ℕ} (hi : (a.txRing.txBuffer i).mapped = false) :
    liveMapping a.log i = none := by
  rw [h i] at hi
  cases hlive : liveMapping a.log i with
  | none => rfl
  | some m => rw [hlive] at hi; exact absurd hi (by simp [bufferOf])

/-- A tracked slot with mapping mark has a live mapping. -/
theorem Tracks.some_of_mapped (h : Tracks a) {i : ℕ} (hi : (a.txRing.txBuffer i).mapped = true) :
    ∃ m, liveMapping a.log i = some m := by
  rw [h i] at hi
  cases hlive : liveMapping a.log i with
  | none => rw [hlive] at hi; exact absurd hi (by simp [bufferOf, SkethTxBuffer.empty])
  | some m => exact ⟨m, rfl⟩

/-- A tracked slot without buffer has no live mapping. -/
theorem Tracks.none_of_empty (h : Tracks a) {i : ℕ} (hi : a.txSlot i = none) :
    liveMapping a.log i = none := by
  rw [SkethAdapter.txSlot, h i] at hi
  cases hlive : liveMapping a.log i with
  | none => rfl
  | some m => rw [hlive] at hi; exact absurd hi (by simp [bufferOf])

/-- A tracked slot with a live mapping holds the memory it covers. -/
theorem Tracks.held_of_some (h : Tracks a) {i : ℕ} {m : TxMapping}
    (hi : liveMapping a.log i = some m) : a.txSlot i = some m.mem := by
  rw [SkethAdapter.txSlot, h i, hi]
  rfl

end Tracking

section Cleaning

variable (c : TxCleaning) (i : ℕ)

/-- The history after cleaning a slot without a live mapping. -/
theorem cleanTxSlot_log_none (h : Tracks c.adapter) (hi : liveMapping c.adapter.log i = none) :
    (cleanTxSlot c i).adapter.log = .txPass i :: c.adapter.log := by
  have hslot : c.adapter.txSlot i = none := by
    rw [SkethAdapter.txSlot, h i, hi]
    rfl
  rw [cleanTxSlot_log, hslot]
  rfl

/-- The history after cleaning a slot with a live mapping: unmap, free, pass. -/
theorem cleanTxSlot_log_some (h : Tracks c.adapter) {m : TxMapping}
    (hi : liveMapping c.adapter.log i = some m) :
    (cleanTxSlot c i).adapter.log =
      .txPass i :: .kfree m.mem :: .txUnmap i m.dma m.len :: c.adapter.log := by
  rw [cleanTxSlot_log, h.held_of_some hi, h i, hi]
  rfl

/-- After cleaning a slot it has no live mapping and the others keep theirs. -/
theorem cleanTxSlot_live (h : Tracks c.adapter) (j : ℕ) :
    liveMapping (cleanTxSlot c i).adapter.log j =
      if i = j then none else liveMapping c.adapter.log j := by
  cases hi : liveMapping c.adapter.log i with
  | none =>
    rw [cleanTxSlot_log_none c i h hi, liveMapping_txPass]
    split
    · next heq => rw [← heq, hi]
    · rfl
  | some m =>
    rw [cleanTxSlot_log_some c i h hi, liveMapping_txPass, liveMapping_kfree, liveMapping_txUnmap]

/-- Cleaning a slot keeps the slots tracking their mappings, completed or not. -/
theorem cleanTxSlot_tracks (h : Tracks c.adapter) : Tracks (cleanTxSlot c i).adapter := by
  intro j
  rw [cleanTxSlot_live c i h j, cleanTxSlot_txRing]
  by_cases hij : i = j
  · subst hij
    rw [if_pos rfl]
    cases hskb : c.adapter.txSlot i with
    | none =>
      rw [if_neg (by simp), h i, h.none_of_empty hskb]
    | some id => simp [bufferOf]
  · rw [if_neg hij, ← h j]
    split
    · exact Function.update_of_ne (Ne.symm hij) _ _
    · rfl

/-- Cleaning only adds to the history. -/
theorem cleanTxSlot_suffix : ∃ recent, (cleanTxSlot c i).adapter.log = recent ++ c.adapter.log :=
  ⟨_ :: _, by rw [cleanTxSlot_log, List.cons_append]⟩

/-- Cleaning a list of slots only adds to the history. -/
theorem cleanTxSlots_suffix (slots : List ℕ) :
    ∃ recent, (slots.foldl cleanTxSlot c).adapter.log = recent ++ c.adapter.log := by
  induction slots generalizing c with
  | nil => exact ⟨[], rfl⟩
  | cons i rest ih =>
    obtain ⟨later, hlater⟩ := ih (cleanTxSlot c i)
    obtain ⟨recent, hrecent⟩ := cleanTxSlot_suffix c i
    exact ⟨later ++ recent, by rw [List.foldl_cons, hlater, hrecent, List.append_assoc]⟩

/-- If cleaning a list of slots is legal, every live mapping it met was completed. -/
theorem cleanTxSlots_done (slots : List ℕ) (h : Tracks c.adapter)
    (hlegal : DmaLegal (slots.foldl cleanTxSlot c).adapter.log) :
    ∀ j ∈ slots, ∀ m, liveMapping c.adapter.log j = some m → m.done = true := by
  induction slots generalizing c with
  | nil => exact fun j hj => absurd hj List.not_mem_nil
  | cons i rest ih =>
    intro j hj m hm
    by_cases hij : i = j
    · subst hij
      obtain ⟨recent, hrecent⟩ := cleanTxSlots_suffix (cleanTxSlot c i) rest
      rw [List.foldl_cons, hrecent] at hlegal
      have hfirst := hlegal.of_append
      rw [cleanTxSlot_log_some c i h hm] at hfirst
      obtain ⟨mem, hunmap⟩ := hfirst.2.2.1
      rw [hm] at hunmap
      rw [Option.some.inj hunmap]
    · have hrest : j ∈ rest := (List.mem_cons.mp hj).resolve_left (Ne.symm hij)
      refine ih (cleanTxSlot c i) (cleanTxSlot_tracks c i h) hlegal j hrest m ?_
      rw [cleanTxSlot_live c i h j, if_neg hij, hm]

end Cleaning

/-- The facts about the history that the cleaning loop keeps on completed slots. -/
structure DmaLedger (a : SkethAdapter) : Prop where
  tracks : Tracks a
  unique : ∀ i j m n, liveMapping a.log i = some m → liveMapping a.log j = some n →
    m.mem = n.mem → i = j
  mem_lt : ∀ i m, liveMapping a.log i = some m → m.mem < a.fresh
  legal : DmaLegal a.log

/-- Cleaning a slot whose mapping is completed respects the law. -/
theorem cleanTxSlot_ledgerDma (c : TxCleaning) (i : ℕ) (h : DmaLedger c.adapter)
    (hdone : ∀ m, liveMapping c.adapter.log i = some m → m.done = true) :
    DmaLedger (cleanTxSlot c i).adapter := by
  have hlive := cleanTxSlot_live c i h.tracks
  have hkeep : ∀ j m, liveMapping (cleanTxSlot c i).adapter.log j = some m →
      i ≠ j ∧ liveMapping c.adapter.log j = some m := by
    intro j m hj
    rw [hlive j] at hj
    by_cases hij : i = j
    · rw [if_pos hij] at hj
      exact absurd hj (by simp)
    · rw [if_neg hij] at hj
      exact ⟨hij, hj⟩
  refine ⟨cleanTxSlot_tracks c i h.tracks, ?_, ?_, ?_⟩
  · intro j k m n hj hk
    exact h.unique j k m n (hkeep j m hj).2 (hkeep k n hk).2
  · intro j m hj
    rw [(cleanTxSlot_frame c i).1]
    exact h.mem_lt j m (hkeep j m hj).2
  · cases hi : liveMapping c.adapter.log i with
    | none =>
      rw [cleanTxSlot_log_none c i h.tracks hi]
      exact ⟨hi, h.legal⟩
    | some m =>
      have hm : m.done = true := hdone m hi
      rw [cleanTxSlot_log_some c i h.tracks hi]
      refine ⟨?_, ?_, ⟨m.mem, ?_⟩, h.legal⟩
      · change liveMapping (.txUnmap i m.dma m.len :: c.adapter.log) i = none
        rw [liveMapping_txUnmap, if_pos rfl]
      · intro j n hj hmem
        rw [liveMapping_txUnmap] at hj
        by_cases hij : i = j
        · rw [if_pos hij] at hj
          exact absurd hj (by simp)
        · rw [if_neg hij] at hj
          exact absurd (h.unique i j m n hi hj hmem.symm) hij
      · rw [hi, ← hm]

/-- Cleaning slots whose mappings are completed respects the law. -/
theorem cleanTxSlots_ledgerDma (c : TxCleaning) (slots : List ℕ) (h : DmaLedger c.adapter)
    (hdone : ∀ i ∈ slots, ∀ m, liveMapping c.adapter.log i = some m → m.done = true) :
    DmaLedger (slots.foldl cleanTxSlot c).adapter := by
  induction slots generalizing c with
  | nil => exact h
  | cons i rest ih =>
    refine ih (cleanTxSlot c i)
      (cleanTxSlot_ledgerDma c i h (hdone i List.mem_cons_self)) fun j hj m hm => ?_
    rw [cleanTxSlot_live c i h.tracks j] at hm
    by_cases hij : i = j
    · rw [if_pos hij] at hm
      exact absurd hm (by simp)
    · rw [if_neg hij] at hm
      exact hdone j (List.mem_cons_of_mem _ hj) m hm

/-- The ledger part of the invariant. -/
theorem DmaInv.ledger {a : SkethAdapter} (h : DmaInv a) : DmaLedger a :=
  ⟨h.tracks, h.unique, h.mem_lt, h.legal⟩

/-- The invariant holds of a ring that was just set up. -/
theorem txSetup_dmaInv (a : SkethAdapter) {k : ℕ} (hk : k ≤ 15) : DmaInv (txSetup a (2 ^ k)) where
  formed := skethSetupTxResources_formed hk
  up := rfl
  tracks := fun _ => rfl
  unique := fun _ _ _ _ h => absurd h (by simp [txSetup, liveMapping])
  mem_lt := fun _ _ h => absurd h (by simp [txSetup, liveMapping])
  legal := trivial

/-- Cleaning changes nothing the ledger speaks of besides the cleaned slots. -/
theorem skethCleanTxRing_ledgerDma {a b : SkethAdapter} (hb : skethCleanTxRing a = some b)
    (hformed : a.txRing.Formed) :
    b.log = (cleanedTxSlots a).adapter.log ∧
      b.txRing.txBuffer = (cleanedTxSlots a).adapter.txRing.txBuffer ∧
      b.fresh = (cleanedTxSlots a).adapter.fresh ∧ b.down = a.down ∧ b.txRing.Formed := by
  obtain ⟨b', hb', hring, hlog, hfresh, hdown⟩ := skethCleanTxRing_eq a hformed
  obtain rfl : b = b' := Option.some.inj (hb.symm.trans hb')
  obtain ⟨hcount, huse, _⟩ := cleanTxSlots_shape ⟨a, 0, 0⟩ a.txRing.flightSpan
  have hcount' : b.txRing.count = a.txRing.count := by
    rw [hring]
    exact hcount
  have huse' : b.txRing.nextToUse = a.txRing.nextToUse := by
    rw [hring]
    exact huse
  have hclean' : b.txRing.nextToClean = a.txRing.nextToUse := by rw [hring]
  refine ⟨hlog, by rw [hring], hfresh, hdown.trans (cleanTxSlots_frame ⟨a, 0, 0⟩ _).2, ?_⟩
  exact ⟨by rw [hcount']; exact hformed.pow, by rw [huse', hcount']; exact hformed.use_lt,
    by rw [hclean', hcount']; exact hformed.use_lt⟩

/-- Cleaning only completed mappings keeps the invariant. -/
theorem skethCleanTxRing_dmaInv {a b : SkethAdapter} (h : DmaInv a)
    (hb : skethCleanTxRing a = some b) (hcare : DmaCare a .cleanTxRing) : DmaInv b := by
  obtain ⟨hlog, hbuf, hfresh, hdown, hformed⟩ := skethCleanTxRing_ledgerDma hb h.formed
  have hdone : ∀ i ∈ a.txRing.flightSpan, ∀ m, liveMapping a.log i = some m → m.done = true := by
    intro i hi m hm
    have hmapped : (a.txRing.txBuffer i).mapped = true := by rw [h.tracks i, hm]; rfl
    obtain ⟨n, hn, hndone⟩ := hcare i (h.formed.mem_flightSpan.mp hi) hmapped
    rw [hm] at hn
    rw [Option.some.inj hn, hndone]
  have hledger : DmaLedger (cleanedTxSlots a).adapter :=
    cleanTxSlots_ledgerDma ⟨a, 0, 0⟩ _ h.ledger hdone
  refine ⟨hformed, hdown.trans h.up, ?_, ?_, ?_, ?_⟩
  · intro i
    rw [hbuf, hlog]
    exact hledger.tracks i
  · rw [hlog]
    exact hledger.unique
  · rw [hlog, hfresh]
    exact hledger.mem_lt
  · rw [hlog]
    exact hledger.legal

/-- Cleaning a mapping the device has not completed breaks the law. -/
theorem skethCleanTxRing_dmaBad {a b : SkethAdapter} (h : DmaInv a)
    (hb : skethCleanTxRing a = some b) (hcare : ¬ DmaCare a .cleanTxRing) : ¬ DmaOwned b := by
  intro howned
  refine hcare fun i hi hmapped => ?_
  obtain ⟨m, hm⟩ := h.tracks.some_of_mapped hmapped
  rw [DmaOwned, (skethCleanTxRing_ledgerDma hb h.formed).1] at howned
  exact ⟨m, hm, cleanTxSlots_done ⟨a, 0, 0⟩ _ h.tracks howned i (h.formed.mem_flightSpan.mpr hi) m hm⟩

/-- Freeing a buffer no live mapping covers, on an unchanged ring, keeps the invariant. -/
theorem DmaInv.of_dropped {a b : SkethAdapter} (h : DmaInv a) (hring : b.txRing = a.txRing)
    (hlog : b.log = .kfree a.fresh :: a.log) (hfresh : b.fresh = a.fresh + 1)
    (hdown : b.down = a.down) : DmaInv b := by
  refine ⟨hring ▸ h.formed, hdown.trans h.up, ?_, ?_, ?_, ?_⟩
  · intro i
    rw [hring, hlog, liveMapping_kfree]
    exact h.tracks i
  · rw [hlog]
    exact h.unique
  · rw [hlog, hfresh]
    exact fun i m hm => Nat.lt_succ_of_lt (h.mem_lt i m hm)
  · rw [hlog]
    refine ⟨fun i m hm hmem => ?_, h.legal⟩
    exact absurd (h.mem_lt i m hm) (by rw [hmem]; exact Nat.lt_irrefl _)

/-- A packet posted to a slot without mapping keeps the invariant. -/
theorem skethStartXmit_dmaInv {a : SkethAdapter} (h : DmaInv a) (skb : SkBuff) (dma : Option ℕ)
    (hcare : DmaCare a (.startXmit skb dma)) :
    DmaInv (skethStartXmit a.nextBuffer { skb with id := a.fresh } dma) := by
  by_cases hpost : Posts a.nextBuffer { skb with id := a.fresh } dma
  · obtain ⟨d, rfl⟩ := Option.isSome_iff_exists.mp hpost.2.2
    have hfree : liveMapping a.log a.txRing.nextToUse = none := h.tracks.none_of_unmapped (hcare hpost)
    obtain ⟨_, _, _, hbuf, hlog, hfresh, hdown⟩ := skethStartXmit_posted _ _ d hpost
    have hlive : ∀ i, liveMapping (skethStartXmit a.nextBuffer { skb with id := a.fresh } (some d)).log i =
        if a.txRing.nextToUse = i then some ⟨d, skb.headlen, a.fresh, false⟩
        else liveMapping a.log i := by
      intro i
      rw [hlog]
      rfl
    refine ⟨(posted_formed (a := a.nextBuffer) h.formed hpost).1, hdown.trans h.up, ?_, ?_, ?_, ?_⟩
    · intro i
      rw [hlive i, hbuf]
      by_cases hi : a.txRing.nextToUse = i
      · subst hi
        simp [bufferOf]
      · rw [if_neg hi, nextBuffer_txRing, Function.update_of_ne (Ne.symm hi)]
        exact h.tracks i
    · intro i j m n hi hj hmem
      rw [hlive i] at hi
      rw [hlive j] at hj
      split at hi <;> split at hj
      · next hui huj => exact hui.symm.trans huj
      · cases hi
        exact absurd (h.mem_lt j n hj) (by rw [← hmem]; exact Nat.lt_irrefl _)
      · cases hj
        exact absurd (h.mem_lt i m hi) (by rw [hmem]; exact Nat.lt_irrefl _)
      · exact h.unique i j m n hi hj hmem
    · intro i m hi
      rw [hlive i] at hi
      rw [hfresh]
      split at hi
      · cases hi
        exact Nat.lt_succ_self _
      · exact Nat.lt_succ_of_lt (h.mem_lt i m hi)
    · rw [hlog]
      exact ⟨hfree, trivial, h.legal⟩
  · obtain ⟨hring, hlog, hfresh, hdown⟩ := skethStartXmit_dropped _ _ dma hpost
    exact h.of_dropped hring hlog hfresh hdown

/-- A packet posted over a live mapping breaks the law. -/
theorem skethStartXmit_dmaBad {a : SkethAdapter} (h : DmaInv a) (skb : SkBuff) (dma : Option ℕ)
    (hcare : ¬ DmaCare a (.startXmit skb dma)) :
    ¬ DmaOwned (skethStartXmit a.nextBuffer { skb with id := a.fresh } dma) := by
  obtain ⟨hpost, hmapped⟩ := Classical.not_imp.mp hcare
  obtain ⟨d, rfl⟩ := Option.isSome_iff_exists.mp hpost.2.2
  have hpost' : Posts a.nextBuffer { skb with id := a.fresh } (some d) := hpost
  obtain ⟨_, _, _, _, hlog, _⟩ := skethStartXmit_posted _ _ d hpost'
  obtain ⟨m, hm⟩ := h.tracks.some_of_mapped (Bool.not_eq_false _ ▸ hmapped)
  intro howned
  rw [DmaOwned, hlog] at howned
  have hnone : liveMapping a.log a.txRing.nextToUse = none := howned.1
  rw [hm] at hnone
  exact absurd hnone (by simp)

/-- Every careful step keeps the invariant. -/
theorem txDmaMachine_step_inv (a : SkethAdapter) (label : TxDmaStep) (b : SkethAdapter)
    (h : DmaInv a) (hb : txDmaMachine.step a label = some b) (hcare : DmaCare a label) : DmaInv b := by
  cases label with
  | startXmit skb dma => exact Option.some.inj hb ▸ skethStartXmit_dmaInv h skb dma hcare
  | xdpTxVerdict len dma =>
    obtain rfl : dma = none := hcare
    exact Option.some.inj hb ▸ h.of_dropped rfl rfl rfl rfl
  | cleanTxRing => exact skethCleanTxRing_dmaInv h hb hcare
  | deviceComplete slot =>
    simp only [txDmaMachine, Option.ite_none_right_eq_some, Option.some.injEq] at hb
    obtain ⟨_, rfl⟩ := hb
    have hlive : ∀ i n, liveMapping (a.emit (.txComplete slot)).log i = some n →
        ∃ m, liveMapping a.log i = some m ∧ n.mem = m.mem := by
      intro i n hi
      rw [emit_log, liveMapping_txComplete] at hi
      split at hi
      · obtain ⟨m, hm, rfl⟩ := Option.map_eq_some_iff.mp hi
        exact ⟨m, hm, rfl⟩
      · exact ⟨n, hi, rfl⟩
    refine ⟨h.formed, h.up, ?_, ?_, ?_, ⟨trivial, h.legal⟩⟩
    · intro i
      rw [emit_txRing, emit_log, liveMapping_txComplete, h.tracks i]
      split
      · cases liveMapping a.log i <;> rfl
      · rfl
    · intro i j m n hi hj hmem
      obtain ⟨m', hm', hmm⟩ := hlive i m hi
      obtain ⟨n', hn', hnn⟩ := hlive j n hj
      exact h.unique i j m' n' hm' hn' (by rw [← hmm, ← hnn, hmem])
    · intro i n hi
      obtain ⟨m, hm, hmem⟩ := hlive i n hi
      rw [hmem]
      exact h.mem_lt i m hm

/-- Every careless step breaks the law at once. -/
theorem txDmaMachine_step_bad (a : SkethAdapter) (label : TxDmaStep) (b : SkethAdapter)
    (h : DmaInv a) (hb : txDmaMachine.step a label = some b) (hcare : ¬ DmaCare a label) :
    ¬ DmaOwned b := by
  cases label with
  | startXmit skb dma => exact Option.some.inj hb ▸ skethStartXmit_dmaBad h skb dma hcare
  | xdpTxVerdict len dma =>
    obtain ⟨d, rfl⟩ := Option.ne_none_iff_exists'.mp hcare
    obtain rfl := Option.some.inj hb
    rintro ⟨hfree, _⟩
    -- the mapping of the frame is live and cannot be completed: nothing was posted
    have hlive : liveMapping (.txMap a.txRing.nextToUse d len a.fresh :: a.log) a.txRing.nextToUse =
        some ⟨d, len, a.fresh, false⟩ := if_pos rfl
    exact absurd (hfree a.txRing.nextToUse _ hlive rfl) Bool.false_ne_true
  | cleanTxRing => exact skethCleanTxRing_dmaBad h hb hcare
  | deviceComplete slot => exact absurd trivial hcare

/-- The ownership law holds in every state of a run exactly when every step of it is careful. -/
theorem txDma_owned_iff_care (a : SkethAdapter) (k : ℕ) (hk : k ≤ 15) (steps : List TxDmaStep) :
    txDmaMachine.Always DmaOwned (txSetup a (2 ^ k)) steps ↔
      txDmaMachine.Guarded DmaCare (txSetup a (2 ^ k)) steps :=
  txDmaMachine.always_iff_guarded (fun _ h => h.legal) txDmaMachine_step_inv txDmaMachine_step_bad
    (txSetup_dmaInv a hk) steps

/-- The equivalence on the driver's ring, for a packet cleaned after its completion. -/
theorem txDma_owned_completed :
    txDmaMachine.Always DmaOwned (txSetup skethProbed (2 ^ 9))
        [.startXmit ⟨0, 60, 0, false, false⟩ (some 4096), .deviceComplete 0, .cleanTxRing] ↔
      txDmaMachine.Guarded DmaCare (txSetup skethProbed (2 ^ 9))
        [.startXmit ⟨0, 60, 0, false, false⟩ (some 4096), .deviceComplete 0, .cleanTxRing] :=
  txDma_owned_iff_care skethProbed 9 (by decide) _

/-- An `XDP_TX` frame frees its memory while the mapping is live and the device has completed
nothing. -/
theorem txDma_xdp_released :
    ¬ txDmaMachine.Always DmaOwned (txSetup skethProbed (2 ^ 9)) [.xdpTxVerdict 60 (some 4096)] := by
  intro h
  have howned : DmaOwned (xdpTxVerdict (txSetup skethProbed (2 ^ 9)).nextBuffer 0 60 (some 4096)) :=
    h.2 _ rfl
  have hdone := howned.1 0 ⟨4096, 60, 0, false⟩ rfl rfl
  exact absurd hdone Bool.false_ne_true

end LinuxFunctionTest.Sketh
