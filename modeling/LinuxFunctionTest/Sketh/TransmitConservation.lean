import LinuxFunctionTest.Sketh.Transmit
import LinuxFunctionTest.Library.Machine
import LinuxFunctionTest.Library.Slots

/-!
# Conservation of transmitted buffers

Runs of `sketh_start_xmit`, `sketh_xdp_tx` and `sketh_clean_tx_ring` on one TX ring. Neither
transmit path looks for room, and `sketh_start_xmit` advances `next_to_use` twice: once itself and
once in `sketh_xmit_desc`. A ring of `count` slots therefore has room for fewer than `count / 2`
packets between two cleanings; one more packet hides every held buffer from the cleaning loop.
The main result is that the buffers are conserved in a run exactly when every packet finds room.
-/

namespace LinuxFunctionTest.Sketh

/-- A call of the transmit side, with the outcome of its DMA mapping. -/
inductive TxCall where
  | startXmit (skb : SkBuff) (dma : Option ℕ)
  | xdpTx (len : ℕ) (dma : Option ℕ)
  | cleanTxRing

/-- The buffer passed to a transmit function is a new object: the stack hands each buffer over
once. -/
def txMachine : Machine SkethAdapter TxCall where
  step a call := match call with
    | .startXmit skb dma =>
      some (skethStartXmit a.nextBuffer { skb with id := a.fresh } dma)
    | .xdpTx len dma => some (skethXdpTx a.nextBuffer a.fresh len dma)
    | .cleanTxRing => skethCleanTxRing a

/-- An adapter whose TX ring was just set up and whose device is not down. -/
def txSetup (a : SkethAdapter) (count : ℕ) : SkethAdapter :=
  { a with down := false, txRing := skethSetupTxResources count, fresh := 0, log := [] }

/-- Every stored buffer is freed exactly once, or held by exactly one slot and that slot is in
flight; and no store found a buffer in its slot. -/
def TxConserved (a : SkethAdapter) : Prop :=
  (∀ id ∈ a.txStored,
    (a.freed.count id = 1 ∧ ∀ i < a.txRing.count, a.txSlot i ≠ some id) ∨
      (a.freed.count id = 0 ∧ ∃ i, a.txRing.InFlight i ∧ a.txSlot i = some id ∧
        ∀ j < a.txRing.count, a.txSlot j = some id → j = i)) ∧
    ∀ i id old, SkethEvent.txHold i id old ∈ a.log → old = none

/-- The call stores a packet: it is not empty, the device is up and the mapping succeeds. -/
def Posts (a : SkethAdapter) (skb : SkBuff) (dma : Option ℕ) : Prop :=
  skb.len ≠ 0 ∧ a.down = false ∧ dma.isSome

/-- Room for the call: two free indices besides the one that separates a full ring from an empty
one for a packet, and one for an XDP frame unless no slot holds a buffer. -/
def TxRoom (a : SkethAdapter) : TxCall → Prop
  | .startXmit skb dma => Posts a skb dma → a.txRing.inFlight + 2 < a.txRing.count
  | .xdpTx _ dma => dma.isSome →
      a.txRing.inFlight + 1 < a.txRing.count ∨ ∀ i < a.txRing.count, a.txSlot i = none
  | .cleanTxRing => True

/-- The inductive invariant of the guarded runs. -/
structure TxInv (a : SkethAdapter) : Prop where
  formed : a.txRing.Formed
  up : a.down = false
  conserved : Slots.Conserved a.txSlot a.txStored a.freed
  recorded : Slots.Recorded a.txSlot a.txStored
  inFlight : ∀ i id, a.txSlot i = some id → a.txRing.InFlight i
  stored_lt : ∀ id ∈ a.txStored, id < a.fresh
  freed_lt : ∀ id ∈ a.freed, id < a.fresh
  empty : ∀ i id old, SkethEvent.txHold i id old ∈ a.log → old = none

/-- The invariant implies conservation. -/
theorem TxInv.txConserved {a : SkethAdapter} (h : TxInv a) : TxConserved a := by
  refine ⟨fun id hid => ?_, h.empty⟩
  rcases h.conserved id hid with ⟨hcount, hno⟩ | ⟨hcount, i, hi, huniq⟩
  · exact Or.inl ⟨hcount, fun i _ => hno i⟩
  · exact Or.inr ⟨hcount, i, h.inFlight i id hi, hi, fun j _ hj => huniq j hj⟩

/-- The invariant holds of a ring that was just set up. -/
theorem txSetup_inv (a : SkethAdapter) {k : ℕ} (hk : k ≤ 15) : TxInv (txSetup a (2 ^ k)) where
  formed := skethSetupTxResources_formed hk
  up := rfl
  conserved := Slots.conserved_nil _ _
  recorded := fun _ _ h => absurd h (by simp [txSetup, skethSetupTxResources, SkethAdapter.txSlot,
    SkethTxBuffer.empty])
  inFlight := fun _ _ h => absurd h (by simp [txSetup, skethSetupTxResources, SkethAdapter.txSlot,
    SkethTxBuffer.empty])
  stored_lt := fun _ h => absurd h List.not_mem_nil
  freed_lt := fun _ h => absurd h List.not_mem_nil
  empty := fun _ _ _ h => absurd h List.not_mem_nil

/-- A packet that is empty, meets a device that is down or fails to map is freed at once. -/
theorem skethStartXmit_dropped (a : SkethAdapter) (skb : SkBuff) (dma : Option ℕ)
    (h : ¬ Posts a skb dma) :
    (skethStartXmit a skb dma).txRing = a.txRing ∧
      (skethStartXmit a skb dma).log = .kfree skb.id :: a.log ∧
      (skethStartXmit a skb dma).fresh = a.fresh ∧ (skethStartXmit a skb dma).down = a.down := by
  unfold skethStartXmit
  by_cases hlen : skb.len = 0
  · rw [if_pos hlen]
    exact ⟨rfl, rfl, rfl, rfl⟩
  · rw [if_neg hlen]
    by_cases hdown : a.down = true
    · rw [if_pos hdown]
      exact ⟨rfl, rfl, rfl, rfl⟩
    · rw [if_neg hdown]
      cases dma with
      | none => exact ⟨rfl, rfl, rfl, rfl⟩
      | some d => exact absurd ⟨hlen, by simpa using hdown, rfl⟩ h

/-- What posting a packet does: its buffer is stored at `next_to_use`, which then advances twice. -/
structure Posted (a : SkethAdapter) (skb : SkBuff) (d : ℕ) (b : SkethAdapter) : Prop where
  count : b.txRing.count = a.txRing.count
  nextToUse : b.txRing.nextToUse =
    Sketh.nextToUse (Sketh.nextToUse a.txRing.nextToUse a.txRing.count) a.txRing.count
  nextToClean : b.txRing.nextToClean = a.txRing.nextToClean
  txBuffer : b.txRing.txBuffer =
    Function.update a.txRing.txBuffer a.txRing.nextToUse ⟨some skb.id, d, skb.headlen, true⟩
  log : b.log = .txMap a.txRing.nextToUse d skb.headlen skb.id ::
    .txHold a.txRing.nextToUse skb.id (a.txSlot a.txRing.nextToUse) :: a.log
  fresh : b.fresh = a.fresh
  down : b.down = a.down

/-- A packet that can be posted is, whether or not the ring is then full. -/
theorem skethStartXmit_posted (a : SkethAdapter) (skb : SkBuff) (d : ℕ)
    (h : Posts a skb (some d)) : Posted a skb d (skethStartXmit a skb (some d)) := by
  obtain ⟨hlen, hdown, _⟩ := h
  unfold skethStartXmit
  rw [if_neg hlen, if_neg (by rw [hdown]; exact Bool.false_ne_true)]
  dsimp only [skethXmitDesc]
  rw [if_neg (not_not.mpr rfl)]
  exact iteInduction (fun _ => ⟨rfl, rfl, rfl, rfl, rfl, rfl, rfl⟩)
    fun _ => ⟨rfl, rfl, rfl, rfl, rfl, rfl, rfl⟩

/-- An XDP frame takes one index and stores no buffer. -/
theorem skethXdpTx_mapped (a : SkethAdapter) (id len d : ℕ) :
    (skethXdpTx a id len (some d)).txRing.count = a.txRing.count ∧
      (skethXdpTx a id len (some d)).txRing.nextToUse =
        nextToUse a.txRing.nextToUse a.txRing.count ∧
      (skethXdpTx a id len (some d)).txRing.nextToClean = a.txRing.nextToClean ∧
      (skethXdpTx a id len (some d)).txSlot = a.txSlot ∧
      (skethXdpTx a id len (some d)).log = .txMap a.txRing.nextToUse d len id :: a.log ∧
      (skethXdpTx a id len (some d)).fresh = a.fresh ∧
      (skethXdpTx a id len (some d)).down = a.down := by
  refine ⟨rfl, rfl, rfl, ?_, rfl, rfl, rfl⟩
  funext i
  by_cases hi : i = a.txRing.nextToUse
  · subst hi
    simp [skethXdpTx, SkethAdapter.txSlot, SkethAdapter.setTxBuffer, SkethAdapter.advanceTxUse]
  · simp [skethXdpTx, SkethAdapter.txSlot, SkethAdapter.setTxBuffer, SkethAdapter.advanceTxUse, hi]

section Ledger

variable {a b : SkethAdapter}

/-- The stored buffers are read off the log. -/
theorem txStored_congr (h : b.log = a.log) : b.txStored = a.txStored := by
  rw [SkethAdapter.txStored, h, SkethAdapter.txStored]

/-- The freed buffers are read off the log. -/
theorem freed_congr (h : b.log = a.log) : b.freed = a.freed := by
  rw [SkethAdapter.freed, h, SkethAdapter.freed]

/-- Freeing a buffer adds it to the freed ones and stores nothing. -/
theorem ledger_kfree {id : ℕ} (h : b.log = .kfree id :: a.log) :
    b.txStored = a.txStored ∧ b.freed = id :: a.freed := by
  simp [SkethAdapter.txStored, SkethAdapter.freed, h]

/-- Posting a packet stores its buffer and frees nothing. -/
theorem ledger_posted {i d len id : ℕ} {old : Option ℕ}
    (h : b.log = .txMap i d len id :: .txHold i id old :: a.log) :
    b.txStored = id :: a.txStored ∧ b.freed = a.freed := by
  simp [SkethAdapter.txStored, SkethAdapter.freed, h]

/-- Mapping alone stores and frees nothing. -/
theorem ledger_txMap {i d len id : ℕ} (h : b.log = .txMap i d len id :: a.log) :
    b.txStored = a.txStored ∧ b.freed = a.freed := by
  simp [SkethAdapter.txStored, SkethAdapter.freed, h]

end Ledger

/-- The part of the invariant that the body of the cleaning loop keeps. -/
structure TxLedger (a : SkethAdapter) : Prop where
  conserved : Slots.Conserved a.txSlot a.txStored a.freed
  recorded : Slots.Recorded a.txSlot a.txStored
  stored_lt : ∀ id ∈ a.txStored, id < a.fresh
  freed_lt : ∀ id ∈ a.freed, id < a.fresh
  empty : ∀ i id old, SkethEvent.txHold i id old ∈ a.log → old = none

/-- The log after cleaning a slot, newest first. -/
theorem cleanTxSlot_log (c : TxCleaning) (i : ℕ) :
    (cleanTxSlot c i).adapter.log =
      .txPass i :: ((if (c.adapter.txSlot i).isSome then
        unmapAndFreeEvents (c.adapter.txRing.txBuffer i) i else []) ++ c.adapter.log) := by
  unfold cleanTxSlot
  cases c.adapter.txSlot i with
  | none => rfl
  | some id =>
    simp only [emit_log, skethUnmapAndFreeTxBuffer_log, Option.isSome_some, if_true]

/-- The slots after cleaning one of them. -/
theorem cleanTxSlot_txSlot (c : TxCleaning) (i : ℕ) :
    (cleanTxSlot c i).adapter.txSlot = Function.update c.adapter.txSlot i none := by
  funext j
  rw [SkethAdapter.txSlot, cleanTxSlot_txRing]
  by_cases hj : j = i
  · subst hj
    cases hskb : c.adapter.txSlot j with
    | none =>
      rw [if_neg (by simp), Function.update_self]
      exact hskb
    | some id => simp [SkethTxBuffer.empty]
  · rw [Function.update_of_ne hj]
    split
    · exact congrArg SkethTxBuffer.skb (Function.update_of_ne hj _ _)
    · rfl

/-- Cleaning a slot stores nothing and frees exactly the buffer it held. -/
theorem cleanTxSlot_ledger (c : TxCleaning) (i : ℕ) :
    (cleanTxSlot c i).adapter.txStored = c.adapter.txStored ∧
      (cleanTxSlot c i).adapter.freed = (c.adapter.txSlot i).toList ++ c.adapter.freed := by
  have hlog := cleanTxSlot_log c i
  cases hskb : c.adapter.txSlot i with
  | none => simp [SkethAdapter.txStored, SkethAdapter.freed, hlog, hskb]
  | some id =>
    have hbuf : (c.adapter.txRing.txBuffer i).skb = some id := hskb
    cases hmapped : (c.adapter.txRing.txBuffer i).mapped <;>
      simp [SkethAdapter.txStored, SkethAdapter.freed, hlog, hskb, unmapAndFreeEvents, hbuf, hmapped]

/-- Cleaning a slot records no store. -/
theorem mem_cleanTxSlot_log {c : TxCleaning} {i j id : ℕ} {old : Option ℕ}
    (h : SkethEvent.txHold j id old ∈ (cleanTxSlot c i).adapter.log) :
    SkethEvent.txHold j id old ∈ c.adapter.log := by
  rw [cleanTxSlot_log] at h
  cases hskb : (c.adapter.txRing.txBuffer i).skb <;>
    cases hmapped : (c.adapter.txRing.txBuffer i).mapped <;>
    simpa [SkethAdapter.txSlot, unmapAndFreeEvents, hskb, hmapped] using h

/-- The body of the cleaning loop keeps the ledger: a held buffer leaves its slot and is freed. -/
theorem cleanTxSlot_keeps (c : TxCleaning) (i : ℕ) (h : TxLedger c.adapter) :
    TxLedger (cleanTxSlot c i).adapter := by
  obtain ⟨hstored, hfreed⟩ := cleanTxSlot_ledger c i
  have hslot := cleanTxSlot_txSlot c i
  have hfresh := (cleanTxSlot_frame c i).1
  refine ⟨?_, ?_, ?_, ?_, fun j id old hmem => h.empty j id old (mem_cleanTxSlot_log hmem)⟩
  · rw [hslot, hstored, hfreed]
    cases hskb : c.adapter.txSlot i with
    | none =>
      rw [Function.update_eq_self_iff.mpr hskb.symm]
      exact h.conserved
    | some id => exact h.conserved.take hskb
  · rw [hslot, hstored]
    exact h.recorded.take i
  · rw [hstored, hfresh]
    exact h.stored_lt
  · rw [hfreed, hfresh]
    intro id hid
    rcases List.mem_append.mp hid with hid | hid
    · exact h.stored_lt id (h.recorded i id (Option.mem_toList.mp hid))
    · exact h.freed_lt id hid

/-- The whole cleaning loop keeps the ledger. -/
theorem cleanTxSlots_keeps (c : TxCleaning) (slots : List ℕ) (h : TxLedger c.adapter) :
    TxLedger (slots.foldl cleanTxSlot c).adapter := by
  induction slots generalizing c with
  | nil => exact h
  | cons i rest ih => exact ih (cleanTxSlot c i) (cleanTxSlot_keeps c i h)

/-- The ledger part of the invariant. -/
theorem TxInv.ledger {a : SkethAdapter} (h : TxInv a) : TxLedger a :=
  ⟨h.conserved, h.recorded, h.stored_lt, h.freed_lt, h.empty⟩

/-- After cleaning, no slot holds a buffer. -/
theorem cleanedTxSlots_empty {a : SkethAdapter} (h : TxInv a) (i : ℕ) :
    (cleanedTxSlots a).adapter.txSlot i = none := by
  rw [SkethAdapter.txSlot, cleanedTxSlots, cleanTxSlots_txBuffer _ _ h.formed.flightSpan_nodup]
  cases hskb : a.txSlot i with
  | none =>
    rw [if_neg (by simp)]
    exact hskb
  | some id =>
    have hmem : i ∈ a.txRing.flightSpan := h.formed.mem_flightSpan.mpr (h.inFlight i id hskb)
    rw [if_pos ⟨hmem, by simp⟩]
    rfl

/-- A call that changes neither the ring nor the stores, frees at most a buffer handed over just
now and hands out new numbers keeps the invariant. -/
theorem TxInv.of_dropped {a b : SkethAdapter} (h : TxInv a) (hring : b.txRing = a.txRing)
    (hlog : b.log = .kfree a.fresh :: a.log) (hfresh : b.fresh = a.fresh + 1)
    (hdown : b.down = a.down) : TxInv b := by
  obtain ⟨hstored, hfreed⟩ := ledger_kfree hlog
  have hslot : b.txSlot = a.txSlot := by
    funext i
    rw [SkethAdapter.txSlot, hring, SkethAdapter.txSlot]
  have hnew : a.fresh ∉ a.txStored := fun hmem => Nat.lt_irrefl _ (h.stored_lt _ hmem)
  refine ⟨hring ▸ h.formed, hdown.trans h.up, ?_, ?_, ?_, ?_, ?_, ?_⟩
  · rw [hslot, hstored, hfreed]
    exact h.conserved.take_other hnew
  · rw [hslot, hstored]
    exact h.recorded
  · rw [hslot, hring]
    exact h.inFlight
  · rw [hstored, hfresh]
    exact fun id hid => Nat.lt_succ_of_lt (h.stored_lt id hid)
  · rw [hfreed, hfresh]
    intro id hid
    rcases List.mem_cons.mp hid with rfl | hid
    · exact Nat.lt_succ_self _
    · exact Nat.lt_succ_of_lt (h.freed_lt id hid)
  · rw [hlog]
    intro i id old hmem
    exact h.empty i id old (by simpa using hmem)

/-- Two more slots in flight while that leaves one free. -/
theorem dist_next_next {n a b : ℕ} (ha : a < n) (hb : b < n) (hroom : Cyclic.dist n a b + 2 < n) :
    Cyclic.dist n a (Cyclic.next n (Cyclic.next n b)) = Cyclic.dist n a b + 2 := by
  have hn : 0 < n := by omega
  rw [Cyclic.dist_next_right ha (Cyclic.next_lt hn b), Cyclic.dist_next_right ha hb]
  split <;> split <;> omega

/-- Without that room the interval from the consumer no longer reaches the old producer index. -/
theorem dist_next_next_le {n a b : ℕ} (ha : a < n) (hb : b < n)
    (hroom : ¬ Cyclic.dist n a b + 2 < n) :
    Cyclic.dist n a (Cyclic.next n (Cyclic.next n b)) ≤ Cyclic.dist n a b := by
  have hn : 0 < n := by omega
  have hlt := Cyclic.dist_lt hn a b
  rw [Cyclic.dist_next_right ha (Cyclic.next_lt hn b), Cyclic.dist_next_right ha hb]
  split <;> split <;> omega

section Posting

variable {a b : SkethAdapter} {skb : SkBuff} {d : ℕ}

/-- The ring after posting a packet. -/
theorem posted_formed (h : a.txRing.Formed) (hpost : Posts a skb (some d)) :
    (skethStartXmit a skb (some d)).txRing.Formed ∧
      (skethStartXmit a skb (some d)).txRing.inFlight = Cyclic.dist a.txRing.count
        a.txRing.nextToClean
        (Cyclic.next a.txRing.count (Cyclic.next a.txRing.count a.txRing.nextToUse)) := by
  obtain ⟨hcount, huse, hclean, _⟩ := skethStartXmit_posted a skb d hpost
  have hn := h.count_pos
  rw [h.next_eq h.use_lt, h.next_eq (Cyclic.next_lt hn _)] at huse
  refine ⟨⟨hcount ▸ h.pow, ?_, by rw [hclean, hcount]; exact h.clean_lt⟩, ?_⟩
  · rw [huse, hcount]
    exact Cyclic.next_lt hn _
  · rw [SkethTxRing.inFlight, hcount, huse, hclean]

/-- The slots after posting a packet. -/
theorem posted_txSlot (hpost : Posts a skb (some d)) :
    (skethStartXmit a skb (some d)).txSlot =
      Function.update a.txSlot a.txRing.nextToUse (some skb.id) := by
  obtain ⟨_, _, _, hbuf, _⟩ := skethStartXmit_posted a skb d hpost
  funext i
  rw [SkethAdapter.txSlot, hbuf]
  by_cases hi : i = a.txRing.nextToUse
  · subst hi
    simp
  · simp [hi, SkethAdapter.txSlot]

end Posting

/-- Cleaning keeps the invariant. -/
theorem skethCleanTxRing_inv {a b : SkethAdapter} (h : TxInv a) (hb : skethCleanTxRing a = some b) :
    TxInv b := by
  obtain ⟨b', hb', hring, hlog, hfresh, hdown⟩ := skethCleanTxRing_eq a h.formed
  obtain rfl : b = b' := Option.some.inj (hb.symm.trans hb')
  obtain ⟨hcount, huse, _⟩ := cleanTxSlots_shape ⟨a, 0, 0⟩ a.txRing.flightSpan
  have hledger : TxLedger (cleanedTxSlots a).adapter := cleanTxSlots_keeps ⟨a, 0, 0⟩ _ h.ledger
  have hslot : b.txSlot = (cleanedTxSlots a).adapter.txSlot := by
    funext i
    rw [SkethAdapter.txSlot, hring]
    rfl
  have hcount' : b.txRing.count = a.txRing.count := by
    rw [hring]
    exact hcount
  have huse' : b.txRing.nextToUse = a.txRing.nextToUse := by
    rw [hring]
    exact huse
  have hclean' : b.txRing.nextToClean = a.txRing.nextToUse := by rw [hring]
  refine ⟨⟨by rw [hcount']; exact h.formed.pow, by rw [huse', hcount']; exact h.formed.use_lt,
      by rw [hclean', hcount']; exact h.formed.use_lt⟩, ?_, ?_, ?_, ?_, ?_, ?_, ?_⟩
  · rw [hdown]
    exact (cleanTxSlots_frame ⟨a, 0, 0⟩ _).2.trans h.up
  · rw [hslot, txStored_congr hlog, freed_congr hlog]
    exact hledger.conserved
  · rw [hslot, txStored_congr hlog]
    exact hledger.recorded
  · intro i id hi
    rw [hslot, cleanedTxSlots_empty h i] at hi
    exact absurd hi (by simp)
  · rw [txStored_congr hlog, hfresh]
    exact hledger.stored_lt
  · rw [freed_congr hlog, hfresh]
    exact hledger.freed_lt
  · rw [hlog]
    exact hledger.empty

/-- The slot at `next_to_use` is not in flight, so it holds no buffer. -/
theorem TxInv.use_empty {a : SkethAdapter} (h : TxInv a) : a.txSlot a.txRing.nextToUse = none := by
  cases hskb : a.txSlot a.txRing.nextToUse with
  | none => rfl
  | some id => exact absurd (h.inFlight _ id hskb).2 (Nat.lt_irrefl _)

/-- Numbering a new buffer keeps the invariant. -/
theorem TxInv.nextBuffer {a : SkethAdapter} (h : TxInv a) : TxInv a.nextBuffer :=
  ⟨h.formed, h.up, h.conserved, h.recorded, h.inFlight,
    fun id hid => Nat.lt_succ_of_lt (h.stored_lt id hid),
    fun id hid => Nat.lt_succ_of_lt (h.freed_lt id hid), h.empty⟩

/-- A packet that finds room keeps the invariant. -/
theorem skethStartXmit_inv {a : SkethAdapter} (h : TxInv a) (skb : SkBuff) (dma : Option ℕ)
    (hroom : Posts a skb dma → a.txRing.inFlight + 2 < a.txRing.count) :
    TxInv (skethStartXmit a.nextBuffer { skb with id := a.fresh } dma) := by
  by_cases hpost : Posts a.nextBuffer { skb with id := a.fresh } dma
  · obtain ⟨d, rfl⟩ := Option.isSome_iff_exists.mp hpost.2.2
    have hroom := hroom hpost
    obtain ⟨hcount, _, hclean, _, hlog, hfresh, hdown⟩ := skethStartXmit_posted _ _ d hpost
    obtain ⟨hstored, hfreed⟩ := ledger_posted hlog
    obtain ⟨hformed, hflight⟩ := posted_formed (a := a.nextBuffer) h.formed hpost
    have hslot := posted_txSlot hpost
    have hnew : a.fresh ∉ a.txStored := fun hmem => Nat.lt_irrefl _ (h.stored_lt _ hmem)
    have hnew' : a.fresh ∉ a.freed := fun hmem => Nat.lt_irrefl _ (h.freed_lt _ hmem)
    have hgrow := dist_next_next h.formed.clean_lt h.formed.use_lt hroom
    refine ⟨hformed, hdown.trans h.up, ?_, ?_, ?_, ?_, ?_, ?_⟩
    · rw [hslot, hstored, hfreed]
      exact h.conserved.place h.recorded h.use_empty hnew hnew'
    · rw [hslot, hstored]
      exact h.recorded.place _ _
    · intro i id hi
      rw [hslot] at hi
      rw [SkethTxRing.InFlight, hflight, hcount, hclean, nextBuffer_txRing]
      rcases (Slots.filled_iff _ _ _ _ _).mp hi with ⟨rfl, _⟩ | ⟨_, hi⟩
      · exact ⟨h.formed.use_lt, by rw [hgrow]; exact Nat.lt_add_of_pos_right (by omega)⟩
      · obtain ⟨hlt, hdist⟩ := h.inFlight i id hi
        exact ⟨hlt, by rw [hgrow]; exact Nat.lt_add_right 2 hdist⟩
    · rw [hstored, hfresh]
      intro id hid
      rcases List.mem_cons.mp hid with rfl | hid
      · exact Nat.lt_succ_self _
      · exact Nat.lt_succ_of_lt (h.stored_lt id hid)
    · rw [hfreed, hfresh]
      exact fun id hid => Nat.lt_succ_of_lt (h.freed_lt id hid)
    · rw [hlog]
      intro i id old hmem
      simp only [List.mem_cons, reduceCtorEq, SkethEvent.txHold.injEq, false_or] at hmem
      rcases hmem with ⟨_, _, rfl⟩ | hmem
      · exact h.use_empty
      · exact h.empty i id old hmem
  · obtain ⟨hring, hlog, hfresh, hdown⟩ := skethStartXmit_dropped _ _ dma hpost
    exact h.of_dropped hring hlog hfresh hdown

/-- A packet without room breaks conservation: its own buffer is held outside the interval. -/
theorem skethStartXmit_bad {a : SkethAdapter} (h : TxInv a) (skb : SkBuff) (dma : Option ℕ)
    (hroom : ¬ (Posts a skb dma → a.txRing.inFlight + 2 < a.txRing.count)) :
    ¬ TxConserved (skethStartXmit a.nextBuffer { skb with id := a.fresh } dma) := by
  obtain ⟨hpost, hfull⟩ := Classical.not_imp.mp hroom
  obtain ⟨d, rfl⟩ := Option.isSome_iff_exists.mp hpost.2.2
  have hpost' : Posts a.nextBuffer { skb with id := a.fresh } (some d) := hpost
  obtain ⟨hcount, _, hclean, _, hlog, _⟩ := skethStartXmit_posted _ _ d hpost'
  obtain ⟨hstored, hfreed⟩ := ledger_posted hlog
  obtain ⟨_, hflight⟩ := posted_formed (a := a.nextBuffer) h.formed hpost'
  have hshort := dist_next_next_le h.formed.clean_lt h.formed.use_lt hfull
  rintro ⟨hall, _⟩
  rcases hall a.fresh (by rw [hstored]; exact List.mem_cons_self) with ⟨hone, _⟩ | ⟨_, i, hin, hi, _⟩
  · rw [hfreed] at hone
    have hmem : a.fresh ∈ a.freed := List.count_pos_iff.mp (by
      rw [show a.freed.count a.fresh = 1 from hone]
      exact Nat.one_pos)
    exact Nat.lt_irrefl _ (h.freed_lt _ hmem)
  · rw [posted_txSlot hpost'] at hi
    rw [SkethTxRing.InFlight, hflight, hcount, hclean, nextBuffer_txRing] at hin
    rcases (Slots.filled_iff _ _ _ _ _).mp hi with ⟨rfl, _⟩ | ⟨_, hi⟩
    · exact absurd hin.2 (Nat.not_lt.mpr hshort)
    · exact Nat.lt_irrefl _ (h.stored_lt _ (h.recorded i _ hi))

/-- An XDP frame with room, or on a ring without buffers, keeps the invariant. -/
theorem skethXdpTx_inv {a : SkethAdapter} (h : TxInv a) (len : ℕ) (dma : Option ℕ)
    (hroom : dma.isSome →
      a.txRing.inFlight + 1 < a.txRing.count ∨ ∀ i < a.txRing.count, a.txSlot i = none) :
    TxInv (skethXdpTx a.nextBuffer a.fresh len dma) := by
  cases dma with
  | none => exact h.nextBuffer
  | some d =>
    have hn := h.formed.count_pos
    obtain ⟨hcount, huse, hclean, hslot, hlog, hfresh, hdown⟩ :=
      skethXdpTx_mapped a.nextBuffer a.fresh len d
    obtain ⟨hstored, hfreed⟩ := ledger_txMap hlog
    have huse' := huse.trans (h.formed.next_eq h.formed.use_lt)
    refine ⟨⟨hcount ▸ h.formed.pow, ?_, by rw [hclean, hcount]; exact h.formed.clean_lt⟩,
      hdown.trans h.up, ?_, ?_, ?_, ?_, ?_, ?_⟩
    · rw [huse', hcount]
      exact Cyclic.next_lt hn _
    · rw [hslot, hstored, hfreed]
      exact h.conserved
    · rw [hslot, hstored]
      exact h.recorded
    · intro i id hi
      rw [hslot] at hi
      obtain ⟨hlt, hdist⟩ := h.inFlight i id hi
      rcases hroom rfl with hroom | hempty
      · have hne : Cyclic.dist a.txRing.count a.txRing.nextToClean a.txRing.nextToUse + 1 ≠
            a.txRing.count := Nat.ne_of_lt hroom
        rw [SkethTxRing.InFlight, SkethTxRing.inFlight, hcount, huse', hclean,
          nextBuffer_txRing, Cyclic.dist_next_right h.formed.clean_lt h.formed.use_lt, if_neg hne]
        exact ⟨hlt, Nat.lt_succ_of_lt hdist⟩
      · exact absurd (hempty i hlt) (by rw [show a.txSlot i = some id from hi]; simp)
    · rw [hstored, hfresh]
      exact fun id hid => Nat.lt_succ_of_lt (h.stored_lt id hid)
    · rw [hfreed, hfresh]
      exact fun id hid => Nat.lt_succ_of_lt (h.freed_lt id hid)
    · rw [hlog]
      intro i id old hmem
      exact h.empty i id old (by simpa using hmem)

/-- An XDP frame that fills a ring with buffers breaks conservation: the interval is empty. -/
theorem skethXdpTx_bad {a : SkethAdapter} (h : TxInv a) (len : ℕ) (dma : Option ℕ)
    (hroom : ¬ (dma.isSome →
      a.txRing.inFlight + 1 < a.txRing.count ∨ ∀ i < a.txRing.count, a.txSlot i = none)) :
    ¬ TxConserved (skethXdpTx a.nextBuffer a.fresh len dma) := by
  obtain ⟨hsome, hneither⟩ := Classical.not_imp.mp hroom
  obtain ⟨d, rfl⟩ := Option.isSome_iff_exists.mp hsome
  obtain ⟨hfull, hsomeHeld⟩ := not_or.mp hneither
  obtain ⟨j, hheld⟩ := not_forall.mp hsomeHeld
  obtain ⟨id, hj⟩ := Option.ne_none_iff_exists'.mp (Classical.not_imp.mp hheld).2
  have hn := h.formed.count_pos
  obtain ⟨hcount, huse, hclean, hslot, hlog, _⟩ :=
    skethXdpTx_mapped a.nextBuffer a.fresh len d
  obtain ⟨hstored, hfreed⟩ := ledger_txMap hlog
  have huse' := huse.trans (h.formed.next_eq h.formed.use_lt)
  have hlt : a.txRing.inFlight < a.txRing.count := Cyclic.dist_lt hn _ _
  have hlast : Cyclic.dist a.txRing.count a.txRing.nextToClean a.txRing.nextToUse + 1 =
      a.txRing.count := by
    change a.txRing.inFlight + 1 = _
    omega
  rintro ⟨hall, _⟩
  rcases hall id (by rw [hstored]; exact h.recorded j id hj) with ⟨hone, _⟩ | ⟨_, i, hin, _⟩
  · rw [hfreed] at hone
    have hzero := h.conserved.not_taken h.recorded hj
    exact absurd (hone.symm.trans hzero) Nat.one_ne_zero
  · rw [SkethTxRing.InFlight, SkethTxRing.inFlight, hcount, huse', hclean,
      nextBuffer_txRing, Cyclic.dist_next_right h.formed.clean_lt h.formed.use_lt, if_pos hlast] at hin
    exact Nat.not_lt_zero _ hin.2

/-- Every guarded call keeps the invariant. -/
theorem txMachine_step_inv (a : SkethAdapter) (call : TxCall) (b : SkethAdapter) (h : TxInv a)
    (hb : txMachine.step a call = some b) (hroom : TxRoom a call) : TxInv b := by
  cases call with
  | startXmit skb dma => exact Option.some.inj hb ▸ skethStartXmit_inv h skb dma hroom
  | xdpTx len dma => exact Option.some.inj hb ▸ skethXdpTx_inv h len dma hroom
  | cleanTxRing => exact skethCleanTxRing_inv h hb

/-- Every call without room breaks conservation at once. -/
theorem txMachine_step_bad (a : SkethAdapter) (call : TxCall) (b : SkethAdapter) (h : TxInv a)
    (hb : txMachine.step a call = some b) (hroom : ¬ TxRoom a call) : ¬ TxConserved b := by
  cases call with
  | startXmit skb dma => exact Option.some.inj hb ▸ skethStartXmit_bad h skb dma hroom
  | xdpTx len dma => exact Option.some.inj hb ▸ skethXdpTx_bad h len dma hroom
  | cleanTxRing => exact absurd trivial hroom

/-- A run conserves its buffers in every state exactly when every call of it finds room. -/
theorem txRing_conserved_iff_room (a : SkethAdapter) (k : ℕ) (hk : k ≤ 15) (calls : List TxCall) :
    txMachine.Always TxConserved (txSetup a (2 ^ k)) calls ↔
      txMachine.Guarded TxRoom (txSetup a (2 ^ k)) calls :=
  txMachine.always_iff_guarded (fun _ h => h.txConserved) txMachine_step_inv txMachine_step_bad
    (txSetup_inv a hk) calls

/-- The equivalence on the driver's ring and one packet. -/
theorem txRing_conserved_one :
    txMachine.Always TxConserved (txSetup skethProbed (2 ^ 9))
        [.startXmit ⟨0, 60, 0, false, false⟩ (some 4096)] ↔
      txMachine.Guarded TxRoom (txSetup skethProbed (2 ^ 9))
        [.startXmit ⟨0, 60, 0, false, false⟩ (some 4096)] :=
  txRing_conserved_iff_room skethProbed 9 (by decide) _

/-- On the driver's ring of 512 slots, the packet after 256 uncleaned ones overwrites the buffer of
the first. -/
theorem txRing_overwritten :
    ¬ txMachine.Always TxConserved (txSetup skethProbed (2 ^ 9))
      (List.replicate 257 (.startXmit ⟨0, 60, 0, false, false⟩ (some 4096))) := by
  intro h
  have hlast : ((txMachine.run (txSetup skethProbed (2 ^ 9))
      (List.replicate 257 (.startXmit ⟨0, 60, 0, false, false⟩ (some 4096)))).bind
        fun a => a.log[1]?) = some (.txHold 0 256 (some 0)) := by decide +kernel
  obtain ⟨a, hrun, hevent⟩ := Option.bind_eq_some_iff.mp hlast
  have hconserved : TxConserved a := h.of_reached _ (List.prefix_refl _) hrun
  exact absurd (hconserved.2 0 256 (some 0) (List.mem_of_getElem? hevent)) (by simp)

end LinuxFunctionTest.Sketh
