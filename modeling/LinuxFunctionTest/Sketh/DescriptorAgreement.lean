import LinuxFunctionTest.Sketh.TransmitConservation

/-!
# Agreement of descriptors and TX buffers

`sketh_start_xmit` fills the slot at `next_to_use` and advances the index before it calls
`sketh_xmit_desc`, which reads the index again: the descriptor of a packet is written one index
after its buffer. No packet ever shares an index with its descriptor, so the two arrays of a ring
agree exactly while nothing was posted.
-/

namespace LinuxFunctionTest.Sketh

/-- A call of the stack's transmit path, with the outcome of its DMA mapping, or a cleaning. -/
inductive XmitCall where
  | startXmit (skb : SkBuff) (dma : Option ℕ)
  | cleanTxRing

/-- The call as one of the transmit side. -/
def XmitCall.toTxCall : XmitCall → TxCall
  | .startXmit skb dma => .startXmit skb dma
  | .cleanTxRing => .cleanTxRing

/-- Runs of `sketh_start_xmit` and `sketh_clean_tx_ring`. -/
def xmitMachine : Machine SkethAdapter XmitCall where
  step a call := txMachine.step a call.toTxCall

/-- An adapter whose TX ring was just set up; the device may be up or down. -/
def xmitSetup (a : SkethAdapter) (count : ℕ) : SkethAdapter :=
  { a with txRing := skethSetupTxResources count, fresh := 0, log := [] }

/-- Every index in flight holds a buffer and describes it, and every buffer stored and not yet freed
occupies exactly one index in flight. -/
structure DescriptorsAgree (a : SkethAdapter) : Prop where
  held : ∀ i, a.txRing.InFlight i → (a.txSlot i).isSome
  pktAddr : ∀ i, a.txRing.InFlight i → (a.txRing.desc i).pktAddr = (a.txRing.txBuffer i).dma
  length : ∀ i, a.txRing.InFlight i → (a.txRing.desc i).length = (a.txRing.txBuffer i).bytes
  once : ∀ id ∈ a.txStored, id ∉ a.freed → ∃! i, a.txRing.InFlight i ∧ a.txSlot i = some id

/-- The call posts no packet. -/
def NothingPosted (a : SkethAdapter) : XmitCall → Prop
  | .startXmit skb dma => ¬ Posts a skb dma
  | .cleanTxRing => True

instance (a : SkethAdapter) (skb : SkBuff) (dma : Option ℕ) : Decidable (Posts a skb dma) :=
  inferInstanceAs (Decidable (_ ∧ _ ∧ _))

instance (a : SkethAdapter) (call : XmitCall) : Decidable (NothingPosted a call) :=
  match call with
  | .startXmit skb dma => inferInstanceAs (Decidable (¬ Posts a skb dma))
  | .cleanTxRing => inferInstanceAs (Decidable True)

/-- The ring is as it was set up. -/
structure Untouched (k : ℕ) (a : SkethAdapter) : Prop where
  ring : a.txRing = skethSetupTxResources (2 ^ k)
  stored : a.txStored = []
  freed_lt : ∀ id ∈ a.freed, id < a.fresh

/-- No index of a ring that was just set up is in flight. -/
theorem skethSetupTxResources_inFlight (count i : ℕ) :
    ¬ (skethSetupTxResources count).InFlight i := by
  rintro ⟨_, hi⟩
  rw [SkethTxRing.inFlight, skethSetupTxResources, Cyclic.dist_self] at hi
  exact Nat.not_lt_zero _ hi

/-- An untouched ring has nothing in flight. -/
theorem Untouched.agree {k : ℕ} {a : SkethAdapter} (h : Untouched k a) : DescriptorsAgree a := by
  have hnone : ∀ i, ¬ a.txRing.InFlight i := by
    rw [h.ring]
    exact skethSetupTxResources_inFlight _
  refine ⟨fun i hi => absurd hi (hnone i), fun i hi => absurd hi (hnone i),
    fun i hi => absurd hi (hnone i), fun id hid => ?_⟩
  rw [h.stored] at hid
  exact absurd hid List.not_mem_nil

/-- Cleaning an untouched ring visits no slot. -/
theorem skethCleanTxRing_untouched {k : ℕ} (hk : k ≤ 15) {a b : SkethAdapter} (h : Untouched k a)
    (hb : skethCleanTxRing a = some b) : Untouched k b := by
  have hformed : a.txRing.Formed := by
    rw [h.ring]
    exact skethSetupTxResources_formed hk
  obtain ⟨b', hb', hring, hlog, hfresh, _⟩ := skethCleanTxRing_eq a hformed
  obtain rfl : b = b' := Option.some.inj (hb.symm.trans hb')
  have hspan : a.txRing.flightSpan = [] := by
    rw [SkethTxRing.flightSpan, SkethTxRing.inFlight, h.ring, skethSetupTxResources,
      Cyclic.dist_self, Cyclic.span_zero]
  have hslots : cleanedTxSlots a = ⟨a, 0, 0⟩ := by
    rw [cleanedTxSlots, hspan]
    rfl
  rw [hslots] at hring hlog hfresh
  refine ⟨?_, (txStored_congr hlog).trans h.stored, ?_⟩
  · rw [hring]
    dsimp only
    rw [h.ring]
    rfl
  · rw [freed_congr hlog, hfresh]
    exact h.freed_lt

/-- A packet that is dropped leaves the ring alone. -/
theorem skethStartXmit_untouched {k : ℕ} {a : SkethAdapter} (h : Untouched k a) (skb : SkBuff)
    (dma : Option ℕ) (hno : ¬ Posts a skb dma) :
    Untouched k (skethStartXmit a.nextBuffer { skb with id := a.fresh } dma) := by
  obtain ⟨hring, hlog, hfresh, _⟩ := skethStartXmit_dropped a.nextBuffer
    { skb with id := a.fresh } dma hno
  obtain ⟨hstored, hfreed⟩ := ledger_kfree hlog
  refine ⟨hring.trans h.ring, hstored.trans h.stored, ?_⟩
  rw [hfreed, hfresh]
  intro id hid
  rcases List.mem_cons.mp hid with rfl | hid
  · exact Nat.lt_succ_self _
  · exact Nat.lt_succ_of_lt (h.freed_lt id hid)

/-- The first packet posted breaks the agreement: the index that its descriptor takes holds no
buffer, and on a ring of at most two indices its own index is not in flight. -/
theorem skethStartXmit_disagree {k : ℕ} (hk : k ≤ 15) {a : SkethAdapter} (h : Untouched k a)
    (skb : SkBuff) (dma : Option ℕ) (hpost : Posts a skb dma) :
    ¬ DescriptorsAgree (skethStartXmit a.nextBuffer { skb with id := a.fresh } dma) := by
  obtain ⟨d, rfl⟩ := Option.isSome_iff_exists.mp hpost.2.2
  have hpost' : Posts a.nextBuffer { skb with id := a.fresh } (some d) := hpost
  have hformed : a.nextBuffer.txRing.Formed := by
    rw [nextBuffer_txRing, h.ring]
    exact skethSetupTxResources_formed hk
  obtain ⟨hcount, _, hclean, _, hlog, _⟩ := skethStartXmit_posted _ _ d hpost'
  obtain ⟨hstored, hfreed⟩ := ledger_posted hlog
  obtain ⟨_, hflight⟩ := posted_formed hformed hpost'
  have hslot := posted_txSlot hpost'
  have hnew : a.fresh ∉ (skethStartXmit a.nextBuffer { skb with id := a.fresh } (some d)).freed := by
    rw [hfreed]
    exact fun hmem => Nat.lt_irrefl _ (h.freed_lt _ hmem)
  rw [nextBuffer_txRing, h.ring] at hcount hclean hflight hslot
  dsimp only [skethSetupTxResources] at hcount hclean hflight hslot
  have hpos : 0 < 2 ^ k := Nat.two_pow_pos k
  intro hagree
  obtain ⟨i, ⟨hin, hi⟩, _⟩ := hagree.once a.fresh (hstored ▸ List.mem_cons_self) hnew
  rw [SkethTxRing.InFlight, hflight, hcount, hclean] at hin
  by_cases hsmall : 2 < 2 ^ k
  · have hone : Cyclic.next (2 ^ k) 0 = 1 := Nat.mod_eq_of_lt (by omega)
    have htwo : Cyclic.next (2 ^ k) (Cyclic.next (2 ^ k) 0) = 2 := by
      rw [hone]
      exact Nat.mod_eq_of_lt hsmall
    have hheld := hagree.held 1 (by
      rw [SkethTxRing.InFlight, hflight, hcount, hclean, htwo, Cyclic.dist_eq hpos (by omega),
        Cyclic.dist_eq hpos hsmall]
      refine ⟨by omega, ?_⟩
      rw [if_pos (Nat.zero_le 1), if_pos (Nat.zero_le 2)]
      exact Nat.lt_succ_self 1)
    rw [hslot, Function.update_of_ne Nat.one_ne_zero] at hheld
    rw [SkethAdapter.txSlot, nextBuffer_txRing, h.ring] at hheld
    exact absurd hheld (by simp [skethSetupTxResources, SkethTxBuffer.empty])
  · have hzero : Cyclic.next (2 ^ k) (Cyclic.next (2 ^ k) 0) = 0 := by
      obtain hk1 | hk2 : 2 ^ k = 1 ∨ 2 ^ k = 2 := by omega
      · rw [hk1]
        rfl
      · rw [hk2]
        rfl
    rw [hzero, Cyclic.dist_self] at hin
    exact Nat.not_lt_zero _ hin.2

/-- Descriptors and buffers agree in every state of a run exactly when the run posts no packet. -/
theorem descriptorsAgree_iff_nothingPosted (a : SkethAdapter) (k : ℕ) (hk : k ≤ 15)
    (calls : List XmitCall) :
    xmitMachine.Always DescriptorsAgree (xmitSetup a (2 ^ k)) calls ↔
      xmitMachine.Guarded NothingPosted (xmitSetup a (2 ^ k)) calls := by
  apply xmitMachine.always_iff_guarded (fun _ h => Untouched.agree (k := k) h)
  · intro s call t hs ht hguard
    cases call with
    | startXmit skb dma => exact Option.some.inj ht ▸ skethStartXmit_untouched hs skb dma hguard
    | cleanTxRing => exact skethCleanTxRing_untouched hk hs ht
  · intro s call t hs ht hguard
    cases call with
    | startXmit skb dma =>
      exact Option.some.inj ht ▸ skethStartXmit_disagree hk hs skb dma (not_not.mp hguard)
    | cleanTxRing => exact absurd trivial hguard
  · exact ⟨rfl, rfl, fun _ hid => absurd hid List.not_mem_nil⟩

/-- The equivalence on the driver's ring, for an empty packet and a cleaning. -/
theorem descriptorsAgree_empty :
    xmitMachine.Always DescriptorsAgree (xmitSetup skethProbed (2 ^ 9))
        [.startXmit ⟨0, 0, 0, false, false⟩ (some 4096), .cleanTxRing] ↔
      xmitMachine.Guarded NothingPosted (xmitSetup skethProbed (2 ^ 9))
        [.startXmit ⟨0, 0, 0, false, false⟩ (some 4096), .cleanTxRing] :=
  descriptorsAgree_iff_nothingPosted skethProbed 9 (by decide) _

/-- On the driver's ring of 512 slots, one packet of 60 bytes leaves descriptor 0 unwritten and
index 1 in flight without a buffer. -/
theorem descriptorsAgree_broken :
    ¬ xmitMachine.Always DescriptorsAgree (xmitSetup skethProbed (2 ^ 9))
      [.startXmit ⟨0, 60, 0, false, false⟩ (some 4096)] := by
  intro h
  obtain ⟨_, hrest⟩ := h
  have hagree := hrest _ rfl
  have hin : (skethStartXmit (xmitSetup skethProbed (2 ^ 9)).nextBuffer ⟨0, 60, 0, false, false⟩
      (some 4096)).txRing.InFlight 0 := ⟨by decide, by decide⟩
  exact absurd (hagree.pktAddr 0 hin) (by decide)

end LinuxFunctionTest.Sketh
