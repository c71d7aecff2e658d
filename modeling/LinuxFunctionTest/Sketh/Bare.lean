import LinuxFunctionTest.Library.Fallible
import LinuxFunctionTest.Sketh.Lifecycle
import LinuxFunctionTest.Sketh.TransmitConservation

/-!
# The driver on a bare adapter

Nobody sets up a ring, so an adapter stays bare: `rx_buffer`, `tx_buffer` and `desc` of every ring are
NULL from the probe to the remove. Each function that a running driver calls has one specification
here: the exact condition under which it succeeds on a bare adapter, and what it does then.
-/

namespace LinuxFunctionTest.Sketh

/-- Buffers were freed, and nothing else was done to them. -/
def KfreeOnly (log : List SkethEvent) : Prop := ∀ e ∈ log, ∃ id, e = .kfree id

namespace SkethDev

/-- No ring has buffers or descriptors, no packet is in flight, and no buffer was stored. -/
structure Bare (d : SkethDev) : Prop where
  queues : 0 < d.numQueues
  rx : ∃ rings, d.rxRing = some rings ∧ ∀ q, (rings q).rxBuffer = false ∧ (rings q).desc = false ∧
    (rings q).xdpEnabled = false ∧ (rings q).ring.count = skethRxMaxDesc
  tx : ∃ rings, d.txRing = some rings ∧ ∀ q, (rings q).txBuffer = false ∧ (rings q).desc = false ∧
    (rings q).ring.nextToClean = (rings q).ring.nextToUse
  log : KfreeOnly d.adapter.log

/-- The bus, the queues, `msix_entries`, the registration and the state bit are the same. -/
structure Framed (d t : SkethDev) : Prop where
  bus : t.bus = d.bus
  numQueues : t.numQueues = d.numQueues
  msixEntries : t.msixEntries = d.msixEntries
  devRegistered : t.devRegistered = d.devRegistered
  down : t.adapter.down = d.adapter.down

/-- A function that left the adapter bare and released or acquired nothing. -/
structure Kept (d t : SkethDev) : Prop where
  framed : Framed d t
  bare : Bare t
  ledger : t.ledger = d.ledger

/-- The first allocation of every queue fails. -/
def FirstAllocsFail (n : ℤ) (alloc : ℕ → ℕ → RxAlloc) : Prop := ∀ q : ℕ, (q : ℤ) < n → alloc q 0 = .noSkb

section Bare

variable {d t u : SkethDev} {q : ℕ}

/-- A queue of a bare adapter. -/
theorem mem_queues : q ∈ d.queues ↔ (q : ℤ) < d.numQueues := by
  rw [queues, List.mem_range]
  omega

theorem Framed.refl (d : SkethDev) : Framed d d := ⟨rfl, rfl, rfl, rfl, rfl⟩

theorem Framed.trans (h : Framed d t) (h' : Framed t u) : Framed d u where
  bus := h'.bus.trans h.bus
  numQueues := h'.numQueues.trans h.numQueues
  msixEntries := h'.msixEntries.trans h.msixEntries
  devRegistered := h'.devRegistered.trans h.devRegistered
  down := h'.down.trans h.down

theorem Bare.kept (h : Bare d) : Kept d d := ⟨.refl d, h, rfl⟩

theorem Kept.trans (h : Kept d t) (h' : Kept t u) : Kept d u :=
  ⟨h.framed.trans h'.framed, h'.bare, h'.ledger.trans h.ledger⟩

/-- An RX queue of a bare adapter has no buffers. -/
theorem Bare.rxQueue (h : Bare d) (hq : (q : ℤ) < d.numQueues) :
    ∃ rx, d.rxQueue q = .ok rx ∧ rx.rxBuffer = false ∧ rx.desc = false ∧ rx.xdpEnabled = false ∧
      rx.ring.count = skethRxMaxDesc := by
  obtain ⟨rings, hrings, hbare⟩ := h.rx
  exact ⟨rings q, by simp only [SkethDev.rxQueue, hrings, if_pos hq], hbare q⟩

/-- A TX queue of a bare adapter has no buffers. -/
theorem Bare.txQueue (h : Bare d) (hq : (q : ℤ) < d.numQueues) :
    ∃ tx, d.txQueue q = .ok tx ∧ tx.txBuffer = false ∧ tx.desc = false ∧
      tx.ring.nextToClean = tx.ring.nextToUse := by
  obtain ⟨rings, hrings, hbare⟩ := h.tx
  exact ⟨rings q, by simp only [SkethDev.txQueue, hrings, if_pos hq], hbare q⟩

/-- The adapter fields that a bare adapter does not speak of may change. -/
theorem Bare.of_eq (h : Bare d) (hqueues : t.numQueues = d.numQueues) (hrx : t.rxRing = d.rxRing)
    (htx : t.txRing = d.txRing) (hlog : KfreeOnly t.adapter.log) : Bare t where
  queues := hqueues ▸ h.queues
  rx := hrx ▸ h.rx
  tx := htx ▸ h.tx
  log := hlog

/-- An RX ring without buffers may be written to a queue. -/
theorem Bare.setRxQueue (h : Bare d) (q : ℕ) {rx : RxQueue} (hbuffer : rx.rxBuffer = false)
    (hdesc : rx.desc = false) (hxdp : rx.xdpEnabled = false) (hcount : rx.ring.count = skethRxMaxDesc) :
    Bare (d.setRxQueue q rx) where
  queues := h.queues
  rx := by
    obtain ⟨rings, hrings, hbare⟩ := h.rx
    refine ⟨Function.update rings q rx, by simp [SkethDev.setRxQueue, hrings], fun p => ?_⟩
    by_cases hp : p = q
    · subst hp
      rw [Function.update_self]
      exact ⟨hbuffer, hdesc, hxdp, hcount⟩
    · rw [Function.update_of_ne hp]
      exact hbare p
  tx := h.tx
  log := h.log

/-- A TX ring without buffers and with nothing in flight may be written to a queue. -/
theorem Bare.setTxQueue (h : Bare d) (q : ℕ) {tx : TxQueue} (hbuffer : tx.txBuffer = false)
    (hdesc : tx.desc = false) (hidle : tx.ring.nextToClean = tx.ring.nextToUse) :
    Bare (d.setTxQueue q tx) where
  queues := h.queues
  rx := h.rx
  tx := by
    obtain ⟨rings, hrings, hbare⟩ := h.tx
    refine ⟨Function.update rings q tx, by simp [SkethDev.setTxQueue, hrings], fun p => ?_⟩
    by_cases hp : p = q
    · subst hp
      rw [Function.update_self]
      exact ⟨hbuffer, hdesc, hidle⟩
    · rw [Function.update_of_ne hp]
      exact hbare p
  log := h.log

end Bare

section Configure

variable {d : SkethDev} {q : ℕ}

/-- On a bare adapter there is nothing to reset in a TX ring. -/
theorem Bare.skethAllocTxBuffers (h : Bare d) (hq : (q : ℤ) < d.numQueues) :
    d.skethAllocTxBuffers q = .ok d := by
  obtain ⟨tx, htx, -, -, hidle⟩ := h.txQueue hq
  rw [SkethDev.skethAllocTxBuffers, htx]
  exact if_pos hidle

/-- On a bare adapter no RX ring is prepared for XDP. -/
theorem Bare.skethSetRxBufferLen (h : Bare d) (hq : (q : ℤ) < d.numQueues) :
    d.skethSetRxBufferLen q = .ok d := by
  obtain ⟨rx, hrx, -, -, hxdp, -⟩ := h.rxQueue hq
  rw [SkethDev.skethSetRxBufferLen, hrx]
  exact if_neg (by simp [hxdp])

/-- On a bare adapter the refill loop faults on the first buffer it stores. -/
theorem Bare.skethAllocRxBuffers (h : Bare d) (hq : (q : ℤ) < d.numQueues) {cleanedCount : ℕ}
    (hcount : cleanedCount ≠ 0) (outcome : ℕ → RxAlloc) :
    Fallible (d.skethAllocRxBuffers q cleanedCount outcome) (outcome 0 = .noSkb) (Kept d) := by
  obtain ⟨rx, hrx, hbuffer, hdesc, hxdp, hring⟩ := h.rxQueue hq
  rw [SkethDev.skethAllocRxBuffers, hrx]
  by_cases hfail : outcome 0 = .noSkb
  · have hfilled : Sketh.skethAllocRxBuffers { d.adapter with rxRing := rx.ring } cleanedCount outcome =
        { d.adapter with rxRing := rx.ring, rxDrops := d.adapter.rxDrops + 1 } := by
      obtain ⟨n, rfl⟩ := Nat.exists_eq_succ_of_ne_zero hcount
      simp only [Sketh.skethAllocRxBuffers, skethAllocRxLoop, hfail]
    refine Or.inl ⟨hfail, _, if_pos (Or.inr hfail), ⟨⟨rfl, rfl, rfl, rfl, ?_⟩, ?_, rfl⟩⟩
    · rw [hfilled]
    · rw [hfilled]
      have hset : Bare (d.setRxQueue q { rx with ring := rx.ring }) :=
        h.setRxQueue q hbuffer hdesc hxdp hring
      exact hset.of_eq rfl rfl rfl h.log
  · refine Or.inr ⟨hfail, .rxBuffer, ?_⟩
    change ite _ _ _ = _
    rw [if_neg (not_or.mpr ⟨hcount, hfail⟩), if_pos (by simp [hbuffer])]

/-- `sketh_configure` on a bare adapter succeeds exactly when it gets no buffer at all. -/
theorem Bare.skethConfigure (h : Bare d) (alloc : ℕ → ℕ → RxAlloc) :
    Fallible (d.skethConfigure alloc) (FirstAllocsFail d.numQueues alloc) (Kept d) := by
  have htx : d.queues.foldlM SkethDev.skethAllocTxBuffers d = .ok d :=
    Fallible.foldlM_fixed fun q hq => h.skethAllocTxBuffers (mem_queues.mp hq)
  have hlen : d.queues.foldlM SkethDev.skethSetRxBufferLen d = .ok d :=
    Fallible.foldlM_fixed fun q hq => h.skethSetRxBufferLen (mem_queues.mp hq)
  have hrx : Fallible (d.queues.foldlM (fun d q => do
      let rx ← d.rxQueue q
      d.skethAllocRxBuffers q rx.ring.count (alloc q)) d) (∀ q ∈ d.queues, alloc q 0 = .noSkb)
      (Kept d) := by
    refine Fallible.foldlM d.queues (fun t q hq ht => ?_) h.kept
    have hqt : (q : ℤ) < t.numQueues := ht.framed.numQueues ▸ mem_queues.mp hq
    obtain ⟨rx, hqueue, -, -, -, hcount⟩ := ht.bare.rxQueue hqt
    rw [hqueue]
    refine (ht.bare.skethAllocRxBuffers hqt ?_ (alloc q)).mono Iff.rfl fun _ => ht.trans
    rw [hcount]
    decide
  rw [SkethDev.skethConfigure, htx]
  change Fallible (d.queues.foldlM SkethDev.skethSetRxBufferLen d >>= _) _ _
  rw [hlen]
  exact hrx.mono (forall_congr' fun q => by rw [mem_queues]) fun _ => id

end Configure

section Interrupts

variable {d : SkethDev}

/-- The acquisitions of the first `i` interrupts, newest first. -/
def irqsRequested (i : ℕ) : SkethLedger :=
  ((List.range i).map fun q => LedgerEntry.acquire (.irq q)).reverse

/-- The acquisitions of the first `i` interrupts and then their releases, newest first. -/
def irqsUndone (i : ℕ) : SkethLedger :=
  (List.range i).map (fun q => LedgerEntry.release (.irq q)) ++ irqsRequested i

/-- Releasing interrupts in turn. -/
theorem foldl_release (l : List ℕ) (d : SkethDev) :
    l.foldl (fun d q => d.release (.irq q)) d =
      { d with ledger := (l.map fun q => LedgerEntry.release (.irq q)).reverse ++ d.ledger } := by
  induction l generalizing d with
  | nil => rfl
  | cons q rest ih =>
    rw [List.foldl_cons, ih]
    simp [release]

/-- A round of the loop of `sketh_request_irqs` with the entries there. -/
theorem skethRequestIrqsLoop_succ (irq : ℕ → ℤ) {vectors : ℕ → ℕ} (hmsix : d.msixEntries = some vectors)
    (rest i : ℕ) : skethRequestIrqsLoop irq (rest + 1) d i =
      if irq i ≠ 0 then
        .ok ((List.range i).reverse.foldl (fun d j => d.release (.irq j)) d, irq i)
      else skethRequestIrqsLoop irq rest (d.acquire (.irq i)) (i + 1) := by
  simp only [skethRequestIrqsLoop, hmsix]

/-- The loop of `sketh_request_irqs` with the entries there: it requests all interrupts, or frees again
those that it got. -/
theorem skethRequestIrqsLoop_spec (irq : ℕ → ℤ) {vectors : ℕ → ℕ} (hmsix : d.msixEntries = some vectors)
    (rest i : ℕ) (base : SkethLedger) (hledger : d.ledger = irqsRequested i ++ base) :
    ∃ ledger err, skethRequestIrqsLoop irq rest d i = .ok ({ d with ledger := ledger }, err) ∧
      ((err = 0 ∧ (∀ q, i ≤ q → q < i + rest → irq q = 0) ∧ ledger = irqsRequested (i + rest) ++ base) ∨
        (err ≠ 0 ∧ (∃ q, i ≤ q ∧ q < i + rest ∧ irq q ≠ 0) ∧ ∃ n, ledger = irqsUndone n ++ base)) := by
  induction rest generalizing d i with
  | zero => exact ⟨_, 0, rfl, Or.inl ⟨rfl, fun q hq hlt => by omega, hledger⟩⟩
  | succ rest ih =>
    rw [skethRequestIrqsLoop_succ irq hmsix]
    by_cases hirq : irq i = 0
    · have hnext : (d.acquire (.irq i)).ledger = irqsRequested (i + 1) ++ base := by
        simp [acquire, irqsRequested, hledger, List.range_succ]
      obtain ⟨ledger, err, hloop, hcases⟩ := ih (d := d.acquire (.irq i)) hmsix (i + 1) hnext
      refine ⟨ledger, err, (if_neg (not_not.mpr hirq)).trans hloop, ?_⟩
      rw [show i + 1 + rest = i + (rest + 1) by omega] at hcases
      rcases hcases with ⟨herr, hall, heq⟩ | ⟨herr, ⟨q, hq, hlt, hne⟩, hundone⟩
      · refine Or.inl ⟨herr, fun q hq hlt => ?_, heq⟩
        rcases Nat.eq_or_lt_of_le hq with rfl | hq
        · exact hirq
        · exact hall q hq hlt
      · exact Or.inr ⟨herr, ⟨q, by omega, hlt, hne⟩, hundone⟩
    · refine ⟨_, irq i, (if_pos hirq).trans ?_, Or.inr ⟨hirq, ⟨i, Nat.le_refl i, by omega, hirq⟩, i, rfl⟩⟩
      rw [foldl_release]
      simp [irqsUndone, hledger]

/-- `sketh_request_irqs` faults exactly without `msix_entries`. -/
theorem skethRequestIrqs_spec (hqueues : 0 < d.numQueues) (irq : ℕ → ℤ) :
    Fallible (d.skethRequestIrqs irq) (d.msixEntries ≠ none) fun r =>
      ∃ ledger, r.1 = { d with ledger := ledger } ∧
        ((r.2 = 0 ∧ (∀ q : ℕ, (q : ℤ) < d.numQueues → irq q = 0) ∧
            ledger = irqsRequested d.numQueues.toNat ++ d.ledger) ∨
          (r.2 ≠ 0 ∧ (∃ q : ℕ, (q : ℤ) < d.numQueues ∧ irq q ≠ 0) ∧
            ∃ n, ledger = irqsUndone n ++ d.ledger)) := by
  obtain ⟨n, hn⟩ : ∃ n, d.numQueues.toNat = n + 1 := ⟨d.numQueues.toNat - 1, by omega⟩
  by_cases hnone : d.msixEntries = none
  · refine Or.inr ⟨not_not.mpr hnone, .msixEntries, ?_⟩
    rw [skethRequestIrqs, hn]
    simp only [skethRequestIrqsLoop, hnone]
  · obtain ⟨vectors, hmsix⟩ := Option.ne_none_iff_exists'.mp hnone
    obtain ⟨ledger, err, hloop, hcases⟩ :=
      skethRequestIrqsLoop_spec irq hmsix d.numQueues.toNat 0 d.ledger rfl
    refine Or.inl ⟨hnone, _, hloop, ledger, rfl, ?_⟩
    rw [Nat.zero_add] at hcases
    rcases hcases with ⟨herr, hall, heq⟩ | ⟨herr, ⟨q, -, hlt, hne⟩, hundone⟩
    · exact Or.inl ⟨herr, fun q hq => hall q (Nat.zero_le q) (by omega), heq⟩
    · exact Or.inr ⟨herr, ⟨q, by omega, hne⟩, hundone⟩

end Interrupts

section OpenStop

variable {d : SkethDev}

/-- An open finds its objects: the state bit turns it away, or `msix_entries` is there and, when all
interrupts are granted, no buffer is. -/
def OpenFinds (d : SkethDev) (env : OpenEnv) : Prop :=
  d.adapter.down = true ∨ (d.msixEntries ≠ none ∧
    ((∃ q : ℕ, (q : ℤ) < d.numQueues ∧ env.irq q ≠ 0) ∨ FirstAllocsFail d.numQueues env.alloc))

/-- The outcome of an open of a bare adapter: it holds all interrupts, or none of its own. -/
structure OpenOutcome (d : SkethDev) (env : OpenEnv) (r : SkethDev × ℤ) : Prop where
  framed : Framed d r.1
  bare : Bare r.1
  result : (r.2 = 0 ∧ d.adapter.down = false ∧ (∀ q : ℕ, (q : ℤ) < d.numQueues → env.irq q = 0) ∧
      r.1.ledger = irqsRequested d.numQueues.toNat ++ d.ledger) ∨
    (r.2 ≠ 0 ∧ (d.adapter.down = true ∨ ∃ q : ℕ, (q : ℤ) < d.numQueues ∧ env.irq q ≠ 0) ∧
      ∃ n, r.1.ledger = irqsUndone n ++ d.ledger)

/-- The ledger is no part of a bare adapter. -/
theorem Bare.withLedger (h : Bare d) (ledger : SkethLedger) : Bare { d with ledger := ledger } :=
  h.of_eq rfl rfl rfl h.log

/-- `sketh_open` on a bare adapter. -/
theorem Bare.skethOpen (h : Bare d) (env : OpenEnv) :
    Fallible (d.skethOpen env) (OpenFinds d env) (OpenOutcome d env) := by
  unfold SkethDev.skethOpen OpenFinds
  cases hdown : d.adapter.down with
  | true =>
    exact Or.inl ⟨Or.inl rfl, _, rfl, .refl d, h, Or.inr
      ⟨by simp [Errno.ebusy], Or.inl hdown, 0, rfl⟩⟩
  | false =>
    refine ((skethRequestIrqs_spec h.queues env.irq).bind
      ((∃ q : ℕ, (q : ℤ) < d.numQueues ∧ env.irq q ≠ 0) ∨ FirstAllocsFail d.numQueues env.alloc)
      ?_).mono (by simp) fun _ => id
    rintro ⟨t, err⟩ ⟨ledger, rfl, ⟨rfl, hall, rfl⟩ | ⟨herr, hsome, n, rfl⟩⟩
    · have hnone : ¬ ∃ q : ℕ, (q : ℤ) < d.numQueues ∧ env.irq q ≠ 0 :=
        fun ⟨q, hq, hne⟩ => hne (hall q hq)
      refine (((h.withLedger _).skethConfigure env.alloc).bind True ?_).mono (by simp [hnone])
        fun _ => id
      intro t ht
      refine Fallible.ok ⟨⟨ht.framed.bus, ht.framed.numQueues, ht.framed.msixEntries,
        ht.framed.devRegistered, hdown.symm⟩, ?_, Or.inl ⟨rfl, hdown, hall, ht.ledger⟩⟩
      exact ht.bare.of_eq rfl rfl rfl ht.bare.log
    · have houtcome : OpenOutcome d env ({ d with ledger := irqsUndone n ++ d.ledger }, err) :=
        ⟨⟨rfl, rfl, rfl, rfl, rfl⟩, h.withLedger _, Or.inr ⟨herr, Or.inr hsome, n, rfl⟩⟩
      exact Or.inl ⟨Or.inl hsome, _, if_pos herr, houtcome⟩

/-- `sketh_free_irqs` takes `msix_entries` away and touches nothing else but the ledger. -/
theorem skethFreeIrqs_eq (d : SkethDev) :
    ∃ ledger, d.skethFreeIrqs = { d with msixEntries := none, ledger := ledger } := by
  cases hmsix : d.msixEntries with
  | none =>
    refine ⟨d.ledger, ?_⟩
    have hsame : d.skethFreeIrqs = d := by simp only [skethFreeIrqs, hmsix]
    rw [hsame, ← hmsix]
  | some vector =>
    have hfold : ∀ (l : List ℕ) (t : SkethDev), ∃ ledger,
        l.foldl (fun d q => if vector q ≠ 0 then d.release (.irq q) else d) t =
          { t with ledger := ledger } := by
      intro l
      induction l with
      | nil => exact fun t => ⟨t.ledger, rfl⟩
      | cons q rest ih =>
        intro t
        rw [List.foldl_cons]
        split
        · obtain ⟨ledger, heq⟩ := ih (t.release (.irq q))
          exact ⟨ledger, heq⟩
        · exact ih t
    obtain ⟨ledger, heq⟩ := hfold d.queues d
    refine ⟨.release .msixEntries :: ledger, ?_⟩
    simp only [skethFreeIrqs, hmsix, heq]
    rfl

/-- On a bare adapter no queue has anything to free. -/
theorem Bare.skethStopQueue (h : Bare d) {q : ℕ} (hq : (q : ℤ) < d.numQueues) :
    d.skethStopQueue q = .ok d := by
  obtain ⟨tx, htx, -, htxDesc, -⟩ := h.txQueue hq
  obtain ⟨rx, hrx, -, hrxDesc, -⟩ := h.rxQueue hq
  simp [SkethDev.skethStopQueue, htx, hrx, htxDesc, hrxDesc, bind, Except.bind]

/-- `sketh_stop` on a bare adapter: the state bit is set and `msix_entries` is gone. -/
theorem Bare.skethStop (h : Bare d) :
    d.skethStop = .ok (d.setDown true).skethFreeIrqs ∧ Bare (d.setDown true).skethFreeIrqs := by
  obtain ⟨ledger, heq⟩ := skethFreeIrqs_eq (d.setDown true)
  have hbare : Bare (d.setDown true).skethFreeIrqs := by
    rw [heq]
    exact h.of_eq rfl rfl rfl h.log
  exact ⟨Fallible.foldlM_fixed fun q hq => hbare.skethStopQueue (mem_queues.mp hq), hbare⟩

end OpenStop

section Traffic

variable {d : SkethDev}

/-- A transmission finds its objects: the packet is dropped before the ring is touched. -/
def XmitFinds (d : SkethDev) (skb : SkBuff) (dma : Option ℕ) : Prop :=
  skb.len = 0 ∨ d.adapter.down = true ∨ (d.bus = .pci ∧ dma = none)

/-- A packet that is dropped is freed. -/
theorem Bare.dropped (h : Bare d) {skb : SkBuff} {dma : Option ℕ} (hdrop : XmitFinds d skb dma) :
    Kept d { d with adapter := Sketh.skethStartXmit d.adapter skb dma } := by
  have hposts : ¬ Posts d.adapter skb dma := by
    rintro ⟨hlen, hup, hmapped⟩
    rcases hdrop with hzero | hset | ⟨-, rfl⟩
    · exact hlen hzero
    · exact absurd (hup.symm.trans hset) (by simp)
    · exact absurd hmapped (by simp)
  obtain ⟨-, hlog, -, hdown⟩ := skethStartXmit_dropped d.adapter skb dma hposts
  refine ⟨⟨rfl, rfl, rfl, rfl, hdown⟩, h.of_eq rfl rfl rfl ?_, rfl⟩
  intro e he
  rw [hlog] at he
  rcases List.mem_cons.mp he with rfl | he
  · exact ⟨skb.id, rfl⟩
  · exact h.log e he

/-- `sketh_start_xmit` on a bare adapter faults on every packet that it does not drop. -/
theorem Bare.skethStartXmit (h : Bare d) (q : ℕ) (skb : SkBuff) (dma : Option ℕ) :
    Fallible (d.skethStartXmit q skb dma) (XmitFinds d skb dma) (Kept d) := by
  unfold SkethDev.skethStartXmit
  split
  · next hearly =>
    have hdrop : XmitFinds d skb dma := hearly.elim Or.inl fun hdown => Or.inr (Or.inl hdown)
    exact Or.inl ⟨hdrop, _, rfl, h.dropped hdrop⟩
  · next hearly =>
    obtain ⟨hlen, hdown⟩ := not_or.mp hearly
    split
    · next hbus =>
      refine Fallible.error _ ?_
      rintro (hzero | hset | ⟨hpci, -⟩)
      · exact hlen hzero
      · exact hdown hset
      · exact hbus hpci
    · next hbus =>
      split
      · next hnone =>
        have hdrop : XmitFinds d skb dma := Or.inr (Or.inr ⟨not_not.mp hbus, hnone⟩)
        exact Or.inl ⟨hdrop, _, rfl, h.dropped hdrop⟩
      · next hsome =>
        have hnot : ¬ XmitFinds d skb dma := by
          rintro (hzero | hset | ⟨-, hnone⟩)
          · exact hlen hzero
          · exact hdown hset
          · exact hsome hnone
        by_cases hq : (q : ℤ) < d.numQueues
        · obtain ⟨tx, htx, hbuffer, -⟩ := h.txQueue hq
          refine Or.inr ⟨hnot, .txBuffer, ?_⟩
          rw [htx]
          exact if_pos (by simp [hbuffer])
        · obtain ⟨rings, hrings, -⟩ := h.tx
          refine Or.inr ⟨hnot, .ring, ?_⟩
          simp only [SkethDev.txQueue, hrings, if_neg hq]
          rfl

/-- A packet is numbered before it is handed to the driver. -/
theorem Bare.startXmit_fresh (h : Bare d) (q : ℕ) (skb : SkBuff) (dma : Option ℕ) :
    Fallible ({ d with adapter := d.adapter.nextBuffer }.skethStartXmit q
      { skb with id := d.adapter.fresh } dma) (XmitFinds d skb dma) (Kept d) := by
  have hbare : Bare { d with adapter := d.adapter.nextBuffer } := h.of_eq rfl rfl rfl h.log
  refine (hbare.skethStartXmit q { skb with id := d.adapter.fresh } dma).mono Iff.rfl fun t ht => ?_
  exact ⟨⟨ht.framed.bus, ht.framed.numQueues, ht.framed.msixEntries, ht.framed.devRegistered,
    ht.framed.down⟩, ht.bare, ht.ledger⟩

/-- Without budget the receive ring is left alone. -/
theorem skethCleanRxRing_idle (a : SkethAdapter) {call : RxCall} (hbudget : call.budget % 2 ^ 32 = 0) :
    skethCleanRxRing a call.budget call.verdict call.outcome = (a, 0) := by
  rw [skethCleanRxRing, hbudget]
  rfl

/-- With nothing in flight the transmit ring is left alone. -/
theorem skethCleanTxRing_idle (a : SkethAdapter) (hidle : a.txRing.nextToClean = a.txRing.nextToUse) :
    skethCleanTxRing a = some a := by
  have hloop : skethCleanTxLoop a.txRing.count ⟨a, 0, 0⟩ a.txRing.nextToClean =
      some (⟨a, 0, 0⟩, a.txRing.nextToClean) := by
    cases a.txRing.count with
    | zero => exact if_pos hidle
    | succ n => exact if_pos hidle
  rw [skethCleanTxRing, hloop]
  rfl

/-- `sketh_napi_poll` on a bare adapter faults as soon as it has budget. -/
theorem Bare.skethNapiPoll (h : Bare d) {q : ℕ} (hq : (q : ℤ) < d.numQueues) (call : RxCall) :
    Fallible (d.skethNapiPoll q call) (call.budget % 2 ^ 32 = 0) (Kept d) := by
  obtain ⟨rx, hrx, hrxBuffer, hrxDesc, hxdp, hcount⟩ := h.rxQueue hq
  obtain ⟨tx, htx, htxBuffer, htxDesc, hidle⟩ := h.txQueue hq
  rw [SkethDev.skethNapiPoll, hrx]
  change Fallible (d.txQueue q >>= _) _ _
  rw [htx]
  change Fallible (if _ then _ else _) _ _
  by_cases hbudget : call.budget % 2 ^ 32 = 0
  · obtain ⟨report, hpoll⟩ : ∃ report, Sketh.skethNapiPoll (d.queuePair rx tx)
        d.msixEntries.isSome call = some (d.queuePair rx tx, report) := by
      simp only [Sketh.skethNapiPoll, skethCleanRxRing_idle _ hbudget]
      split
      · rw [skethCleanTxRing_idle _ hidle]
        exact ⟨_, rfl⟩
      · exact ⟨_, rfl⟩
    rw [if_neg (fun hc => hc.1 hbudget), if_neg (fun hc => hc.1 hbudget),
      if_neg (fun hc => hc.1.2 hidle), if_neg (fun hc => hc.1.2 hidle), hpoll]
    refine Or.inl ⟨hbudget, _, rfl, ⟨rfl, rfl, rfl, rfl, rfl⟩, ?_, rfl⟩
    have hrings : Bare ((d.setRxQueue q rx).setTxQueue q tx) :=
      (h.setRxQueue q hrxBuffer hrxDesc hxdp hcount).setTxQueue q htxBuffer htxDesc hidle
    exact hrings.of_eq rfl rfl rfl h.log
  · rw [if_pos ⟨hbudget, hrxBuffer⟩]
    exact Fallible.error _ hbudget

end Traffic

end SkethDev

end LinuxFunctionTest.Sketh
