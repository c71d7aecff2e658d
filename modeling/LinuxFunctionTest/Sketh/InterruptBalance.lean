import LinuxFunctionTest.Sketh.ReceiveRefill
import LinuxFunctionTest.Sketh.ReceiveFrames

/-!
# The interrupt of a queue

Runs of `sketh_msix_ring` and `sketh_napi_poll` with the depth to which the vector of the queue is disabled. The
handler only schedules the poll: nothing calls `sketh_disable_irq`. A poll that completes with different ring
indices enables the vector all the same. The indices differ unless the ring is left empty or full, so a run is
balanced exactly when every poll that empties the ring replaces none of the buffers or fills the ring.
-/

namespace LinuxFunctionTest.Sketh

/-- An interrupt vector: how often it is disabled, and how many calls of `enable_irq` met an enabled vector. -/
structure IrqVector where
  depth : ℕ
  unmatched : ℕ
  deriving DecidableEq

/-- `disable_irq`. -/
def IrqVector.disable (v : IrqVector) : IrqVector := { v with depth := v.depth + 1 }

/-- `enable_irq`, which warns about an enabled vector and leaves it enabled. -/
def IrqVector.enable (v : IrqVector) : IrqVector :=
  match v.depth with
  | 0 => { v with unmatched := v.unmatched + 1 }
  | depth + 1 => { v with depth := depth }

/-- A queue with its vector; `scheduled` is `NAPI_STATE_SCHED`. -/
structure QueueIrq where
  adapter : SkethAdapter
  msixEntries : Bool
  scheduled : Bool
  vector : IrqVector

/-- `sketh_enable_irq`. -/
def skethEnableIrq (q : QueueIrq) : QueueIrq :=
  if q.msixEntries then { q with vector := q.vector.enable } else q

/-- `sketh_disable_irq`, which no path of the driver calls. -/
def skethDisableIrq (q : QueueIrq) : QueueIrq :=
  if q.msixEntries then { q with vector := q.vector.disable } else q

/-- `sketh_msix_ring`. -/
def skethMsixRing (q : QueueIrq) : QueueIrq := { q with scheduled := true }

/-- What a poll does to the queue besides the rings: it completes NAPI and enables the vector. -/
def QueueIrq.polled (q : QueueIrq) (a : SkethAdapter) (p : NapiPoll) : QueueIrq :=
  let q := { q with adapter := a, scheduled := q.scheduled && !p.completed }
  if p.irqEnabled then skethEnableIrq q else q

/-- The vector raises an interrupt, or the kernel polls. -/
inductive IrqStep where
  | interrupt
  | poll (call : RxCall)

/-- The runs of interrupts and polls. A vector that is disabled raises no interrupt, and a budget is an `int`. -/
def irqMachine : Machine QueueIrq IrqStep where
  step q
    | .interrupt => if q.vector.depth = 0 then some (skethMsixRing q) else none
    | .poll call =>
      if -2 ^ 31 ≤ call.budget ∧ call.budget < 2 ^ 31 then
        (skethNapiPoll q.adapter q.msixEntries call).map fun r => q.polled r.1 r.2
      else none

/-- A queue pair that was set up, with its vector requested. -/
def irqSetup (a : SkethAdapter) (msixEntries : Bool) (rxCount txCount : ℕ) (fill : ℕ → RxAlloc) :
    QueueIrq where
  adapter := (napiSetup a msixEntries rxCount txCount fill).adapter
  msixEntries := msixEntries
  scheduled := false
  vector := ⟨0, 0⟩

/-- Every `enable_irq` met a disabled vector, and once NAPI is complete the vector is enabled. -/
def IrqBalanced (q : QueueIrq) : Prop :=
  q.vector.unmatched = 0 ∧ (q.scheduled = false → q.vector.depth = 0)

/-- With MSI-X, a poll whose budget is more than the buffers in the ring replaces none of them, or so many
that the ring is full. -/
def NoneOrAllReplaced (q : QueueIrq) : IrqStep → Prop
  | .interrupt => True
  | .poll call => q.msixEntries = true → (q.adapter.rxOccupancy : ℤ) < call.budget →
      rxRefilled q.adapter.rxOccupancy call.outcome = 0 ∨
        rxRefilled q.adapter.rxOccupancy call.outcome = q.adapter.rxRing.count

/-- An enabled vector is as it was after a call of `sketh_disable_irq` and one of `sketh_enable_irq`. -/
theorem skethEnableIrq_skethDisableIrq (q : QueueIrq) : skethEnableIrq (skethDisableIrq q) = q := by
  obtain ⟨adapter, msixEntries, scheduled, vector⟩ := q
  cases msixEntries <;> rfl

section TxIdle

variable {a : SkethAdapter}

/-- No TX slot holds a buffer. The frames of `sketh_xdp_tx` have none. -/
def TxIdle (a : SkethAdapter) : Prop := ∀ i, a.txSlot i = none

/-- The same TX ring. -/
theorem TxIdle.congr {b : SkethAdapter} (h : TxIdle a) (hring : b.txRing = a.txRing) : TxIdle b := by
  intro i
  rw [SkethAdapter.txSlot, hring]
  exact h i

/-- `sketh_receive_skb` stores no buffer in the TX ring. -/
theorem skethReceiveSkb_txIdle (h : TxIdle a) (id length : ℕ) (v : RxVerdict) :
    TxIdle (skethReceiveSkb a id length v) := by
  obtain ⟨drops, heq⟩ | heq | ⟨redirect, drops, heq⟩ := skethReceiveSkb_cases a id length v
  · rw [heq]
    exact h
  · rw [heq]
    cases v.txDma with
    | none => exact h
    | some dma =>
      intro i
      by_cases hi : i = a.txRing.nextToUse
      · subst hi
        simpa [xdpTxVerdict, skethXdpTx, SkethAdapter.txSlot, SkethAdapter.kfreeSkb, SkethAdapter.emit,
          SkethAdapter.setTxBuffer, SkethAdapter.advanceTxUse] using h a.txRing.nextToUse
      · simpa [xdpTxVerdict, skethXdpTx, SkethAdapter.txSlot, SkethAdapter.kfreeSkb, SkethAdapter.emit,
          SkethAdapter.setTxBuffer, SkethAdapter.advanceTxUse, hi] using h i
  · rw [heq]
    exact h

/-- The receive loop stores no buffer in the TX ring. -/
theorem skethCleanRxLoop_txIdle (remaining : ℕ) (verdict : ℕ → RxVerdict) {c : RxCleaning}
    (h : TxIdle c.adapter) : TxIdle (skethCleanRxLoop remaining verdict c).adapter := by
  refine skethCleanRxLoop_keeps (P := fun c => TxIdle c.adapter) (fun c id v h => ?_) remaining verdict h
  exact skethReceiveSkb_txIdle (a := (c.adapter.emit _).setRxBuffer _ .empty) h id _ v

/-- `sketh_clean_rx_ring` stores no buffer in the TX ring. -/
theorem skethCleanRxRing_txIdle (h : TxIdle a) (call : RxCall) :
    TxIdle (skethCleanRxRing a call.budget call.verdict call.outcome).1 := by
  have hloop := skethCleanRxLoop_txIdle (call.budget % 2 ^ 32).toNat call.verdict (c := ⟨a, 0, 0, 0⟩) h
  unfold skethCleanRxRing
  simp only
  split
  · refine hloop.congr ?_
    exact skethAllocRxLoop_txRing _ _ _
  · exact hloop

/-- Cleaning a TX ring without buffers leaves the RX ring ready and frees nothing. -/
theorem skethCleanTxLoop_idle (fuel i : ℕ) {c d : TxCleaning} {j occ : ℕ} (h : TxIdle c.adapter)
    (hready : RxReady c.adapter occ) (hd : skethCleanTxLoop fuel c i = some (d, j)) :
    TxIdle d.adapter ∧ RxReady d.adapter occ ∧ d.adapter.rxRing = c.adapter.rxRing := by
  induction fuel generalizing c i with
  | zero =>
    unfold skethCleanTxLoop at hd
    obtain ⟨-, hd⟩ := Option.ite_none_right_eq_some.mp hd
    obtain ⟨rfl, -⟩ := Prod.mk.inj (Option.some.inj hd)
    exact ⟨h, hready, rfl⟩
  | succ fuel ih =>
    unfold skethCleanTxLoop at hd
    by_cases hi : i = c.adapter.txRing.nextToUse
    · rw [if_pos hi] at hd
      obtain ⟨rfl, -⟩ := Prod.mk.inj (Option.some.inj hd)
      exact ⟨h, hready, rfl⟩
    · rw [if_neg hi] at hd
      have hslot : cleanTxSlot c i = { c with adapter := c.adapter.emit (.txPass i) } := by
        unfold cleanTxSlot
        rw [h i]
      have hpass : RxReady (c.adapter.emit (.txPass i)) occ := by
        refine ⟨?_, hready.2⟩
        exact
          { pow := hready.1.pow
            window := hready.1.window
            inRange := hready.1.inRange
            conserved := hready.1.conserved
            recorded := hready.1.recorded
            stored_lt := hready.1.stored_lt
            taken_lt := hready.1.taken_lt
            empty := fun j id old hmem =>
              hready.1.empty j id old (by simpa [SkethAdapter.emit] using hmem) }
      rw [hslot] at hd
      exact ih _ (c := { c with adapter := c.adapter.emit (.txPass i) }) h hpass hd

/-- `sketh_clean_tx_ring` on a TX ring without buffers leaves the RX ring ready. -/
theorem skethCleanTxRing_ready {b : SkethAdapter} {occ : ℕ} (h : TxIdle a) (hready : RxReady a occ)
    (hb : skethCleanTxRing a = some b) : TxIdle b ∧ RxReady b occ := by
  obtain ⟨⟨d, j⟩, hloop, rfl⟩ := Option.map_eq_some_iff.mp hb
  obtain ⟨hidle, hrx, -⟩ := skethCleanTxLoop_idle a.txRing.count a.txRing.nextToClean
    (c := ⟨a, 0, 0⟩) h hready hloop
  simp only
  split <;> exact ⟨hidle, hrx.1.congr rfl rfl rfl rfl rfl, hrx.2⟩

end TxIdle

section Polls

variable {a : SkethAdapter} {occ : ℕ}

/-- Between calls the indices of the RX ring are equal exactly when the ring is empty or full. -/
theorem RxReady.indices_ne_iff (h : RxReady a occ) :
    a.rxRing.nextToUse ≠ a.rxRing.nextToClean ↔ occ ≠ 0 ∧ occ ≠ a.rxRing.count := by
  have hstart := h.1.window.start_lt
  have hle := h.1.window.le
  rw [h.2]
  constructor
  · intro hne
    refine ⟨fun hzero => hne ?_, fun hfull => hne ?_⟩
    · rw [hzero, Cyclic.shift_zero hstart]
    · rw [hfull, Cyclic.shift, Nat.add_mod_right, Nat.mod_eq_of_lt hstart]
  · rintro ⟨hzero, hfull⟩
    exact Cyclic.shift_ne hstart (Nat.pos_of_ne_zero hzero) (lt_of_le_of_ne hle hfull)

/-- The receive loop counts as packets what it cleans. -/
theorem skethCleanRxLoop_cleaned (remaining : ℕ) (verdict : ℕ → RxVerdict) {c : RxCleaning}
    (h : c.totalPackets = c.cleaned) :
    (skethCleanRxLoop remaining verdict c).totalPackets = (skethCleanRxLoop remaining verdict c).cleaned :=
  skethCleanRxLoop_keeps (P := fun c => c.totalPackets = c.cleaned) (fun _ _ _ h => congrArg (· + 1) h)
    remaining verdict h

/-- A poll takes as many buffers as the ring holds and the budget allows. -/
theorem skethCleanRxRing_workDone (h : RxReady a occ) (call : RxCall) :
    (skethCleanRxRing a call.budget call.verdict call.outcome).2 =
      min (call.budget % 2 ^ 32).toNat occ := by
  obtain ⟨-, -, hcleaned⟩ :=
    skethCleanRxLoop_inv (c := ⟨a, 0, 0, 0⟩) (call.budget % 2 ^ 32).toNat call.verdict h
  have hpackets := skethCleanRxLoop_cleaned (call.budget % 2 ^ 32).toNat call.verdict
    (c := ⟨a, 0, 0, 0⟩) rfl
  rw [hcleaned, Nat.zero_add] at hpackets
  exact hpackets

/-- What is in a ready ring and in an idle TX ring after a poll, and when the poll enables the vector. -/
theorem skethNapiPoll_ready {b : SkethAdapter} {p : NapiPoll} {msixEntries : Bool} {call : RxCall}
    (h : RxReady a occ) (hidle : TxIdle a) (hint : -2 ^ 31 ≤ call.budget ∧ call.budget < 2 ^ 31)
    (hpoll : skethNapiPoll a msixEntries call = some (b, p)) :
    (TxIdle b ∧ ∃ occ', RxReady b occ') ∧
      (p.irqEnabled = true ↔ msixEntries = true ∧ (occ : ℤ) < call.budget ∧
        rxRefilled occ call.outcome ≠ 0 ∧ rxRefilled occ call.outcome ≠ a.rxRing.count) := by
  obtain ⟨hready, hcount⟩ := skethCleanRxRing_ready h call.budget call.verdict call.outcome
  have hwork := skethCleanRxRing_workDone h call
  have hidle' := skethCleanRxRing_txIdle hidle call
  have hindices := hready.indices_ne_iff
  unfold skethNapiPoll at hpoll
  generalize skethCleanRxRing a call.budget call.verdict call.outcome = r at *
  obtain ⟨c, hc, heq⟩ := Option.map_eq_some_iff.mp hpoll
  obtain ⟨rfl, rfl⟩ := Prod.mk.inj heq
  constructor
  · by_cases hbudget : 0 < call.budget
    · rw [if_pos hbudget] at hc
      obtain ⟨htx, hrx⟩ := skethCleanTxRing_ready hidle' hready hc
      exact ⟨htx, _, hrx⟩
    · rw [if_neg hbudget] at hc
      obtain rfl := Option.some.inj hc
      exact ⟨hidle', _, hready⟩
  · -- a budget that the buffers do not use up is the number of passes the loop may take
    have hall : (occ : ℤ) < call.budget →
        occ - (call.budget % 2 ^ 32).toNat + rxRefilled (min (call.budget % 2 ^ 32).toNat occ) call.outcome =
          rxRefilled occ call.outcome := by
      intro hlt
      have hmin : min (call.budget % 2 ^ 32).toNat occ = occ := by omega
      rw [hmin]
      omega
    have hcomplete : (r.2 : ℤ) < call.budget ↔ (occ : ℤ) < call.budget := by
      rw [hwork]
      omega
    simp only [Bool.and_eq_true, decide_eq_true_eq, hcomplete, hindices, hcount]
    constructor
    · rintro ⟨⟨⟨hzero, hfull⟩, hlt⟩, hentries⟩
      rw [hall hlt] at hzero hfull
      exact ⟨hentries, hlt, hzero, hfull⟩
    · rintro ⟨hentries, hlt, hzero, hfull⟩
      rw [hall hlt]
      exact ⟨⟨⟨hzero, hfull⟩, hlt⟩, hentries⟩

end Polls

section Runs

/-- The invariant of the balanced runs: the vector was never touched. -/
structure IrqUntouched (q : QueueIrq) : Prop where
  ready : ∃ occ, RxReady q.adapter occ
  idle : TxIdle q.adapter
  vector : q.vector = ⟨0, 0⟩

/-- What a poll does to the vector: it enables it, or not. -/
theorem polled_vector (q : QueueIrq) (a : SkethAdapter) (p : NapiPoll) :
    (q.polled a p).adapter = a ∧
      (q.polled a p).vector = if p.irqEnabled && q.msixEntries then q.vector.enable else q.vector := by
  unfold QueueIrq.polled skethEnableIrq
  cases p.irqEnabled <;> cases q.msixEntries <;> simp

/-- When a poll enables the vector, in terms of the state before it. -/
theorem irqMachine_poll {q t : QueueIrq} {call : RxCall} (h : IrqUntouched q)
    (hstep : irqMachine.step q (.poll call) = some t) :
    ((∃ occ, RxReady t.adapter occ) ∧ TxIdle t.adapter) ∧
      (NoneOrAllReplaced q (.poll call) → t.vector = ⟨0, 0⟩) ∧
      (¬ NoneOrAllReplaced q (.poll call) → t.vector = ⟨0, 1⟩) := by
  obtain ⟨hint, hstep⟩ := Option.ite_none_right_eq_some.mp hstep
  obtain ⟨⟨b, p⟩, hpoll, rfl⟩ := Option.map_eq_some_iff.mp hstep
  obtain ⟨occ, hready⟩ := h.ready
  obtain ⟨⟨hidle, hrx⟩, henabled⟩ := skethNapiPoll_ready hready h.idle hint hpoll
  obtain ⟨hadapter, hvector⟩ := polled_vector q b p
  have hguard : NoneOrAllReplaced q (.poll call) ↔ (p.irqEnabled && q.msixEntries) = false := by
    rw [← Bool.not_eq_true, Bool.and_eq_true, henabled, NoneOrAllReplaced, hready.rxOccupancy]
    tauto
  refine ⟨⟨hadapter.symm ▸ hrx, hadapter.symm ▸ hidle⟩, fun hall => ?_, fun hsome => ?_⟩
  · rw [hvector, hguard.mp hall, h.vector]
    rfl
  · rw [hguard, Bool.not_eq_false] at hsome
    rw [hvector, hsome, h.vector]
    rfl

/-- A step that replaces none or all leaves the vector untouched. -/
theorem irqMachine_step_untouched {q t : QueueIrq} {label : IrqStep} (h : IrqUntouched q)
    (hstep : irqMachine.step q label = some t) (hguard : NoneOrAllReplaced q label) :
    IrqUntouched t := by
  cases label with
  | interrupt =>
    obtain ⟨-, hstep⟩ := Option.ite_none_right_eq_some.mp hstep
    obtain rfl := Option.some.inj hstep
    exact ⟨h.ready, h.idle, h.vector⟩
  | poll call =>
    obtain ⟨⟨hready, hidle⟩, hvector, -⟩ := irqMachine_poll h hstep
    exact ⟨hready, hidle, hvector hguard⟩

/-- A poll that replaces some and not all enables a vector that nobody disabled. -/
theorem irqMachine_step_unmatched {q t : QueueIrq} {label : IrqStep} (h : IrqUntouched q)
    (hstep : irqMachine.step q label = some t) (hguard : ¬ NoneOrAllReplaced q label) :
    ¬ IrqBalanced t := by
  cases label with
  | interrupt => exact absurd trivial hguard
  | poll call =>
    obtain ⟨-, -, hvector⟩ := irqMachine_poll h hstep
    intro hbalanced
    have hmatched := hbalanced.1
    rw [hvector hguard] at hmatched
    exact absurd hmatched (by decide)

/-- A queue that was set up has its vector untouched. -/
theorem irqSetup_untouched (a : SkethAdapter) (msixEntries : Bool) {k : ℕ} (hk : k ≤ 15) (txCount : ℕ)
    (fill : ℕ → RxAlloc) : IrqUntouched (irqSetup a msixEntries (2 ^ k) txCount fill) := by
  refine ⟨⟨_, (rxSetup_ready _ hk fill).1⟩, fun i => ?_, rfl⟩
  have hring : (irqSetup a msixEntries (2 ^ k) txCount fill).adapter.txRing =
      skethSetupTxResources txCount := skethAllocRxLoop_txRing _ _ _
  rw [SkethAdapter.txSlot, hring]
  rfl

/-- Along every run of interrupts and polls of a queue, every `enable_irq` has a `disable_irq` before it and a
poll that completes leaves the vector enabled, exactly when every poll that empties the ring within its
budget replaces none of the buffers or fills the ring. -/
theorem irqBalanced_iff_noneOrAllReplaced (a : SkethAdapter) (msixEntries : Bool) {k : ℕ} (hk : k ≤ 15)
    (txCount : ℕ) (fill : ℕ → RxAlloc) (steps : List IrqStep) :
    irqMachine.Always IrqBalanced (irqSetup a msixEntries (2 ^ k) txCount fill) steps ↔
      irqMachine.Guarded NoneOrAllReplaced (irqSetup a msixEntries (2 ^ k) txCount fill) steps := by
  refine irqMachine.always_iff_guarded (fun q (h : IrqUntouched q) => ?_)
    (fun _ _ _ h hstep hguard => irqMachine_step_untouched h hstep hguard)
    (fun _ _ _ h hstep hguard => irqMachine_step_unmatched h hstep hguard)
    (irqSetup_untouched a msixEntries hk txCount fill) steps
  rw [IrqBalanced, h.vector]
  exact ⟨rfl, fun _ => rfl⟩

/-- A ring of 512 slots that could not be filled at first, an interrupt, and a poll with a budget of 64. -/
theorem irqBalanced_iff_noneOrAllReplaced_short :
    irqMachine.Always IrqBalanced (irqSetup skethProbed true (2 ^ 9) 512 fun _ => .noSkb)
        [.interrupt, .poll ⟨64, fun _ => ⟨.pass, none, false, false⟩, RxAlloc.mapped⟩] ↔
      irqMachine.Guarded NoneOrAllReplaced (irqSetup skethProbed true (2 ^ 9) 512 fun _ => .noSkb)
        [.interrupt, .poll ⟨64, fun _ => ⟨.pass, none, false, false⟩, RxAlloc.mapped⟩] :=
  irqBalanced_iff_noneOrAllReplaced skethProbed true (by decide) 512 _ _

/-- A ring of 512 slots, one of which was filled, an interrupt, and a poll with a budget of 64 that replaces
the buffer it takes. -/
theorem irqBalanced_unmatched : ¬ irqMachine.Always IrqBalanced
    (irqSetup skethProbed true 512 512 fun n => if n = 0 then .mapped 4096 else .noSkb)
    [.interrupt, .poll ⟨64, fun _ => ⟨.pass, none, false, false⟩, RxAlloc.mapped⟩] := by
  intro h
  have hbalanced := h.of_reached irqMachine (List.prefix_refl _) rfl
  exact absurd hbalanced.1 (by decide)

/-- Polls return and interrupts can come, in every state of every run in which the vector is enabled. -/
theorem irqMachine_total (a : SkethAdapter) (msixEntries : Bool) (rxCount : ℕ) {m : ℕ} (hm : m ≤ 15)
    (fill : ℕ → RxAlloc) (steps : List IrqStep) :
    irqMachine.Always (fun q => ∀ call : RxCall, -2 ^ 31 ≤ call.budget → call.budget < 2 ^ 31 →
        (irqMachine.step q (.poll call)).isSome)
      (irqSetup a msixEntries rxCount (2 ^ m) fill) steps := by
  have hinit : (irqSetup a msixEntries rxCount (2 ^ m) fill).adapter.txRing.Formed := by
    change (skethAllocRxLoop _ _ _ _).1.txRing.Formed
    rw [skethAllocRxLoop_txRing]
    exact skethSetupTxResources_formed hm
  have hstep : ∀ q label t, q.adapter.txRing.Formed → irqMachine.step q label = some t →
      t.adapter.txRing.Formed := by
    intro q label t hq ht
    cases label with
    | interrupt =>
      obtain ⟨-, ht⟩ := Option.ite_none_right_eq_some.mp ht
      exact Option.some.inj ht ▸ hq
    | poll call =>
      obtain ⟨-, ht⟩ := Option.ite_none_right_eq_some.mp ht
      obtain ⟨r, hr, hformed⟩ := skethNapiPoll_returns hq q.msixEntries call
      rw [hr] at ht
      obtain rfl := Option.some.inj ht
      exact (polled_vector q r.1 r.2).1.symm ▸ hformed
  refine (irqMachine.always_of_step hstep hinit steps).mono _ fun q hq call hlow hhigh => ?_
  obtain ⟨r, hr, -⟩ := skethNapiPoll_returns hq q.msixEntries call
  simp only [irqMachine, if_pos (And.intro hlow hhigh), hr, Option.map_some, Option.isSome_some]

end Runs

end LinuxFunctionTest.Sketh
