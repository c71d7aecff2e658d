import LinuxFunctionTest.Sketh.ReceiveConservation

/-!
# Frames handed to the receive path

`sketh_napi_poll` on a queue pair whose RX ring was set up and filled, with a device that completes RX
descriptors at any time. The driver writes no RX descriptor and reads neither the length nor the status
the device reports there: the receive loop takes every slot that holds a buffer, with a length made from
the MTU. So what the device does reaches only the observation, and a poll that takes a slot at all
delivers a frame that nobody wrote.
-/

namespace LinuxFunctionTest.Sketh

/-- A call of `sketh_receive_skb`: the slot the buffer came from, the buffer, its mapping, and the
length. -/
structure Delivery where
  slot : ℕ
  id : ℕ
  dma : ℕ
  length : ℕ
  deriving DecidableEq

/-- What happens to the RX descriptors and slots: the driver writes the address of a buffer into a
descriptor, the device completes a descriptor with a length, the driver delivers a buffer. -/
inductive RxFrameEvent where
  | give (slot dma : ℕ)
  | complete (slot length : ℕ)
  | deliver (d : Delivery)
  deriving DecidableEq

/-- The calls of `sketh_receive_skb` that `skethCleanRxLoop` makes, in order. -/
def rxDeliveries : ℕ → (ℕ → RxVerdict) → RxCleaning → List Delivery
  | 0, _, _ => []
  | remaining + 1, verdict, c =>
    let a := c.adapter
    let i := a.rxRing.nextToClean
    match a.rxSlot i with
    | none => []
    | some id => ⟨i, id, (a.rxRing.rxBuffer i).dma, a.rxLength⟩ ::
        rxDeliveries remaining (fun n => verdict (n + 1)) (cleanRxSlot c id (verdict 0))

/-- What a poll reports: its return value, whether it called `napi_complete_done`, and whether
`sketh_enable_irq` enabled the interrupt. -/
structure NapiPoll where
  workDone : ℕ
  completed : Bool
  irqEnabled : Bool
  deriving DecidableEq

/-- `sketh_napi_poll` behind `rx_polls++`; `none` when the cleaning of the TX ring does not return. -/
def skethNapiPoll (a : SkethAdapter) (msixEntries : Bool) (call : RxCall) :
    Option (SkethAdapter × NapiPoll) :=
  let (a, workDone) := skethCleanRxRing a call.budget call.verdict call.outcome
  let completed := decide ((workDone : ℤ) < call.budget)
  let irqEnabled := a.rxRing.nextToUse ≠ a.rxRing.nextToClean && completed && msixEntries
  (if 0 < call.budget then skethCleanTxRing a else some a).map fun a =>
    (a, ⟨workDone, completed, irqEnabled⟩)

/-- A queue pair under polling. Observed: the frame events, newest first. -/
structure SkethNapi where
  adapter : SkethAdapter
  msixEntries : Bool
  rxPolls : UInt64
  frames : List RxFrameEvent

/-- A step: the device completes a descriptor, or the kernel polls. -/
inductive NapiStep where
  | complete (slot length : ℕ)
  | poll (call : RxCall)

/-- The deliveries of a poll. -/
def SkethNapi.deliveries (s : SkethNapi) (call : RxCall) : List Delivery :=
  rxDeliveries (call.budget % 2 ^ 32).toNat call.verdict ⟨s.adapter, 0, 0, 0⟩

/-- Runs of polls with the device working in between. -/
def napiMachine : Machine SkethNapi NapiStep where
  step s
    | .complete slot length => some { s with frames := .complete slot length :: s.frames }
    | .poll call =>
      (skethNapiPoll s.adapter s.msixEntries call).map fun (a, _) =>
        { s with
          adapter := a
          rxPolls := s.rxPolls + 1
          frames := ((s.deliveries call).map .deliver).reverse ++ s.frames }

/-- Both rings of a queue pair set up, the RX ring filled by `sketh_alloc_rx_buffers`. -/
def napiSetup (a : SkethAdapter) (msixEntries : Bool) (rxCount txCount : ℕ) (fill : ℕ → RxAlloc) :
    SkethNapi where
  adapter := rxSetup { a with txRing := skethSetupTxResources txCount } rxCount fill
  msixEntries := msixEntries
  rxPolls := 0
  frames := []

/-- The address in descriptor `i` that the driver wrote for the buffer now in the slot. -/
def given : List RxFrameEvent → ℕ → Option ℕ
  | [], _ => none
  | .give slot dma :: log, i => if slot = i then some dma else given log i
  | .complete _ _ :: log, i => given log i
  | .deliver d :: log, i => if d.slot = i then none else given log i

/-- What the device has reported of slot `i` since the buffer in it was given: its address and the
length. -/
def reported : List RxFrameEvent → ℕ → Option (ℕ × ℕ)
  | [], _ => none
  | .give slot _ :: log, i => if slot = i then none else reported log i
  | .complete slot length :: log, i =>
    if slot = i then (given log i).map fun dma => (dma, length) else reported log i
  | .deliver d :: log, i => if d.slot = i then none else reported log i

/-- Every buffer delivered was given and completed, and its length is the one reported. -/
def FramesWritten : List RxFrameEvent → Prop
  | [] => True
  | .deliver d :: log => reported log d.slot = some (d.dma, d.length) ∧ FramesWritten log
  | .give _ _ :: log => FramesWritten log
  | .complete _ _ :: log => FramesWritten log

/-- A poll on a ring with no completed descriptor delivers nothing. -/
def QuietPoll (s : SkethNapi) : NapiStep → Prop
  | .poll call => (∀ i, reported s.frames i = none) → s.deliveries call = []
  | .complete _ _ => True

/-- The poll has no budget, or finds the slot at `next_to_clean` empty. -/
def NothingToTake (s : SkethNapi) : NapiStep → Prop
  | .poll call => call.budget % 2 ^ 32 = 0 ∨ s.adapter.rxSlot s.adapter.rxRing.nextToClean = none
  | .complete _ _ => True

/-- The invariant of all runs that deliver nothing: no descriptor was written. -/
def NothingGiven (log : List RxFrameEvent) : Prop := ∀ slot dma, RxFrameEvent.give slot dma ∉ log

section Deliveries

variable {c : RxCleaning}

/-- `sketh_receive_skb` hands the stack at most the buffer it was given, with that length. -/
theorem skethReceiveSkb_netifReceive {a : SkethAdapter} {x length : ℕ} {v : RxVerdict} {id len : ℕ}
    (h : SkethEvent.netifReceive id len ∈ (skethReceiveSkb a x length v).log) :
    SkethEvent.netifReceive id len ∈ a.log ∨ (x = id ∧ length = len) := by
  obtain ⟨drops, heq⟩ | heq | ⟨redirect, drops, heq⟩ := skethReceiveSkb_cases a x length v
  · rw [heq] at h
    rcases List.mem_cons.mp h with hevent | hmem
    · obtain ⟨rfl, rfl⟩ := SkethEvent.netifReceive.inj hevent
      exact Or.inr ⟨rfl, rfl⟩
    · exact Or.inl hmem
  · rw [heq] at h
    cases hdma : v.txDma <;>
      simpa [xdpTxVerdict, skethXdpTx, hdma, SkethAdapter.setTxBuffer, SkethAdapter.advanceTxUse]
        using Or.inl h
  · rw [heq] at h
    simpa using Or.inl h

/-- The receive loop counts its deliveries. -/
theorem skethCleanRxLoop_totalPackets (remaining : ℕ) (verdict : ℕ → RxVerdict) :
    (skethCleanRxLoop remaining verdict c).totalPackets =
      c.totalPackets + (rxDeliveries remaining verdict c).length := by
  induction remaining generalizing c verdict with
  | zero => rfl
  | succ n ih =>
    unfold skethCleanRxLoop rxDeliveries
    cases hid : c.adapter.rxSlot c.adapter.rxRing.nextToClean with
    | none => simp only [hid, List.length_nil, Nat.add_zero]
    | some id =>
      simp only [hid, List.length_cons]
      rw [ih]
      change c.totalPackets + 1 + _ = _
      omega

/-- A frame the stack received was delivered, with the length it was delivered with. -/
theorem skethCleanRxLoop_netifReceive (remaining : ℕ) (verdict : ℕ → RxVerdict) {id len : ℕ}
    (h : SkethEvent.netifReceive id len ∈ (skethCleanRxLoop remaining verdict c).adapter.log) :
    SkethEvent.netifReceive id len ∈ c.adapter.log ∨
      ∃ d ∈ rxDeliveries remaining verdict c, d.id = id ∧ d.length = len := by
  induction remaining generalizing c verdict with
  | zero => exact Or.inl h
  | succ n ih =>
    unfold skethCleanRxLoop at h
    unfold rxDeliveries
    cases hid : c.adapter.rxSlot c.adapter.rxRing.nextToClean with
    | none =>
      simp only [hid] at h
      exact Or.inl h
    | some x =>
      simp only [hid] at h ⊢
      rcases ih _ h with hbody | ⟨d, hd, heq⟩
      · rcases skethReceiveSkb_netifReceive hbody with hold | ⟨hx, hlen⟩
        · refine Or.inl ?_
          simpa [SkethAdapter.setRxBuffer] using hold
        · exact Or.inr ⟨_, List.mem_cons_self, hx, hlen⟩
      · exact Or.inr ⟨d, List.mem_cons_of_mem _ hd, heq⟩

/-- A poll delivers nothing exactly when there is nothing to take. -/
theorem deliveries_eq_nil_iff (s : SkethNapi) (call : RxCall) :
    s.deliveries call = [] ↔ NothingToTake s (.poll call) := by
  have hnat : (call.budget % 2 ^ 32).toNat = 0 ↔ call.budget % 2 ^ 32 = 0 := by omega
  change rxDeliveries _ _ _ = [] ↔ _ ∨ _
  rw [← hnat]
  cases (call.budget % 2 ^ 32).toNat with
  | zero => simp [rxDeliveries]
  | succ n =>
    unfold rxDeliveries
    cases hid : s.adapter.rxSlot s.adapter.rxRing.nextToClean with
    | none => simp [hid]
    | some id => simp [hid]

end Deliveries

section Frames

variable {log : List RxFrameEvent}

/-- Without a write to a descriptor no buffer was given. -/
theorem NothingGiven.given (h : NothingGiven log) (i : ℕ) : given log i = none := by
  induction log with
  | nil => rfl
  | cons e log ih =>
    have hrest := ih fun slot dma hmem => h slot dma (List.mem_cons_of_mem e hmem)
    cases e with
    | give slot dma => exact absurd List.mem_cons_self (h slot dma)
    | complete slot length => exact hrest
    | deliver d =>
      unfold Sketh.given
      split
      · rfl
      · exact hrest

/-- Without a write to a descriptor no completion is of a buffer that was given. -/
theorem NothingGiven.reported (h : NothingGiven log) (i : ℕ) : reported log i = none := by
  induction log with
  | nil => rfl
  | cons e log ih =>
    have hlog : NothingGiven log := fun slot dma hmem => h slot dma (List.mem_cons_of_mem e hmem)
    cases e with
    | give slot dma => exact absurd List.mem_cons_self (h slot dma)
    | complete slot length =>
      unfold Sketh.reported
      rw [hlog.given]
      split
      · rfl
      · exact ih hlog
    | deliver d =>
      unfold Sketh.reported
      split
      · rfl
      · exact ih hlog

/-- What was written at the end was written before. -/
theorem FramesWritten.of_append {recent : List RxFrameEvent} (h : FramesWritten (recent ++ log)) :
    FramesWritten log := by
  induction recent with
  | nil => exact h
  | cons e recent ih =>
    cases e with
    | give slot dma => exact ih h
    | complete slot length => exact ih h
    | deliver d => exact ih h.2

/-- A poll that delivers something delivers a frame that nobody wrote. -/
theorem not_framesWritten (hlog : NothingGiven log) {deliveries : List Delivery}
    (hne : deliveries ≠ []) : ¬ FramesWritten ((deliveries.map .deliver).reverse ++ log) := by
  obtain ⟨d, rest, rfl⟩ := List.exists_cons_of_ne_nil hne
  intro h
  rw [List.map_cons, List.reverse_cons, List.append_assoc] at h
  have hfirst : FramesWritten (.deliver d :: log) := h.of_append
  rw [FramesWritten, hlog.reported] at hfirst
  exact absurd hfirst.1 (by simp)

end Frames

section Polls

/-- What a poll does to the events. -/
theorem napiMachine_poll {s t : SkethNapi} {call : RxCall}
    (h : napiMachine.step s (.poll call) = some t) :
    t.frames = ((s.deliveries call).map .deliver).reverse ++ s.frames := by
  obtain ⟨r, -, rfl⟩ := Option.map_eq_some_iff.mp h
  rfl

/-- A step that takes nothing keeps what was written, and gives nothing. -/
theorem napiMachine_step_inv (s : SkethNapi) (label : NapiStep) (t : SkethNapi)
    (h : FramesWritten s.frames ∧ NothingGiven s.frames) (hs : napiMachine.step s label = some t)
    (hguard : NothingToTake s label) : FramesWritten t.frames ∧ NothingGiven t.frames := by
  cases label with
  | complete slot length =>
    obtain rfl := Option.some.inj hs
    refine ⟨h.1, fun i dma hmem => ?_⟩
    rcases List.mem_cons.mp hmem with heq | hmem
    · exact absurd heq (by simp)
    · exact h.2 i dma hmem
  | poll call =>
    rw [napiMachine_poll hs, (deliveries_eq_nil_iff s call).mpr hguard]
    exact h

/-- A step that takes something delivers what nobody wrote. -/
theorem napiMachine_step_bad (s : SkethNapi) (label : NapiStep) (t : SkethNapi)
    (h : FramesWritten s.frames ∧ NothingGiven s.frames) (hs : napiMachine.step s label = some t)
    (hguard : ¬ NothingToTake s label) : ¬ FramesWritten t.frames := by
  cases label with
  | complete slot length => exact absurd trivial hguard
  | poll call =>
    rw [napiMachine_poll hs]
    exact not_framesWritten h.2 fun hnil => hguard ((deliveries_eq_nil_iff s call).mp hnil)

end Polls

/-- Along every run of polls with any device in between, every buffer delivered was given to the device
and completed with that length, and polls without a completed descriptor deliver nothing, exactly
when every poll finds nothing to take. -/
theorem framesWritten_iff_nothingToTake (a : SkethAdapter) (msixEntries : Bool)
    (rxCount txCount : ℕ) (fill : ℕ → RxAlloc) (steps : List NapiStep) :
    (napiMachine.Always (fun s => FramesWritten s.frames)
        (napiSetup a msixEntries rxCount txCount fill) steps ∧
      napiMachine.Guarded QuietPoll (napiSetup a msixEntries rxCount txCount fill) steps) ↔
      napiMachine.Guarded NothingToTake (napiSetup a msixEntries rxCount txCount fill) steps := by
  have hinit : FramesWritten (napiSetup a msixEntries rxCount txCount fill).frames ∧
      NothingGiven (napiSetup a msixEntries rxCount txCount fill).frames :=
    ⟨trivial, fun _ _ => List.not_mem_nil⟩
  have hiff := napiMachine.always_iff_guarded (fun _ h => h.1) napiMachine_step_inv
    napiMachine_step_bad hinit steps
  have hquiet : ∀ s label, NothingToTake s label → QuietPoll s label := by
    intro s label hguard
    cases label with
    | complete slot length => trivial
    | poll call => exact fun _ => (deliveries_eq_nil_iff s call).mpr hguard
  constructor
  · exact fun h => hiff.mp h.1
  · exact fun h => ⟨hiff.mpr h, h.mono napiMachine hquiet⟩

/-- A ring of 512 slots whose first one was filled is polled before the device has done anything. -/
theorem framesWritten_stale : ¬ napiMachine.Always (fun s => FramesWritten s.frames)
    (napiSetup skethProbed true 512 512 fun n => if n = 0 then .mapped 4096 else .noSkb)
    [.poll ⟨64, fun _ => ⟨.pass, none, false, false⟩, fun _ => .noSkb⟩] := by
  intro h
  have hwritten : FramesWritten [.deliver ⟨0, 0, 4096, 1514⟩] :=
    h.of_reached napiMachine (List.prefix_refl _) rfl
  exact absurd hwritten.1 (by decide)

section Totality

variable {a : SkethAdapter}

/-- A step forward keeps a TX ring formed. -/
theorem advanceTxUse_formed (h : a.txRing.Formed) : a.advanceTxUse.txRing.Formed where
  pow := h.pow
  use_lt := by
    change nextToUse a.txRing.nextToUse a.txRing.count < a.txRing.count
    rw [h.next_eq h.use_lt]
    exact Cyclic.next_lt h.count_pos _
  clean_lt := h.clean_lt

/-- `sketh_receive_skb` keeps the TX ring formed. -/
theorem skethReceiveSkb_formed (h : a.txRing.Formed) (id length : ℕ) (v : RxVerdict) :
    (skethReceiveSkb a id length v).txRing.Formed := by
  obtain ⟨drops, heq⟩ | heq | ⟨redirect, drops, heq⟩ := skethReceiveSkb_cases a id length v
  · rw [heq]
    exact h
  · rw [heq]
    cases v.txDma with
    | none => exact h
    | some dma => exact advanceTxUse_formed ⟨h.pow, h.use_lt, h.clean_lt⟩
  · rw [heq]
    exact h

/-- The receive loop keeps the TX ring formed. -/
theorem skethCleanRxLoop_formed (remaining : ℕ) (verdict : ℕ → RxVerdict) {c : RxCleaning}
    (h : c.adapter.txRing.Formed) :
    (skethCleanRxLoop remaining verdict c).adapter.txRing.Formed := by
  refine skethCleanRxLoop_keeps (P := fun c => c.adapter.txRing.Formed) (fun c id v h => ?_)
    remaining verdict h
  exact skethReceiveSkb_formed (a := (c.adapter.emit _).setRxBuffer _ .empty) h id _ v

/-- The refill loop leaves the TX ring alone. -/
theorem skethAllocRxLoop_txRing (cleanedCount : ℕ) (outcome : ℕ → RxAlloc) (i : ℕ) :
    (skethAllocRxLoop cleanedCount outcome a i).1.txRing = a.txRing := by
  induction cleanedCount generalizing a i outcome with
  | zero => rfl
  | succ n ih =>
    unfold skethAllocRxLoop
    cases outcome 0 with
    | noSkb => rfl
    | mapError => rfl
    | mapped dma => exact ih _ _

/-- `sketh_clean_rx_ring` keeps the TX ring formed. -/
theorem skethCleanRxRing_formed (h : a.txRing.Formed) (call : RxCall) :
    (skethCleanRxRing a call.budget call.verdict call.outcome).1.txRing.Formed := by
  have hloop := skethCleanRxLoop_formed (call.budget % 2 ^ 32).toNat call.verdict
    (c := ⟨a, 0, 0, 0⟩) h
  unfold skethCleanRxRing
  simp only
  split
  · change (skethAllocRxLoop _ _ _ _).1.txRing.Formed
    rw [skethAllocRxLoop_txRing]
    exact hloop
  · exact hloop

/-- A poll returns, and leaves the TX ring formed. -/
theorem skethNapiPoll_returns (h : a.txRing.Formed) (msixEntries : Bool) (call : RxCall) :
    ∃ r, skethNapiPoll a msixEntries call = some r ∧ r.1.txRing.Formed := by
  have hrx := skethCleanRxRing_formed h call
  unfold skethNapiPoll
  simp only
  split
  · obtain ⟨b, hb, hring, -⟩ := skethCleanTxRing_eq _ hrx
    obtain ⟨hcount, huse, -⟩ := cleanTxSlots_shape
      ⟨(skethCleanRxRing a call.budget call.verdict call.outcome).1, 0, 0⟩
      (skethCleanRxRing a call.budget call.verdict call.outcome).1.txRing.flightSpan
    rw [hb]
    refine ⟨_, rfl, ?_⟩
    rw [hring]
    exact ⟨hcount ▸ hrx.pow, (hcount.symm ▸ huse.symm ▸ hrx.use_lt :), (hcount.symm ▸ hrx.use_lt :)⟩
  · exact ⟨_, rfl, hrx⟩

/-- Polls return and the device can move, in every state of every run. -/
theorem napiMachine_total (a : SkethAdapter) (msixEntries : Bool) (rxCount : ℕ) {m : ℕ} (hm : m ≤ 15)
    (fill : ℕ → RxAlloc) (steps : List NapiStep) :
    napiMachine.Always (fun s => ∀ label, (napiMachine.step s label).isSome)
      (napiSetup a msixEntries rxCount (2 ^ m) fill) steps := by
  have hinit : (napiSetup a msixEntries rxCount (2 ^ m) fill).adapter.txRing.Formed := by
    change (skethAllocRxLoop _ _ _ _).1.txRing.Formed
    rw [skethAllocRxLoop_txRing]
    exact skethSetupTxResources_formed hm
  have hstep : ∀ s label t, s.adapter.txRing.Formed → napiMachine.step s label = some t →
      t.adapter.txRing.Formed := by
    intro s label t hs ht
    cases label with
    | complete slot length => exact Option.some.inj ht ▸ hs
    | poll call =>
      obtain ⟨r, hr, hformed⟩ := skethNapiPoll_returns hs s.msixEntries call
      simp only [napiMachine, hr, Option.map_some, Option.some.injEq] at ht
      exact ht ▸ hformed
  refine (napiMachine.always_of_step hstep hinit steps).mono _ fun s hs label => ?_
  cases label with
  | complete slot length => rfl
  | poll call =>
    obtain ⟨r, hr, -⟩ := skethNapiPoll_returns hs s.msixEntries call
    simp only [napiMachine, hr, Option.map_some, Option.isSome_some]

end Totality

end LinuxFunctionTest.Sketh
