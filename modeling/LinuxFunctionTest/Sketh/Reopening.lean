import LinuxFunctionTest.Sketh.PointerSafety

/-!
# Bringing the interface up again

`sketh_open` turns away an adapter whose `__SKETH_STATE_DOWN` is set, and clears the bit at its end;
`sketh_stop` sets it. The probe leaves it clear. So a closed interface has the bit clear only before
its first open, and afterwards it can never be opened again. This holds whatever the pointers of the
adapter are, so the results are about an arbitrary adapter after a probe.
-/

namespace LinuxFunctionTest.Sketh

open SkethDev

/-- The state bit is clear exactly on an open interface, and a closed one can be opened whenever all
interrupts are granted. -/
structure Reopens (s : SkethSystem) : Prop where
  down : s.dev.adapter.down = false ↔ s.Opened
  opens : ¬ s.Opened → ∀ env : OpenEnv, (∀ q, env.irq q = 0) → ∃ d, s.dev.skethOpen env = .ok (d, 0)

/-- The system behind a probe that left adapter `d`, with the state bit clear. -/
def probedSystem (d : SkethDev) : SkethSystem where
  dev := d.setDown false
  phase := .bound
  running := false
  attached := true
  suspended := false
  fault := none

/-- A probe that succeeds leaves such a system. -/
theorem probedSystem_of_probe {bus : SkethBus} {env : ProbeEnv} {s : SkethSystem}
    (h : skethMachine.step skethUnbound (.probe bus env) = some s) (hbound : s.phase = .bound) :
    s = probedSystem s.dev := by
  obtain ⟨-, -, rfl⟩ := skethMachine_step h
  change (skethUnbound.settle _ _).phase = _ at hbound
  change skethUnbound.settle _ _ = probedSystem (skethUnbound.settle _ _).dev
  rcases settle_cases (probe_spec bus env) skethUnbound fun r =>
      { skethUnbound with dev := r.1, phase := if r.2 = 0 then .bound else .failed } with
    ⟨-, r, hr, heq⟩ | ⟨-, hfault⟩
  · rw [heq] at hbound ⊢
    by_cases herr : r.2 = 0
    · have hdown := (hr.bound herr).1.down
      have hdev : r.1.setDown false = r.1 := by
        unfold setDown
        rw [← hdown]
      simp only [if_pos herr, probedSystem, hdev]
      rfl
    · exact absurd hbound (by simp [herr])
  · revert hbound
    cases hresult : SkethDev.probe bus env with
    | ok r =>
      rw [hresult] at hfault
      exact absurd rfl hfault
    | error f => exact fun hbound => absurd hbound (by simp [SkethSystem.settle, skethUnbound])

section Frames

variable {d t : SkethDev}

/-- `sketh_start_xmit` leaves the state bit. -/
theorem skethStartXmit_down (a : SkethAdapter) (skb : SkBuff) (dma : Option ℕ) :
    (Sketh.skethStartXmit a skb dma).down = a.down := by
  by_cases hposts : Posts a skb dma
  · obtain ⟨dma, rfl⟩ := Option.isSome_iff_exists.mp hposts.2.2
    exact (skethStartXmit_posted a skb dma hposts).down
  · exact (skethStartXmit_dropped a skb dma hposts).2.2.2

/-- `sketh_receive_skb` leaves the state bit. -/
theorem skethReceiveSkb_down (a : SkethAdapter) (id length : ℕ) (v : RxVerdict) :
    (skethReceiveSkb a id length v).down = a.down := by
  obtain ⟨drops, heq⟩ | heq | ⟨redirect, drops, heq⟩ := skethReceiveSkb_cases a id length v
  · rw [heq]
    rfl
  · rw [heq]
    cases v.txDma <;> rfl
  · rw [heq]
    rfl

/-- The receive loop leaves the state bit. -/
theorem skethCleanRxLoop_down (remaining : ℕ) (verdict : ℕ → RxVerdict) (c : RxCleaning) :
    (skethCleanRxLoop remaining verdict c).adapter.down = c.adapter.down := by
  refine skethCleanRxLoop_keeps (P := fun d => d.adapter.down = c.adapter.down) (fun d id v h => ?_)
    remaining verdict rfl
  exact (skethReceiveSkb_down _ id _ v).trans h

/-- The refill loop leaves the state bit. -/
theorem skethAllocRxLoop_down (cleanedCount : ℕ) (outcome : ℕ → RxAlloc) (a : SkethAdapter) (i : ℕ) :
    (skethAllocRxLoop cleanedCount outcome a i).1.down = a.down := by
  induction cleanedCount generalizing a i outcome with
  | zero => rfl
  | succ n ih =>
    unfold skethAllocRxLoop
    cases outcome 0 with
    | noSkb => rfl
    | mapError => rfl
    | mapped dma => exact ih _ _ _

/-- The cleaning loop leaves the state bit. -/
theorem skethCleanTxLoop_down (fuel : ℕ) (c : TxCleaning) (i : ℕ) {r : TxCleaning × ℕ}
    (h : skethCleanTxLoop fuel c i = some r) : r.1.adapter.down = c.adapter.down := by
  induction fuel generalizing c i with
  | zero =>
    unfold skethCleanTxLoop at h
    split at h
    · exact Option.some.inj h ▸ rfl
    · exact absurd h (by simp)
  | succ n ih =>
    unfold skethCleanTxLoop at h
    split at h
    · exact Option.some.inj h ▸ rfl
    · exact (ih _ _ h).trans (cleanTxSlot_frame c i).2

/-- A poll leaves the state bit. -/
theorem skethNapiPoll_down (a : SkethAdapter) (msixEntries : Bool) (call : RxCall)
    {r : SkethAdapter × NapiPoll} (h : Sketh.skethNapiPoll a msixEntries call = some r) :
    r.1.down = a.down := by
  have hrx : (skethCleanRxRing a call.budget call.verdict call.outcome).1.down = a.down := by
    unfold skethCleanRxRing
    simp only
    split
    · exact (skethAllocRxLoop_down _ _ _ _).trans (skethCleanRxLoop_down _ _ _)
    · exact skethCleanRxLoop_down _ _ _
  obtain ⟨b, hb, rfl⟩ := Option.map_eq_some_iff.mp h
  refine Eq.trans ?_ hrx
  split at hb
  · obtain ⟨c, hc, rfl⟩ := Option.map_eq_some_iff.mp hb
    have hdown := skethCleanTxLoop_down _ _ _ hc
    simp only
    split <;> exact hdown
  · exact Option.some.inj hb ▸ rfl

/-- Freeing the resources of a TX ring leaves the adapter fields. -/
theorem skethFreeTxResources_adapter {q : ℕ} (h : d.skethFreeTxResources q = .ok t) :
    t.adapter = d.adapter := by
  obtain ⟨tx, -, h⟩ := Fallible.bind_eq_ok h
  have hbuffer : (if tx.txBuffer then (d.release (.txBuffer q)).setTxQueue q
      { tx with txBuffer := false } else d).adapter = d.adapter := by
    cases tx.txBuffer <;> rfl
  revert h hbuffer
  generalize (if tx.txBuffer then (d.release (.txBuffer q)).setTxQueue q
    { tx with txBuffer := false } else d) = u
  intro h hbuffer
  simp only at h
  split at h
  · split at h
    · exact absurd h (by simp)
    · exact Except.ok.inj h ▸ hbuffer
  · exact Except.ok.inj h ▸ hbuffer

/-- Freeing the resources of an RX ring leaves the adapter fields. -/
theorem skethFreeRxResources_adapter {q : ℕ} (h : d.skethFreeRxResources q = .ok t) :
    t.adapter = d.adapter := by
  obtain ⟨rx, -, h⟩ := Fallible.bind_eq_ok h
  have hbuffer : (if rx.rxBuffer then (d.release (.rxBuffer q)).setRxQueue q
      { rx with rxBuffer := false } else d).adapter = d.adapter := by
    cases rx.rxBuffer <;> rfl
  revert h hbuffer
  generalize (if rx.rxBuffer then (d.release (.rxBuffer q)).setRxQueue q
    { rx with rxBuffer := false } else d) = u
  intro h hbuffer
  simp only at h
  split at h
  · split at h
    · exact absurd h (by simp)
    · exact Except.ok.inj h ▸ hbuffer
  · exact Except.ok.inj h ▸ hbuffer

/-- The last loop of `sketh_stop` leaves the adapter fields. -/
theorem skethStopQueue_adapter {q : ℕ} (h : d.skethStopQueue q = .ok t) : t.adapter = d.adapter := by
  obtain ⟨tx, -, h⟩ := Fallible.bind_eq_ok h
  obtain ⟨rx, -, h⟩ := Fallible.bind_eq_ok h
  obtain ⟨u, hu, h⟩ := Fallible.bind_eq_ok h
  have hfirst : u.adapter = d.adapter := by
    split at hu
    · exact skethFreeTxResources_adapter hu
    · exact Except.ok.inj hu ▸ rfl
  split at h
  · exact (skethFreeRxResources_adapter h).trans hfirst
  · exact Except.ok.inj h ▸ hfirst

/-- `sketh_stop` sets the state bit. -/
theorem skethStop_down (h : d.skethStop = .ok t) : t.adapter.down = true := by
  obtain ⟨ledger, heq⟩ := skethFreeIrqs_eq (d.setDown true)
  have hset : (d.setDown true).skethFreeIrqs.adapter.down = true :=
    congrArg (fun d : SkethDev => d.adapter.down) heq
  have hround : ∀ (u : SkethDev) (q : ℕ) (v : SkethDev), u.adapter.down = true →
      u.skethStopQueue q = .ok v → v.adapter.down = true := by
    intro u q v hu hv
    rw [skethStopQueue_adapter hv]
    exact hu
  exact Fallible.foldlM_of_ok hround hset h

/-- `sketh_open` turns away an adapter whose state bit is set. -/
theorem skethOpen_busy (h : d.adapter.down = true) (env : OpenEnv) :
    d.skethOpen env = .ok (d, -Errno.ebusy) :=
  if_pos h

/-- `sketh_open` clears the state bit when it succeeds. -/
theorem skethOpen_down {env : OpenEnv} {r : SkethDev × ℤ} (h : d.skethOpen env = .ok r)
    (herr : r.2 = 0) : r.1.adapter.down = false := by
  unfold SkethDev.skethOpen at h
  split at h
  · obtain rfl := Except.ok.inj h
    exact absurd herr (by simp [Errno.ebusy])
  · obtain ⟨⟨u, err⟩, -, h⟩ := Fallible.bind_eq_ok h
    simp only at h
    split at h
    · next hne =>
      obtain rfl := Except.ok.inj h
      exact absurd herr hne
    · obtain ⟨v, -, h⟩ := Fallible.bind_eq_ok h
      obtain rfl := Except.ok.inj h
      rfl

/-- `sketh_start_xmit` on a queue leaves the state bit. -/
theorem xmit_down {q : ℕ} {skb : SkBuff} {dma : Option ℕ} (h : d.skethStartXmit q skb dma = .ok t) :
    t.adapter.down = d.adapter.down := by
  unfold SkethDev.skethStartXmit at h
  split at h
  · obtain rfl := Except.ok.inj h
    exact skethStartXmit_down _ skb dma
  split at h
  · exact absurd h (by simp)
  split at h
  · obtain rfl := Except.ok.inj h
    exact skethStartXmit_down _ skb dma
  obtain ⟨tx, -, h⟩ := Fallible.bind_eq_ok h
  split at h
  · exact absurd h (by simp)
  split at h
  · exact absurd h (by simp)
  obtain rfl := Except.ok.inj h
  exact skethStartXmit_down _ skb dma

/-- `sketh_napi_poll` on a queue leaves the state bit. -/
theorem poll_down {q : ℕ} {call : RxCall} (h : d.skethNapiPoll q call = .ok t) :
    t.adapter.down = d.adapter.down := by
  obtain ⟨rx, -, h⟩ := Fallible.bind_eq_ok h
  obtain ⟨tx, -, h⟩ := Fallible.bind_eq_ok h
  simp only at h
  iterate 4 (split at h; · exact absurd h (by simp))
  split at h
  · exact absurd h (by simp)
  · next hpoll =>
    obtain rfl := Except.ok.inj h
    exact skethNapiPoll_down _ _ call hpoll

end Frames

/-- A running interface has the state bit clear exactly while it is attached, and a suspended one is
detached. -/
structure DownInv (s : SkethSystem) : Prop where
  started : s.phase ≠ .unbound
  running : s.phase = .bound → s.running = true → s.dev.adapter.down = !s.attached
  suspended : s.phase = .bound → s.suspended = true → s.attached = false

section Steps

variable {s : SkethSystem}

/-- A step that does not fault keeps the invariant. -/
theorem DownInv.perform (h : DownInv s) {call : SkethCall} (hpermits : s.Permits call)
    (hfault : (s.perform call).fault = none) : DownInv (s.perform call) := by
  cases call with
  | probe bus env => exact absurd hpermits h.started
  | «open» env =>
    obtain ⟨-, -, hattached⟩ := hpermits
    refine settle_of_ok (P := DownInv) hfault fun r hr => ⟨h.started, fun _ hrunning => ?_, h.suspended⟩
    have hdown := skethOpen_down hr (by simpa using hrunning)
    exact hdown.trans (by rw [hattached]; rfl)
  | stop =>
    refine settle_of_ok (P := DownInv) hfault fun d _ => ⟨h.started, fun _ hrunning => ?_, h.suspended⟩
    exact absurd hrunning (by simp)
  | suspend =>
    refine settle_of_ok (P := DownInv) hfault fun d hd =>
      ⟨h.started, fun _ hrunning => ?_, fun _ _ => rfl⟩
    rw [if_pos hrunning] at hd
    exact skethStop_down hd
  | resume env =>
    obtain ⟨hbound, hsuspended⟩ := hpermits
    have hdetached := h.suspended hbound hsuspended
    refine settle_of_ok (P := DownInv) hfault fun r hr =>
      ⟨h.started, fun _ hrunning => ?_, fun _ hsuspended' => absurd hsuspended' (by simp)⟩
    -- the interface was suspended while it ran, so its state bit turns the open away
    have hset : s.dev.adapter.down = true := by
      rw [h.running hbound hrunning, hdetached]
      rfl
    rw [if_pos hrunning, skethOpen_busy hset] at hr
    obtain rfl := Except.ok.inj hr
    simp [hset, hdetached, Errno.ebusy]
  | startXmit q skb dma =>
    exact settle_of_ok (P := DownInv) hfault fun d hd => ⟨h.started,
      fun hbound hrunning => (xmit_down hd).trans (h.running hbound hrunning), h.suspended⟩
  | napiPoll q call =>
    exact settle_of_ok (P := DownInv) hfault fun d hd => ⟨h.started,
      fun hbound hrunning => (poll_down hd).trans (h.running hbound hrunning), h.suspended⟩
  | remove =>
    refine settle_of_ok (P := DownInv) hfault fun d _ => ⟨by simp, fun hbound => ?_, fun hbound => ?_⟩
    · exact absurd hbound (by simp)
    · exact absurd hbound (by simp)

/-- Where the invariant holds, the law holds of an open interface and of no closed one. -/
theorem DownInv.reopens_iff (h : DownInv s) (hbound : s.phase = .bound) : Reopens s ↔ s.Opened := by
  constructor
  · intro hlaw
    by_contra hclosed
    have hset : s.dev.adapter.down = true := by
      by_contra hclear
      exact hclosed (hlaw.down.mp (by simpa using hclear))
    obtain ⟨d, hd⟩ := hlaw.opens hclosed ⟨fun _ => 0, fun _ _ => .noSkb⟩ fun _ => rfl
    rw [skethOpen_busy hset] at hd
    exact absurd (Prod.mk.inj (Except.ok.inj hd)).2 (by simp [Errno.ebusy])
  · intro hopened
    have hclear : s.dev.adapter.down = false := by
      rw [h.running hbound hopened.1, hopened.2]
      rfl
    exact ⟨iff_of_true hclear hopened, fun hclosed => absurd hopened hclosed⟩

end Steps

/-- No run meets the law from the probe on, whatever the adapter that was probed: in every state it
reaches without a fault, the law holds exactly if the interface is open. -/
theorem reopens_iff_opened (d : SkethDev) (calls : List SkethCall) :
    ¬ skethMachine.Always (fun s => s.fault = none → s.phase = .bound → Reopens s) (probedSystem d)
        calls ∧
      skethMachine.Always (fun s => s.fault = none → s.phase = .bound → (Reopens s ↔ s.Opened))
        (probedSystem d) calls := by
  constructor
  · intro h
    have hlaw : Reopens (probedSystem d) := h.head skethMachine rfl rfl
    have hopened := hlaw.down.mp rfl
    exact absurd hopened.1 (by simp [probedSystem])
  · have hinit : DownInv (probedSystem d) :=
      ⟨by simp [probedSystem], by simp [probedSystem], by simp [probedSystem]⟩
    have hstep : ∀ s call t, (s.fault = none → DownInv s) → skethMachine.step s call = some t →
        t.fault = none → DownInv t := by
      intro s call t hs ht hfault
      obtain ⟨hnone, hpermits, rfl⟩ := skethMachine_step ht
      exact (hs hnone).perform hpermits hfault
    refine (skethMachine.always_of_step hstep (fun _ => hinit) calls).mono _ ?_
    exact fun s hs hfault hbound => (hs hfault).reopens_iff hbound

/-- An adapter that was probed, opened and stopped is turned away by the second open, though all its
interrupts would be granted. -/
theorem skethOpen_after_stop :
    ¬ skethMachine.Always (fun s => s.fault = none → s.phase = .bound → ¬ s.Opened →
        ∀ env : OpenEnv, (∀ q, env.irq q = 0) → ∃ d, s.dev.skethOpen env = .ok (d, 0))
      skethUnbound [.probe .pci probeStarved, .open openStarved, .stop] := by
  intro h
  obtain ⟨s, hs, hfault, hbound, hrunning, hset⟩ : ∃ s, skethMachine.run skethUnbound
      [.probe .pci probeStarved, .open openStarved, .stop] = some s ∧ s.fault = none ∧
      s.phase = .bound ∧ s.running = false ∧ s.dev.adapter.down = true := ⟨_, rfl, rfl, rfl, rfl, rfl⟩
  have hclosed : ¬ s.Opened := fun hopened => absurd (hrunning.symm.trans hopened.1) (by simp)
  obtain ⟨d, hd⟩ := h.of_reached skethMachine (List.prefix_refl _) hs hfault hbound hclosed
    openStarved fun _ => rfl
  rw [skethOpen_busy hset] at hd
  exact absurd (Prod.mk.inj (Except.ok.inj hd)).2 (by simp [Errno.ebusy])

end LinuxFunctionTest.Sketh
