import LinuxFunctionTest.Sketh.Probe

/-!
# Pointers over the life of an adapter

In every state that a run without faults reaches, a bound adapter is bare, `msix_entries` is NULL on
the platform bus, and on the PCI bus it is there until the state bit is set. So whether a call
faults is decided by the bus, the state bit and what the environment grants, and a run is free of
faults exactly when no call gets as far as the first missing object.
-/

namespace LinuxFunctionTest.Sketh

open SkethDev

/-- What holds of the pointers as long as nothing has faulted. -/
structure PointerInv (s : SkethSystem) : Prop where
  fault : s.fault = none
  bare : s.phase = .bound → Bare s.dev
  platform : s.phase = .bound → s.dev.bus = .platform → s.dev.msixEntries = none
  pci : s.phase = .bound → s.dev.bus = .pci → s.dev.adapter.down = false → s.dev.msixEntries ≠ none

/-- An open finds its objects on its bus. -/
def OpenOnBus (d : SkethDev) (env : OpenEnv) : Prop :=
  d.adapter.down = true ∨ (d.bus = .pci ∧
    ((∃ q : ℕ, (q : ℤ) < d.numQueues ∧ env.irq q ≠ 0) ∨ FirstAllocsFail d.numQueues env.alloc))

/-- A call gets no further than the objects that are there: a probe fails before `sketh_configure`, or
every queue is refused its first buffer; an open is turned away by the state bit, or is on the PCI
bus and is refused an interrupt or all buffers; a packet is dropped early; a poll has no budget. -/
def PointersThere (s : SkethSystem) : SkethCall → Prop
  | .probe bus env => ProbeFinds bus env
  | .open env => OpenOnBus s.dev env
  | .resume env => s.running = true → OpenOnBus s.dev env
  | .startXmit _ skb dma => XmitFinds s.dev skb dma
  | .napiPoll _ call => call.budget % 2 ^ 32 = 0
  | .stop | .suspend | .remove => True

section Calls

variable {s : SkethSystem} {β : Type}

/-- A step is a call that the kernel may make, before anything has faulted. -/
theorem skethMachine_step {t : SkethSystem} {call : SkethCall}
    (h : skethMachine.step s call = some t) : s.fault = none ∧ s.Permits call ∧ t = s.perform call := by
  simp only [skethMachine] at h
  split at h
  · next hcan => exact ⟨hcan.1, hcan.2, (Option.some.inj h).symm⟩
  · exact absurd h (by simp)

/-- A call succeeds under its condition, and stops the kernel at a fault otherwise. -/
theorem settle_cases {result : Except SkethFault β} {cond : Prop} {post : β → Prop}
    (h : Fallible result cond post) (s : SkethSystem) (next : β → SkethSystem) :
    (cond ∧ ∃ b, post b ∧ s.settle result next = next b) ∨
      (¬ cond ∧ (s.settle result next).fault ≠ none) := by
  rcases h with ⟨hcond, b, rfl, hpost⟩ | ⟨hcond, f, rfl⟩
  · exact Or.inl ⟨hcond, b, hpost, rfl⟩
  · exact Or.inr ⟨hcond, by simp [SkethSystem.settle]⟩

/-- What holds of every result of a call holds behind it, if it does not fault. -/
theorem settle_of_ok {P : SkethSystem → Prop} {result : Except SkethFault β} {next : β → SkethSystem}
    (hfault : (s.settle result next).fault = none) (h : ∀ b, result = .ok b → P (next b)) :
    P (s.settle result next) := by
  cases result with
  | ok b => exact h b rfl
  | error f => exact absurd hfault (by simp [SkethSystem.settle])

/-- While the invariant holds, the bus decides whether an open finds its objects. -/
theorem PointerInv.openFinds_iff (h : PointerInv s) (hbound : s.phase = .bound) (env : OpenEnv) :
    OpenFinds s.dev env ↔ OpenOnBus s.dev env := by
  unfold OpenFinds OpenOnBus
  cases hdown : s.dev.adapter.down with
  | true => simp
  | false =>
    have hmsix : s.dev.msixEntries ≠ none ↔ s.dev.bus = .pci := by
      constructor
      · intro hsome
        cases hbus : s.dev.bus with
        | pci => rfl
        | platform => exact absurd (h.platform hbound hbus) hsome
      · exact fun hbus => h.pci hbound hbus hdown
    rw [hmsix]

/-- The invariant does not mind what the kernel keeps about the interface. -/
theorem PointerInv.withFlags {t : SkethSystem} (h : PointerInv s) (hfault : t.fault = s.fault)
    (hphase : t.phase = s.phase) (hdev : t.dev = s.dev) : PointerInv t where
  fault := hfault.trans h.fault
  bare := fun hbound => hdev ▸ h.bare (hphase ▸ hbound)
  platform := fun hbound => hdev ▸ h.platform (hphase ▸ hbound)
  pci := fun hbound => hdev ▸ h.pci (hphase ▸ hbound)

/-- A function that keeps the bus, `msix_entries` and the state bit keeps the invariant. -/
theorem PointerInv.framed (h : PointerInv s) (hbound : s.phase = .bound) {d : SkethDev}
    (hd : Framed s.dev d) (hbare : Bare d) : PointerInv { s with dev := d } where
  fault := h.fault
  bare := fun _ => hbare
  platform := fun _ hbus => hd.msixEntries.trans (h.platform hbound (hd.bus.symm.trans hbus))
  pci := fun _ hbus hdown => by
    rw [hd.msixEntries]
    exact h.pci hbound (hd.bus.symm.trans hbus) (hd.down.symm.trans hdown)

/-- `sketh_stop` keeps the invariant: the state bit stands for the missing `msix_entries`. -/
theorem PointerInv.stopped (h : PointerInv s) (hbound : s.phase = .bound) :
    PointerInv { s with dev := (s.dev.setDown true).skethFreeIrqs } where
  fault := h.fault
  bare := fun _ => (h.bare hbound).skethStop.2
  platform := fun _ _ => by
    obtain ⟨ledger, heq⟩ := skethFreeIrqs_eq (s.dev.setDown true)
    exact congrArg SkethDev.msixEntries heq
  pci := fun _ _ hdown => by
    obtain ⟨ledger, heq⟩ := skethFreeIrqs_eq (s.dev.setDown true)
    have hset : (s.dev.setDown true).skethFreeIrqs.adapter.down = true :=
      congrArg (fun d : SkethDev => d.adapter.down) heq
    exact absurd (hset.symm.trans hdown) (by simp)

/-- A successful probe starts the invariant, and a failed one leaves nothing to hold. -/
theorem PointerInv.probed (h : PointerInv s) {bus : SkethBus} {env : ProbeEnv} {r : SkethDev × ℤ}
    (hr : ProbeOutcome bus env r) :
    PointerInv { s with dev := r.1, phase := if r.2 = 0 then .bound else .failed } := by
  by_cases herr : r.2 = 0
  · obtain ⟨hprobed, -⟩ := hr.bound herr
    refine ⟨h.fault, fun _ => hprobed.bare, fun _ hbus => ?_, fun _ hbus _ => ?_⟩
    · obtain rfl : bus = .platform := hprobed.onBus.symm.trans hbus
      exact hprobed.msixEntries
    · obtain rfl : bus = .pci := hprobed.onBus.symm.trans hbus
      rw [hprobed.msixEntries]
      exact Option.some_ne_none _
  · rw [if_neg herr]
    exact ⟨h.fault, by simp, by simp, by simp⟩

/-- The unregistering of a bare adapter. -/
theorem SkethDev.Bare.skethUnregister {d : SkethDev} (h : Bare d) (running : Bool) :
    ∃ t, d.skethUnregister running = .ok t := by
  have hbare : Bare (d.release .hook) := h.withLedger _
  unfold SkethDev.skethUnregister
  split
  · cases running with
    | false => exact ⟨_, rfl⟩
    | true =>
      simp only [if_true, hbare.skethStop.1]
      exact ⟨_, rfl⟩
  · exact ⟨_, rfl⟩

/-- The remove of either bus finds its objects. -/
theorem SkethDev.Bare.remove {d : SkethDev} (h : Bare d) (running : Bool) :
    ∃ t, d.remove running = .ok t := by
  obtain ⟨t, ht⟩ := h.skethUnregister running
  unfold SkethDev.remove
  split
  · rw [SkethDev.skethRemove, ht]
    exact ⟨_, rfl⟩
  · rw [SkethDev.skethPlatformRemove, ht]
    exact ⟨_, rfl⟩

/-- A call with a specification keeps the invariant under its condition, and faults otherwise. -/
theorem PointerInv.settled {result : Except SkethFault β} {cond : Prop} {post : β → Prop}
    {next : β → SkethSystem} (hspec : Fallible result cond post)
    (hnext : ∀ b, post b → PointerInv (next b)) :
    (cond ∧ PointerInv (s.settle result next)) ∨ (¬ cond ∧ (s.settle result next).fault ≠ none) := by
  rcases settle_cases hspec s next with ⟨hcond, b, hb, heq⟩ | hfault
  · rw [heq]
    exact Or.inl ⟨hcond, hnext b hb⟩
  · exact Or.inr hfault

/-- A call keeps the invariant when it gets no further than the objects that are there, and faults
otherwise. -/
theorem PointerInv.perform (h : PointerInv s) {call : SkethCall} (hpermits : s.Permits call) :
    (PointersThere s call ∧ PointerInv (s.perform call)) ∨
      (¬ PointersThere s call ∧ (s.perform call).fault ≠ none) := by
  cases call with
  | probe bus env => exact PointerInv.settled (probe_spec bus env) fun r hr => h.probed hr
  | «open» env =>
    obtain ⟨hbound, -, -⟩ := hpermits
    have hspec := ((h.bare hbound).skethOpen env).mono (h.openFinds_iff hbound env) fun _ => id
    exact PointerInv.settled hspec fun r hr =>
      (h.framed hbound hr.framed hr.bare).withFlags rfl rfl rfl
  | stop =>
    obtain ⟨hbound, -⟩ := hpermits
    refine Or.inl ⟨trivial, ?_⟩
    change PointerInv (s.settle _ _)
    rw [(h.bare hbound).skethStop.1]
    exact (h.stopped hbound).withFlags rfl rfl rfl
  | suspend =>
    obtain ⟨hbound, -, -⟩ := hpermits
    refine Or.inl ⟨trivial, ?_⟩
    change PointerInv (s.settle _ _)
    split
    · rw [(h.bare hbound).skethStop.1]
      exact (h.stopped hbound).withFlags rfl rfl rfl
    · exact h.withFlags rfl rfl rfl
  | resume env =>
    obtain ⟨hbound, -⟩ := hpermits
    have hspec : Fallible (if s.running then s.dev.skethOpen env else .ok (s.dev, 0))
        (s.running = true → OpenOnBus s.dev env) fun r => Framed s.dev r.1 ∧ Bare r.1 := by
      split
      · next hrunning =>
        refine ((h.bare hbound).skethOpen env).mono ?_ fun r hr => ⟨hr.framed, hr.bare⟩
        rw [h.openFinds_iff hbound env, imp_iff_right hrunning]
      · next hrunning =>
        exact Or.inl ⟨fun hyes => absurd hyes hrunning, _, rfl, .refl s.dev, h.bare hbound⟩
    exact PointerInv.settled hspec fun r hr => (h.framed hbound hr.1 hr.2).withFlags rfl rfl rfl
  | startXmit q skb dma =>
    obtain ⟨hbound, -⟩ := hpermits
    exact PointerInv.settled ((h.bare hbound).startXmit_fresh q skb dma) fun d hd =>
      h.framed hbound hd.framed hd.bare
  | napiPoll q call =>
    obtain ⟨hbound, -, hq⟩ := hpermits
    exact PointerInv.settled ((h.bare hbound).skethNapiPoll hq call) fun d hd =>
      h.framed hbound hd.framed hd.bare
  | remove =>
    refine Or.inl ⟨trivial, ?_⟩
    obtain ⟨t, ht⟩ := (h.bare hpermits).remove s.running
    change PointerInv (s.settle _ _)
    rw [ht]
    exact ⟨h.fault, by simp [SkethSystem.settle], by simp [SkethSystem.settle],
      by simp [SkethSystem.settle]⟩

end Calls

/-- Before the probe the invariant holds. -/
theorem skethUnbound_pointerInv : PointerInv skethUnbound :=
  ⟨rfl, by simp [skethUnbound], by simp [skethUnbound], by simp [skethUnbound]⟩

/-- Along every run of calls that the kernel may make, every pointer used is there, exactly when every
call gets no further than the objects that are there. -/
theorem pointers_safe_iff (calls : List SkethCall) :
    skethMachine.Always (fun s => s.fault = none) skethUnbound calls ↔
      skethMachine.Guarded PointersThere skethUnbound calls := by
  have hstep : ∀ s call t, PointerInv s → skethMachine.step s call = some t →
      (PointersThere s call ∧ PointerInv t) ∨ (¬ PointersThere s call ∧ t.fault ≠ none) := by
    intro s call t hs ht
    obtain ⟨-, hpermits, rfl⟩ := skethMachine_step ht
    exact hs.perform hpermits
  refine skethMachine.always_iff_guarded (fun s (h : PointerInv s) => h.fault) ?_ ?_
    skethUnbound_pointerInv calls
  · exact fun s call t hs ht hguard =>
      (hstep s call t hs ht).elim And.right fun hbad => absurd hguard hbad.1
  · exact fun s call t hs ht hguard =>
      (hstep s call t hs ht).elim (fun hgood => absurd hgood.1 hguard) And.right

/-- A module parameter of four queues, and a kernel that grants everything. -/
def probeGranted : ProbeEnv :=
  ⟨4, 1500, 0, 0, true, 0, true, true, true, true, fun _ n => .mapped (4096 * (n + 1)), 0, 0⟩

/-- A kernel that refuses every buffer and grants everything else. -/
def probeStarved : ProbeEnv :=
  ⟨4, 1500, 0, 0, true, 0, true, true, true, true, fun _ _ => .noSkb, 0, 0⟩

/-- An open that is granted its interrupts and refused every buffer. -/
def openStarved : OpenEnv := ⟨fun _ => 0, fun _ _ => .noSkb⟩

/-- A PCI probe to which the kernel grants everything stores its first RX buffer through a NULL pointer. -/
theorem skethProbe_faults :
    ¬ skethMachine.Always (fun s => s.fault = none) skethUnbound [.probe .pci probeGranted] := by
  intro h
  have hfault : some SkethFault.rxBuffer = none :=
    h.of_reached skethMachine (List.prefix_refl _) rfl
  exact absurd hfault (by simp)

end LinuxFunctionTest.Sketh
