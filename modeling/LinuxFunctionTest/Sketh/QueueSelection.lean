import LinuxFunctionTest.Sketh.PointerSafety

/-!
# Queue selection

`sketh_probe` creates the network device with `SKETH_MAX_NUM_QUEUES` TX queues, and nothing tells the network core
that fewer are in use. The array of rings has as many elements as the module parameter says. `sketh_start_xmit`
takes the queue that the core has chosen for an index of the array.
-/

namespace LinuxFunctionTest.Sketh

/-- The TX queues with which the network device is created: the core maps a packet to one of them. -/
def netdevTxQueues : ℕ := skethMaxNumQueues.toNat

namespace SkethDev

/-- `tx_ring = &adapter->tx_ring[skb->queue_mapping]` of `sketh_start_xmit`, where it gets as far. -/
def skbTxRing (d : SkethDev) (skb : SkBuff) (queueMapping : ℕ) : Except SkethFault (Option TxQueue) :=
  if skb.len = 0 then .ok none else (d.txQueue queueMapping).map some

/-- Whatever the packet and the queue it is mapped to, the index is inside the array. -/
def SelectsInside (d : SkethDev) : Prop :=
  ∀ (skb : SkBuff) (queueMapping : ℕ), queueMapping < netdevTxQueues →
    ∃ ring, d.skbTxRing skb queueMapping = .ok ring

/-- The elements of the array are those that the parameter asked for. -/
structure HasRings (n : ℤ) (d : SkethDev) : Prop where
  bare : Bare d
  numQueues : d.numQueues = n

section Rings

variable {d t : SkethDev} {n : ℤ}

/-- With an array of rings, the index is inside exactly when there is a ring for every queue of the core. -/
theorem HasRings.selectsInside_iff (h : HasRings n d) : SelectsInside d ↔ skethMaxNumQueues ≤ n := by
  obtain ⟨rings, hrings, -⟩ := h.bare.tx
  have hmax : skethMaxNumQueues = netdevTxQueues := rfl
  rw [hmax]
  constructor
  · intro hinside
    by_contra hfew
    -- A packet of one byte, mapped to the last queue of the core.
    obtain ⟨ring, hring⟩ := hinside ⟨0, 1, 0, false, false⟩ 15 (by decide)
    have hout : ¬ ((15 : ℕ) : ℤ) < d.numQueues := by
      rw [h.numQueues]
      change ¬ (16 : ℤ) ≤ n at hfew
      omega
    rw [skbTxRing, if_neg (by decide), txQueue, hrings] at hring
    simp only [if_neg hout] at hring
    cases hring
  · intro hmany skb queueMapping hq
    rw [skbTxRing]
    split
    · exact ⟨none, rfl⟩
    · have hin : (queueMapping : ℤ) < d.numQueues := by
        rw [h.numQueues]
        omega
      simp only [txQueue, hrings, if_pos hin]
      exact ⟨_, rfl⟩

/-- A function that leaves the adapter bare with as many queues leaves the rings. -/
theorem HasRings.framed (h : HasRings n d) (ht : Framed d t) (hbare : Bare t) : HasRings n t :=
  ⟨hbare, ht.numQueues.trans h.numQueues⟩

/-- `sketh_stop` leaves the rings. -/
theorem HasRings.stopped (h : HasRings n d) : HasRings n (d.setDown true).skethFreeIrqs := by
  obtain ⟨ledger, heq⟩ := skethFreeIrqs_eq (d.setDown true)
  exact ⟨h.bare.skethStop.2, (congrArg SkethDev.numQueues heq).trans h.numQueues⟩

/-- The end of the probe leaves the rings. -/
theorem HasRings.skethRegistered (h : HasRings n d) (env : ProbeEnv) : HasRings n (d.skethRegistered env) := by
  unfold SkethDev.skethRegistered
  simp only
  split
  · exact ⟨h.bare.of_eq rfl rfl rfl h.bare.log, h.numQueues⟩
  · exact ⟨h.bare.of_eq rfl rfl rfl h.bare.log, h.numQueues⟩

/-- A probe that succeeds behind `alloc_etherdev_mqs` has a ring for each queue that the parameter asks for, as far
as there may be so many. -/
theorem skethProbeQueues_rings {env : ProbeEnv} {ledger : SkethLedger}
    (h : (skethAlloced .pci env ledger).skethProbeQueues env = .ok (t, 0)) :
    HasRings (min env.numQueues skethMaxNumQueues) t := by
  have hpos := numQueues_pos_iff .pci env ledger
  unfold skethProbeQueues at h
  by_cases hboth : env.rxRing = true ∧ env.txRing = true ∧ 0 < env.numQueues
  swap
  · have hfails := (skethAllocQueues_fails (d := skethAlloced .pci env ledger) env.rxRing env.txRing
      (by rwa [hpos])).1
    simp only [hfails, Errno.enomem] at h
    cases h
  · obtain ⟨hrx, htx, hqueues⟩ := hboth
    rw [hrx, htx, skethAllocQueues_both (hpos.mpr hqueues)] at h
    simp only [ne_eq, not_true_eq_false, if_false] at h
    split at h
    · simp only [Errno.enomem] at h
      cases h
    · obtain ⟨u, hu, h⟩ := Fallible.bind_eq_ok h
      have hbare := bare_zeroed (d := { (skethAlloced .pci env ledger) with
        rxRing := some fun _ => .zeroed skethRxMaxDesc
        txRing := some fun _ => .zeroed skethTxMaxDesc
        msixEntries := some fun _ => 0
        ledger := .acquire .msixEntries :: .acquire .txRing :: .acquire .rxRing :: .acquire .netdev :: ledger })
        (hpos.mpr hqueues) rfl rfl (skethAlloced_log .pci env [])
      obtain ⟨-, hkept⟩ := (hbare.skethConfigure env.alloc).of_ok hu
      split at h
      · next hregister => exact absurd (Prod.mk.inj (Except.ok.inj h)).2 hregister
      · cases h
        exact HasRings.skethRegistered ⟨hkept.bare, hkept.framed.numQueues⟩ env

/-- A probe that succeeds has these rings. -/
theorem skethProbe_rings {env : ProbeEnv} (h : skethProbe env = .ok (t, 0)) :
    HasRings (min env.numQueues skethMaxNumQueues) t := by
  unfold skethProbe at h
  simp only at h
  split at h
  · next henable =>
    exact absurd (Prod.mk.inj (Except.ok.inj h)).2 henable
  · split at h
    · next hregions =>
      exact absurd (Prod.mk.inj (Except.ok.inj h)).2 hregions
    · split at h
      · simp only [Errno.enomem] at h
        cases h
      · exact skethProbeQueues_rings h

end Rings

end SkethDev

open SkethDev

/-- A device that was probed has its rings until it is removed. -/
structure RingsInv (n : ℤ) (s : SkethSystem) : Prop where
  probed : s.phase ≠ .unbound
  rings : s.phase = .bound → HasRings n s.dev

section Runs

variable {n : ℤ} {s : SkethSystem} {β : Type}

/-- A call with a specification keeps the rings; one that faults leaves the device as it is. -/
theorem RingsInv.settled (h : RingsInv n s) {result : Except SkethFault β} {cond : Prop} {post : β → Prop}
    {next : β → SkethSystem} (hspec : Fallible result cond post) (hnext : ∀ b, post b → RingsInv n (next b)) :
    RingsInv n (s.settle result next) := by
  obtain ⟨-, b, rfl, hb⟩ | ⟨-, f, rfl⟩ := hspec
  · exact hnext b hb
  · exact ⟨h.probed, h.rings⟩

/-- The rings of a device after a call that left it bare. -/
theorem RingsInv.framed (h : RingsInv n s) (hbound : s.phase = .bound) {t : SkethSystem}
    (hphase : t.phase = s.phase) (hframed : Framed s.dev t.dev) (hbare : Bare t.dev) : RingsInv n t :=
  ⟨hphase ▸ h.probed, fun _ => (h.rings hbound).framed hframed hbare⟩

/-- Every call keeps the rings of a device that was probed. -/
theorem RingsInv.perform (h : RingsInv n s) {call : SkethCall} (hpermits : s.Permits call) :
    RingsInv n (s.perform call) := by
  cases call with
  | probe bus env => exact absurd hpermits h.probed
  | «open» env =>
    obtain ⟨hbound, -, -⟩ := hpermits
    exact h.settled ((h.rings hbound).bare.skethOpen env) fun r hr => h.framed hbound rfl hr.framed hr.bare
  | stop =>
    obtain ⟨hbound, -⟩ := hpermits
    change RingsInv n (s.settle _ _)
    rw [(h.rings hbound).bare.skethStop.1]
    exact ⟨h.probed, fun _ => (h.rings hbound).stopped⟩
  | suspend =>
    obtain ⟨hbound, -, -⟩ := hpermits
    change RingsInv n (s.settle _ _)
    split
    · rw [(h.rings hbound).bare.skethStop.1]
      exact ⟨h.probed, fun _ => (h.rings hbound).stopped⟩
    · exact ⟨h.probed, h.rings⟩
  | resume env =>
    obtain ⟨hbound, -⟩ := hpermits
    change RingsInv n (s.settle _ _)
    split
    · exact h.settled ((h.rings hbound).bare.skethOpen env) fun r hr => h.framed hbound rfl hr.framed hr.bare
    · exact ⟨h.probed, h.rings⟩
  | startXmit q skb dma =>
    obtain ⟨hbound, -⟩ := hpermits
    exact h.settled ((h.rings hbound).bare.startXmit_fresh q skb dma) fun d hd =>
      h.framed hbound rfl hd.framed hd.bare
  | napiPoll q call =>
    obtain ⟨hbound, -, hq⟩ := hpermits
    exact h.settled ((h.rings hbound).bare.skethNapiPoll hq call) fun d hd =>
      h.framed hbound rfl hd.framed hd.bare
  | remove =>
    obtain ⟨t, ht⟩ := (h.rings hpermits).bare.remove s.running
    change RingsInv n (s.settle _ _)
    rw [ht]
    exact ⟨by simp [SkethSystem.settle], by simp [SkethSystem.settle]⟩

end Runs

/-- **Queue selection.** After a probe that succeeds, in every state until the device is removed, every packet that
the core may hand over selects a ring inside the array exactly when the parameter asks for as many queues as the
network device has. -/
theorem queueSelection_iff {env : ProbeEnv} {d : SkethDev} (hprobe : skethProbe env = .ok (d, 0))
    (calls : List SkethCall) :
    skethMachine.Always (fun s => s.phase = .bound → SelectsInside s.dev) skethUnbound (.probe .pci env :: calls) ↔
      skethMaxNumQueues ≤ env.numQueues := by
  have hrings := skethProbe_rings hprobe
  have hmax : skethMaxNumQueues ≤ min env.numQueues skethMaxNumQueues ↔ skethMaxNumQueues ≤ env.numQueues := by
    omega
  have hfirst : skethMachine.step skethUnbound (.probe .pci env) =
      some (skethUnbound.skethProbe .pci env) := rfl
  have hbound : skethUnbound.skethProbe .pci env = { skethUnbound with dev := d, phase := .bound } := by
    change skethUnbound.settle (SkethDev.skethProbe env) _ = _
    rw [hprobe]
    rfl
  rw [hbound] at hfirst
  rw [← hmax, ← hrings.selectsInside_iff]
  constructor
  · intro h
    exact (h.2 _ hfirst).head skethMachine rfl
  · intro hinside
    refine ⟨by simp [skethUnbound], fun t ht => ?_⟩
    obtain rfl := Option.some.inj (hfirst.symm.trans ht)
    have hinit : RingsInv (min env.numQueues skethMaxNumQueues)
        { skethUnbound with dev := d, phase := .bound } := ⟨by simp, fun _ => hrings⟩
    have hstep : ∀ s call t, RingsInv (min env.numQueues skethMaxNumQueues) s →
        skethMachine.step s call = some t → RingsInv (min env.numQueues skethMaxNumQueues) t := by
      intro s call t hs ht
      obtain ⟨-, hpermits, rfl⟩ := skethMachine_step ht
      exact hs.perform hpermits
    refine (skethMachine.always_of_step hstep hinit calls).mono _ fun s hs hphase => ?_
    exact (hs.rings hphase).selectsInside_iff.mpr (hrings.selectsInside_iff.mp hinside)

/-- A module parameter of sixteen queues, and a kernel that refuses every buffer. -/
def probeSixteen : ProbeEnv := { probeStarved with numQueues := 16 }

/-- Sixteen queues are enough. -/
theorem queueSelection_sixteen : ∃ d, skethProbe probeSixteen = .ok (d, 0) ∧
    (skethMachine.Always (fun s => s.phase = .bound → SelectsInside s.dev) skethUnbound
      [.probe .pci probeSixteen] ↔ skethMaxNumQueues ≤ probeSixteen.numQueues) :=
  ⟨_, rfl, queueSelection_iff rfl []⟩

/-- A probe with the default of four queues: the core may choose the queue 4, which has no ring. -/
theorem not_selectsInside : ¬ ∀ env d, skethProbe env = .ok (d, 0) → SelectsInside d := by
  intro h
  obtain ⟨d, hd⟩ : ∃ d, skethProbe probeStarved = .ok (d, 0) := ⟨_, rfl⟩
  exact absurd ((skethProbe_rings hd).selectsInside_iff.mp (h probeStarved d hd)) (by decide)

end LinuxFunctionTest.Sketh
