import LinuxFunctionTest.Sketh.Bare

/-!
# The outcome of a probe

A probe that succeeds leaves a bare adapter with what it acquired in the ledger. A probe that fails has
released everything, except for a ring array that `sketh_alloc_queues` got without the other one:
`err_alloc_queues` lies behind the call of `sketh_free_queues`.
-/

namespace LinuxFunctionTest.Sketh

open Ledger

namespace SkethDev

/-- The probe gets as far as `sketh_configure`. -/
def ProbeReaches (bus : SkethBus) (env : ProbeEnv) : Prop :=
  env.allocEtherdev = true ∧ env.rxRing = true ∧ env.txRing = true ∧ 0 < env.numQueues ∧
    match bus with
    | .pci => env.enableDevice = 0 ∧ env.requestRegions = 0 ∧ env.msixEntries = true
    | .platform => env.getResource = true ∧ env.ioremap = 0

/-- A probe finds its objects: where it configures the rings, no buffer is there. -/
def ProbeFinds (bus : SkethBus) (env : ProbeEnv) : Prop :=
  ProbeReaches bus env → FirstAllocsFail (min env.numQueues skethMaxNumQueues) env.alloc

/-- The ledger of a probe up to `register_netdev`, newest first. -/
def probeLedger : SkethBus → SkethLedger
  | .pci => [.acquire .msixEntries, .acquire .txRing, .acquire .rxRing, .acquire .netdev,
      .acquire .regions, .acquire .pciDevice]
  | .platform => [.acquire .ioremap, .acquire .txRing, .acquire .rxRing, .acquire .netdev]

/-- `msix_entries` behind a probe. -/
def probeMsix : SkethBus → Option (ℕ → ℕ)
  | .pci => some fun _ => 0
  | .platform => none

/-- A device that was probed: bare, up, and with what its probe acquired. -/
structure Probed (bus : SkethBus) (d : SkethDev) : Prop where
  bare : Bare d
  onBus : d.bus = bus
  msixEntries : d.msixEntries = probeMsix bus
  devRegistered : d.devRegistered = true
  down : d.adapter.down = false
  ledger : d.ledger = .acquire .registration :: probeLedger bus ∨
    d.ledger = .acquire .hook :: .acquire .registration :: probeLedger bus

/-- The outcome of a probe. A failed one has released everything, but for a ring array that was
allocated without the other. -/
structure ProbeOutcome (bus : SkethBus) (env : ProbeEnv) (r : SkethDev × ℤ) : Prop where
  bound : r.2 = 0 → Probed bus r.1 ∧ ¬ HalfRings bus env
  failed : r.2 ≠ 0 → (Settled r.1.ledger ↔ ¬ HalfRings bus env) ∧ KfreeOnly r.1.adapter.log

variable {bus : SkethBus} {env : ProbeEnv} {d t : SkethDev}

/-- A probe that failed. -/
theorem ProbeOutcome.of_failed {r : SkethDev × ℤ} (herr : r.2 ≠ 0) (ledger : SkethLedger)
    (hledger : r.1.ledger = ledger) (hsettled : Settled ledger ↔ ¬ HalfRings bus env)
    (hlog : KfreeOnly r.1.adapter.log) : ProbeOutcome bus env r :=
  ⟨fun hzero => absurd hzero herr, fun _ => ⟨hledger ▸ hsettled, hlog⟩⟩

/-- The end of both probes. -/
theorem Kept.registered (ht : Kept d t) (hbus : d.bus = bus) (hmsix : d.msixEntries = probeMsix bus)
    (hdown : d.adapter.down = false) (hledger : d.ledger = probeLedger bus) (env : ProbeEnv) :
    Probed bus (t.skethRegistered env) := by
  have hledger' : t.ledger = probeLedger bus := ht.ledger.trans hledger
  have hbare : Bare { t.acquire .registration with devRegistered := true } :=
    ht.bare.of_eq rfl rfl rfl ht.bare.log
  unfold skethRegistered
  simp only
  split
  · exact ⟨hbare.of_eq rfl rfl rfl ht.bare.log, ht.framed.bus.trans hbus,
      ht.framed.msixEntries.trans hmsix, rfl, ht.framed.down.trans hdown,
      Or.inr (by simp [acquire, hledger'])⟩
  · exact ⟨hbare, ht.framed.bus.trans hbus, ht.framed.msixEntries.trans hmsix, rfl,
      ht.framed.down.trans hdown, Or.inl (by simp [acquire, hledger'])⟩

/-- The end of both probes: `register_netdev` succeeds, or what was acquired is given back. -/
theorem Kept.probe_end (ht : Kept d t) (hbus : d.bus = bus) (hmsix : d.msixEntries = probeMsix bus)
    (hdown : d.adapter.down = false) (hledger : d.ledger = probeLedger bus)
    (hhalf : ¬ HalfRings bus env) {u : SkethDev} (undone : List SkethResource)
    (hundone : u.ledger = undone.map .release ++ t.ledger) (hadapter : u.adapter = t.adapter)
    (hsettled : Settled (undone.map .release ++ probeLedger bus)) :
    Fallible (if env.registerNetdev ≠ 0 then .ok (u, env.registerNetdev)
      else .ok (t.skethRegistered env, 0) : Except SkethFault (SkethDev × ℤ)) True
      (ProbeOutcome bus env) := by
  by_cases hregister : env.registerNetdev = 0
  · rw [if_neg (not_not.mpr hregister)]
    exact Fallible.ok ⟨fun _ => ⟨ht.registered hbus hmsix hdown hledger env, hhalf⟩, fun h => absurd rfl h⟩
  · rw [if_pos hregister]
    rw [ht.ledger, hledger] at hundone
    have hlog : KfreeOnly u.adapter.log := hadapter ▸ ht.bare.log
    exact Fallible.ok (.of_failed hregister _ hundone (iff_of_true hsettled hhalf) hlog)

/-- `sketh_alloc_queues` with both arrays. -/
theorem skethAllocQueues_both (hqueues : 0 < d.numQueues) : d.skethAllocQueues true true =
    ({ d with
      rxRing := some fun _ => .zeroed skethRxMaxDesc
      txRing := some fun _ => .zeroed skethTxMaxDesc
      ledger := .acquire .txRing :: .acquire .rxRing :: d.ledger }, 0) := by
  simp [skethAllocQueues, vzalloc, hqueues, acquire]

/-- `sketh_alloc_queues` without one of the arrays fails, and keeps the other. -/
theorem skethAllocQueues_fails (rxOk txOk : Bool)
    (h : ¬ (rxOk = true ∧ txOk = true ∧ 0 < d.numQueues)) :
    (d.skethAllocQueues rxOk txOk).2 = -Errno.enomem ∧
      (d.skethAllocQueues rxOk txOk).1.adapter = d.adapter ∧
      (d.skethAllocQueues rxOk txOk).1.ledger =
        if 0 < d.numQueues ∧ rxOk = true then .acquire .rxRing :: d.ledger
        else if 0 < d.numQueues ∧ txOk = true then .acquire .txRing :: d.ledger
        else d.ledger := by
  by_cases hqueues : 0 < d.numQueues
  · cases rxOk <;> cases txOk <;> simp_all [skethAllocQueues, vzalloc, acquire]
  · simp [skethAllocQueues, vzalloc, hqueues]

/-- Both arrays and zeroed rings make a bare adapter. -/
theorem bare_zeroed (hqueues : 0 < d.numQueues) (hrx : d.rxRing = some fun _ => .zeroed skethRxMaxDesc)
    (htx : d.txRing = some fun _ => .zeroed skethTxMaxDesc)
    (hlog : KfreeOnly d.adapter.log) : Bare d where
  queues := hqueues
  rx := ⟨_, hrx, fun _ => ⟨rfl, rfl, rfl, rfl⟩⟩
  tx := ⟨_, htx, fun _ => ⟨rfl, rfl, rfl⟩⟩
  log := hlog

/-- Nothing was done to a buffer in a new adapter. -/
theorem skethAlloced_log (bus : SkethBus) (env : ProbeEnv) (ledger : SkethLedger) :
    KfreeOnly (skethAlloced bus env ledger).adapter.log :=
  fun _ he => absurd he List.not_mem_nil

/-- `sketh_free_queues` on a bare adapter. -/
theorem Bare.skethFreeQueues (h : Bare d) : d.skethFreeQueues =
    { d with rxRing := none, txRing := none, ledger := .release .txRing :: .release .rxRing :: d.ledger } := by
  obtain ⟨rx, hrx, -⟩ := h.rx
  obtain ⟨tx, htx, -⟩ := h.tx
  simp [SkethDev.skethFreeQueues, hrx, htx, release]

/-- The queues of an adapter are there when the parameter asks for some. -/
theorem numQueues_pos_iff (bus : SkethBus) (env : ProbeEnv) (ledger : SkethLedger) :
    0 < (skethAlloced bus env ledger).numQueues ↔ 0 < env.numQueues := by
  change 0 < min env.numQueues 16 ↔ _
  omega

/-- A probe does not end up with one ring array only when it gets both, or cannot get any. -/
theorem not_halfRings (h : env.rxRing = env.txRing ∨ ¬ 0 < env.numQueues) : ¬ HalfRings bus env := by
  rintro ⟨-, -, hqueues, hne⟩
  exact h.elim hne fun hno => hno hqueues

/-- What `sketh_alloc_queues` leaves behind when it fails is what the failed probe leaves behind. -/
theorem skethAllocQueues_half {env : ProbeEnv} (hnetdev : env.allocEtherdev = true)
    (hbus : bus = .pci → env.enableDevice = 0 ∧ env.requestRegions = 0) (before : SkethLedger)
    (h : ¬ (env.rxRing = true ∧ env.txRing = true ∧ 0 < env.numQueues)) :
    KfreeOnly ((skethAlloced bus env before).skethAllocQueues env.rxRing env.txRing).1.adapter.log ∧
      ((HalfRings bus env ∧ ∃ r, (r = .rxRing ∨ r = .txRing) ∧
        ((skethAlloced bus env before).skethAllocQueues env.rxRing env.txRing).1.ledger =
          .acquire r :: .acquire .netdev :: before) ∨
        (¬ HalfRings bus env ∧
          ((skethAlloced bus env before).skethAllocQueues env.rxRing env.txRing).1.ledger =
            .acquire .netdev :: before)) := by
  have hpos := numQueues_pos_iff bus env before
  obtain ⟨-, hadapter, hledger⟩ := skethAllocQueues_fails (d := skethAlloced bus env before)
    env.rxRing env.txRing (by rwa [hpos])
  refine ⟨hadapter ▸ skethAlloced_log bus env before, ?_⟩
  rw [hledger]
  simp only [hpos]
  by_cases hqueues : 0 < env.numQueues
  · cases hrx : env.rxRing with
    | true =>
      have htx : env.txRing = false := by
        by_contra htx
        exact h ⟨hrx, by simpa using htx, hqueues⟩
      exact Or.inl ⟨⟨hnetdev, hbus, hqueues, by simp [hrx, htx]⟩, .rxRing, Or.inl rfl,
        by simp [hqueues, skethAlloced]⟩
    | false =>
      cases htx : env.txRing with
      | true => exact Or.inl ⟨⟨hnetdev, hbus, hqueues, by simp [hrx, htx]⟩, .txRing, Or.inr rfl,
          by simp [hqueues, skethAlloced]⟩
      | false => exact Or.inr ⟨not_halfRings (Or.inl (hrx.trans htx.symm)), by simp [skethAlloced]⟩
  · exact Or.inr ⟨not_halfRings (Or.inr hqueues), by simp [hqueues, skethAlloced]⟩

/-- A probe whose `sketh_alloc_queues` failed keeps the ring array that was allocated alone. -/
theorem ProbeOutcome.of_allocQueues {env : ProbeEnv} (hnetdev : env.allocEtherdev = true)
    (hbus : bus = .pci → env.enableDevice = 0 ∧ env.requestRegions = 0) (before : SkethLedger)
    (h : ¬ (env.rxRing = true ∧ env.txRing = true ∧ 0 < env.numQueues)) (undone : List SkethResource)
    (hadapter : t.adapter =
      ((skethAlloced bus env before).skethAllocQueues env.rxRing env.txRing).1.adapter)
    (hledger : t.ledger = undone.map .release ++
      ((skethAlloced bus env before).skethAllocQueues env.rxRing env.txRing).1.ledger)
    (hnone : Settled (undone.map .release ++ .acquire .netdev :: before))
    (hone : ∀ r, r = .rxRing ∨ r = .txRing →
      ¬ Settled (undone.map .release ++ .acquire r :: .acquire .netdev :: before)) :
    ProbeOutcome bus env (t, -Errno.enomem) := by
  obtain ⟨hlog, hcases⟩ := skethAllocQueues_half hnetdev hbus before h
  rw [← hadapter] at hlog
  have herr : -Errno.enomem ≠ 0 := by simp [Errno.enomem]
  rcases hcases with ⟨hhalf, r, hr, hkept⟩ | ⟨hhalf, hkept⟩
  · rw [hkept] at hledger
    exact .of_failed herr _ hledger (iff_of_false (hone r hr) (not_not.mpr hhalf)) hlog
  · rw [hkept] at hledger
    exact .of_failed herr _ hledger (iff_of_true hnone hhalf) hlog

/-- `sketh_probe` behind `alloc_etherdev_mqs`. -/
theorem skethProbeQueues_spec (henable : env.enableDevice = 0) (hregions : env.requestRegions = 0)
    (hnetdev : env.allocEtherdev = true) :
    Fallible ((skethAlloced .pci env [.acquire .regions, .acquire .pciDevice]).skethProbeQueues env)
      (ProbeFinds .pci env) (ProbeOutcome .pci env) := by
  have hpos := numQueues_pos_iff .pci env [.acquire .regions, .acquire .pciDevice]
  have hbus : SkethBus.pci = .pci → env.enableDevice = 0 ∧ env.requestRegions = 0 :=
    fun _ => ⟨henable, hregions⟩
  unfold skethProbeQueues
  by_cases hboth : env.rxRing = true ∧ env.txRing = true ∧ 0 < env.numQueues
  swap
  · have hfails := (skethAllocQueues_fails (d := skethAlloced .pci env
      [.acquire .regions, .acquire .pciDevice]) env.rxRing env.txRing (by rwa [hpos])).1
    rw [← Prod.eta ((skethAlloced .pci env [.acquire .regions, .acquire .pciDevice]).skethAllocQueues
      env.rxRing env.txRing), hfails]
    refine Or.inl ⟨fun hreach => absurd ⟨hreach.2.1, hreach.2.2.1, hreach.2.2.2.1⟩ hboth, _,
      if_pos (by simp [Errno.enomem]), ?_⟩
    refine .of_allocQueues hnetdev hbus _ hboth [.pciDevice, .regions, .netdev] rfl rfl (by decide) ?_
    rintro r (rfl | rfl) <;> decide
  · obtain ⟨hrx, htx, hqueues⟩ := hboth
    have hhalf : ¬ HalfRings .pci env := not_halfRings (Or.inl (hrx.trans htx.symm))
    rw [hrx, htx, skethAllocQueues_both (hpos.mpr hqueues)]
    simp only [ne_eq, not_true_eq_false, if_false]
    cases hmsix : env.msixEntries with
    | false =>
      refine Or.inl ⟨fun hreach => absurd (hmsix.symm.trans hreach.2.2.2.2.2.2) (by simp), _,
        if_pos (by simp [vzalloc]), ?_⟩
      exact .of_failed (by simp [Errno.enomem]) [.release .pciDevice, .release .regions,
        .release .netdev, .release .txRing, .release .rxRing, .acquire .txRing, .acquire .rxRing,
        .acquire .netdev, .acquire .regions, .acquire .pciDevice] rfl
        (iff_of_true (by decide) hhalf) (skethAlloced_log .pci env [])
    | true =>
      have hvzalloc : vzalloc true (skethAlloced .pci env
          [.acquire .regions, .acquire .pciDevice]).numQueues = true := by
        simp [vzalloc, hpos, hqueues]
      rw [if_neg (by simp [hvzalloc])]
      have hbare := bare_zeroed (d := { (skethAlloced .pci env
          [.acquire .regions, .acquire .pciDevice]) with
        rxRing := some fun _ => .zeroed skethRxMaxDesc
        txRing := some fun _ => .zeroed skethTxMaxDesc
        msixEntries := some fun _ => 0
        ledger := probeLedger .pci }) (hpos.mpr hqueues) rfl rfl (skethAlloced_log .pci env [])
      refine ((hbare.skethConfigure env.alloc).bind True ?_).mono ?_ fun _ => id
      · intro t ht
        have hfree := (ht.bare.withLedger (.release .msixEntries :: t.ledger)).skethFreeQueues
        have hsettled : Settled (([.pciDevice, .regions, .netdev, .txRing, .rxRing,
            .msixEntries] : List SkethResource).map .release ++ probeLedger .pci) := by decide
        refine ht.probe_end rfl rfl rfl rfl hhalf _ ?_ ?_ hsettled
        · change _ :: _ :: _ :: ((t.release .msixEntries).skethFreeQueues).ledger = _
          rw [release, hfree]
          rfl
        · change ((t.release .msixEntries).skethFreeQueues).adapter = _
          rw [release, hfree]
      · constructor
        · exact fun h _ => h.1
        · exact fun h => ⟨h ⟨hnetdev, hrx, htx, hqueues, henable, hregions, hmsix⟩, trivial⟩

/-- `sketh_probe`. -/
theorem skethProbe_spec (env : ProbeEnv) :
    Fallible (skethProbe env) (ProbeFinds .pci env) (ProbeOutcome .pci env) := by
  unfold skethProbe
  by_cases henable : env.enableDevice = 0
  swap
  · refine Or.inl ⟨fun hreach => absurd hreach.2.2.2.2.1 henable, _, if_pos henable, ?_⟩
    exact .of_failed henable [] rfl (iff_of_true (by decide) fun h => henable (h.2.1 rfl).1)
      (skethAlloced_log .pci env [])
  rw [if_neg (not_not.mpr henable)]
  by_cases hregions : env.requestRegions = 0
  swap
  · refine Or.inl ⟨fun hreach => absurd hreach.2.2.2.2.2.1 hregions, _, if_pos hregions, ?_⟩
    exact .of_failed hregions [.release .pciDevice, .acquire .pciDevice] rfl
      (iff_of_true (by decide) fun h => hregions (h.2.1 rfl).2) (skethAlloced_log .pci env [])
  simp only [hregions, ne_eq, not_true_eq_false, if_false]
  cases hnetdev : env.allocEtherdev with
  | false =>
    refine Or.inl ⟨fun hreach => absurd (hnetdev.symm.trans hreach.1) (by simp), _, rfl, ?_⟩
    refine .of_failed (by simp [Errno.enomem]) [.release .pciDevice, .release .regions,
      .acquire .regions, .acquire .pciDevice] rfl (iff_of_true (by decide) fun h => ?_)
      (skethAlloced_log .pci env [])
    exact absurd (hnetdev.symm.trans h.1) (by simp)
  | true => exact skethProbeQueues_spec henable hregions hnetdev

/-- `sketh_platform_probe` behind `alloc_etherdev_mqs`. -/
theorem skethPlatformProbeQueues_spec (hnetdev : env.allocEtherdev = true) :
    Fallible ((skethAlloced .platform env []).skethPlatformProbeQueues env)
      (ProbeFinds .platform env) (ProbeOutcome .platform env) := by
  have hpos := numQueues_pos_iff .platform env []
  unfold skethPlatformProbeQueues
  by_cases hboth : env.rxRing = true ∧ env.txRing = true ∧ 0 < env.numQueues
  swap
  · have hfails := (skethAllocQueues_fails (d := skethAlloced .platform env []) env.rxRing
      env.txRing (by rwa [hpos])).1
    rw [← Prod.eta ((skethAlloced .platform env []).skethAllocQueues env.rxRing env.txRing), hfails]
    refine Or.inl ⟨fun hreach => absurd ⟨hreach.2.1, hreach.2.2.1, hreach.2.2.2.1⟩ hboth, _,
      if_pos (by simp [Errno.enomem]), ?_⟩
    refine .of_allocQueues hnetdev (fun h => absurd h (by simp)) _ hboth [.netdev] rfl rfl (by decide) ?_
    rintro r (rfl | rfl) <;> decide
  obtain ⟨hrx, htx, hqueues⟩ := hboth
  have hhalf : ¬ HalfRings .platform env := not_halfRings (Or.inl (hrx.trans htx.symm))
  rw [hrx, htx, skethAllocQueues_both (hpos.mpr hqueues)]
  simp only [ne_eq, not_true_eq_false, if_false]
  cases hresource : env.getResource with
  | false =>
    refine Or.inl ⟨fun hreach => absurd (hresource.symm.trans hreach.2.2.2.2.1) (by simp), _, rfl, ?_⟩
    exact .of_failed (by simp [Errno.enodev]) [.release .netdev, .release .txRing, .release .rxRing,
      .acquire .txRing, .acquire .rxRing, .acquire .netdev] rfl (iff_of_true (by decide) hhalf)
      (skethAlloced_log .platform env [])
  | true =>
  simp only [Bool.not_true, Bool.false_eq_true, if_false]
  by_cases hioremap : env.ioremap = 0
  swap
  · refine Or.inl ⟨fun hreach => absurd hreach.2.2.2.2.2 hioremap, _, if_pos hioremap, ?_⟩
    exact .of_failed hioremap [.release .netdev, .release .txRing, .release .rxRing,
      .acquire .txRing, .acquire .rxRing, .acquire .netdev] rfl (iff_of_true (by decide) hhalf)
      (skethAlloced_log .platform env [])
  rw [if_neg (not_not.mpr hioremap)]
  have hbare := bare_zeroed (d := { skethAlloced .platform env [] with
    rxRing := some fun _ => .zeroed skethRxMaxDesc
    txRing := some fun _ => .zeroed skethTxMaxDesc
    ledger := probeLedger .platform }) (hpos.mpr hqueues) rfl rfl (skethAlloced_log .platform env [])
  refine ((hbare.skethConfigure env.alloc).bind True ?_).mono ?_ fun _ => id
  · intro t ht
    have hfree := (ht.bare.withLedger (.release .ioremap :: t.ledger)).skethFreeQueues
    have hsettled : Settled (([.netdev, .txRing, .rxRing, .ioremap] : List SkethResource).map
        .release ++ probeLedger .platform) := by decide
    refine ht.probe_end rfl rfl rfl rfl hhalf _ ?_ ?_ hsettled
    · change _ :: ((t.release .ioremap).skethFreeQueues).ledger = _
      rw [release, hfree]
      rfl
    · change ((t.release .ioremap).skethFreeQueues).adapter = _
      rw [release, hfree]
  · constructor
    · exact fun h _ => h.1
    · exact fun h => ⟨h ⟨hnetdev, hrx, htx, hqueues, hresource, hioremap⟩, trivial⟩

/-- `sketh_platform_probe`. -/
theorem skethPlatformProbe_spec (env : ProbeEnv) :
    Fallible (skethPlatformProbe env) (ProbeFinds .platform env) (ProbeOutcome .platform env) := by
  unfold skethPlatformProbe
  cases hnetdev : env.allocEtherdev with
  | false =>
    refine Or.inl ⟨fun hreach => absurd (hnetdev.symm.trans hreach.1) (by simp), _, rfl, ?_⟩
    refine .of_failed (by simp [Errno.enomem]) [] rfl (iff_of_true (by decide) fun h => ?_)
      (skethAlloced_log .platform env [])
    exact absurd (hnetdev.symm.trans h.1) (by simp)
  | true => exact skethPlatformProbeQueues_spec hnetdev

/-- The probe of either bus. -/
theorem probe_spec (bus : SkethBus) (env : ProbeEnv) :
    Fallible (probe bus env) (ProbeFinds bus env) (ProbeOutcome bus env) := by
  cases bus with
  | pci => exact skethProbe_spec env
  | platform => exact skethPlatformProbe_spec env

end SkethDev

end LinuxFunctionTest.Sketh
