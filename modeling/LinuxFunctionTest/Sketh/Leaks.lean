import LinuxFunctionTest.Sketh.PointerSafety

/-!
# What an adapter leaves behind

A run without faults ends with everything released, but for two things. `sketh_alloc_queues` can fail
with one ring array allocated, and no label of the probe frees it then. And nobody enables MSI-X, so
every vector is zero, which `sketh_free_irqs` takes for an entry without an interrupt: what a
`sketh_open` requested stays requested. The excess of a resource is what the ledger holds of it
beyond what a bound adapter needs.
-/

namespace LinuxFunctionTest.Sketh

open Ledger

namespace SkethAdapter

/-- Mappings made for a slot so far. -/
def mapped (a : SkethAdapter) : List ℕ :=
  a.log.filterMap fun e => match e with
    | .txMap _ dma _ _ => some dma
    | .rxMap _ dma _ => some dma
    | _ => none

/-- Mappings of a slot removed so far. -/
def unmapped (a : SkethAdapter) : List ℕ :=
  a.log.filterMap fun e => match e with
    | .txUnmap _ dma _ => some dma
    | .rxUnmap _ dma _ => some dma
    | _ => none

end SkethAdapter

/-- Every buffer stored in a slot was disposed of once, and every mapping removed as often as made. -/
structure SlotsReleased (a : SkethAdapter) : Prop where
  buffers : ∀ id ∈ a.txStored ++ a.rxStored, a.freed.count id + a.received.count id = 1
  mappings : ∀ dma ∈ a.mapped, a.unmapped.count dma = a.mapped.count dma

/-- Everything acquired was released, and so was everything that the slots held. -/
structure LeakFree (s : SkethSystem) : Prop where
  ledger : Settled s.dev.ledger
  slots : SlotsReleased s.dev.adapter

/-- An open is granted all its interrupts. -/
def OpenGranted (d : SkethDev) (env : OpenEnv) : Prop :=
  d.adapter.down = false ∧ ∀ q : ℕ, (q : ℤ) < d.numQueues → env.irq q = 0

/-- A call acquires nothing that is never released: a probe gets both ring arrays or none, and an open does not
get all its interrupts. -/
def NoLeak (s : SkethSystem) : SkethCall → Prop
  | .probe bus env => ¬ HalfRings bus env
  | .open env => ¬ OpenGranted s.dev env
  | .resume env => s.running = true → ¬ OpenGranted s.dev env
  | .stop | .suspend | .startXmit _ _ _ | .napiPoll _ _ | .remove => True

/-- Where buffers were only freed, no slot held one. -/
theorem KfreeOnly.slotsReleased {a : SkethAdapter} (h : KfreeOnly a.log) : SlotsReleased a := by
  have hnone : ∀ {β : Type} (f : SkethEvent → Option β), (∀ id, f (.kfree id) = none) →
      a.log.filterMap f = [] := by
    intro β f hf
    refine List.filterMap_eq_nil_iff.mpr fun e he => ?_
    obtain ⟨id, rfl⟩ := h e he
    exact hf id
  have htx : a.txStored = [] := hnone _ fun _ => rfl
  have hrx : a.rxStored = [] := hnone _ fun _ => rfl
  have hmapped : a.mapped = [] := hnone _ fun _ => rfl
  exact ⟨by simp [htx, hrx], by simp [hmapped]⟩

namespace SkethDev

/-- What a bound adapter needs. -/
def held (d : SkethDev) : SkethResource → ℤ
  | .pciDevice | .regions => if d.bus = .pci then 1 else 0
  | .ioremap => if d.bus = .platform then 1 else 0
  | .netdev | .rxRing | .txRing | .registration => 1
  | .msixEntries => if d.msixEntries.isSome then 1 else 0
  | .hook => if .hook ∈ acquired d.ledger then 1 else 0
  | .irq _ | .rxBuffer _ | .txBuffer _ | .rxDesc _ | .txDesc _ => 0

/-- What the ledger holds of a resource beyond that. -/
def excess (d : SkethDev) (r : SkethResource) : ℤ := balance d.ledger r - d.held r

/-- A call on a bound adapter: it adds to the excess of the first interrupt, or leaves every excess as it
was. -/
structure Continues (d t : SkethDev) (leaks : Prop) : Prop where
  devRegistered : t.devRegistered = d.devRegistered
  vectors : t.msixEntries = none ∨ t.msixEntries = d.msixEntries
  log : KfreeOnly t.adapter.log
  same : ¬ leaks → ∀ r, t.excess r = d.excess r
  grows : leaks → d.excess (.irq 0) < t.excess (.irq 0)

section Continues

variable {d t : SkethDev}

/-- An equivalent condition. -/
theorem Continues.congr {p q : Prop} (h : Continues d t p) (hiff : p ↔ q) : Continues d t q where
  devRegistered := h.devRegistered
  vectors := h.vectors
  log := h.log
  same := fun hno => h.same fun hp => hno (hiff.mp hp)
  grows := fun hq => h.grows (hiff.mpr hq)

/-- The hook is held on from its registration. -/
theorem held_hook (h : .hook ∈ acquired t.ledger ↔ .hook ∈ acquired d.ledger) :
    t.held .hook = d.held .hook := by
  simp only [held, h]

/-- Entries that register no hook change the excess by their balance. -/
theorem excess_of_ledger (hbus : t.bus = d.bus) (hmsix : t.msixEntries = d.msixEntries) {l : SkethLedger}
    (hledger : t.ledger = l ++ d.ledger) (hhook : .hook ∉ acquired l) (r : SkethResource) :
    t.excess r = d.excess r + balance l r := by
  have hheld : t.held r = d.held r := by
    cases r with
    | hook =>
      refine held_hook ?_
      rw [mem_acquired] at hhook ⊢
      rw [mem_acquired, hledger, List.mem_append, or_iff_right hhook]
    | pciDevice | regions | ioremap => simp only [held, hbus]
    | msixEntries => simp only [held, hmsix]
    | netdev | rxRing | txRing | registration | irq | rxBuffer | txBuffer | rxDesc | txDesc => rfl
  unfold excess
  rw [hheld, hledger, balance_append]
  omega

/-- The balance of requested interrupts. -/
theorem balance_irqsRequested (n : ℕ) (r : SkethResource) :
    balance (irqsRequested n) r = ((List.range n).map SkethResource.irq).count r := by
  rw [irqsRequested, balance_reverse, ← balance_map_acquire, List.map_map]
  rfl

/-- Interrupts that were given back are in balance. -/
theorem balance_irqsUndone (n : ℕ) (r : SkethResource) : balance (irqsUndone n) r = 0 := by
  have hreleased : (List.range n).map (fun q => LedgerEntry.release (SkethResource.irq q)) =
      ((List.range n).map SkethResource.irq).map .release := by
    rw [List.map_map]
    rfl
  rw [irqsUndone, balance_append, balance_irqsRequested, hreleased, balance_map_release]
  omega

/-- A call that touches no resource. -/
theorem Kept.continues (h : Kept d t) : Continues d t False where
  devRegistered := h.framed.devRegistered
  vectors := Or.inr h.framed.msixEntries
  log := h.bare.log
  same := fun _ r => by
    rw [excess_of_ledger h.framed.bus h.framed.msixEntries (l := []) h.ledger List.not_mem_nil]
    simp
  grows := False.elim

/-- `sketh_open` leaks the interrupts that it was granted. -/
theorem OpenOutcome.continues (hqueues : 0 < d.numQueues) {env : OpenEnv} {r : SkethDev × ℤ}
    (h : OpenOutcome d env r) : Continues d r.1 (OpenGranted d env) := by
  have hexcess := fun l hledger hhook =>
    excess_of_ledger (l := l) h.framed.bus h.framed.msixEntries hledger hhook
  refine ⟨h.framed.devRegistered, Or.inr h.framed.msixEntries, h.bare.log, fun hno s => ?_,
    fun hgranted => ?_⟩
  · rcases h.result with ⟨-, hdown, hall, -⟩ | ⟨-, -, n, hledger⟩
    · exact absurd ⟨hdown, hall⟩ hno
    · rw [hexcess _ hledger (by simp [mem_acquired, irqsUndone, irqsRequested]), balance_irqsUndone]
      omega
  · rcases h.result with ⟨-, -, -, hledger⟩ | ⟨-, hrefused, -⟩
    · rw [hexcess _ hledger (by simp [mem_acquired, irqsRequested]), balance_irqsRequested]
      have hfirst : 0 < ((List.range d.numQueues.toNat).map SkethResource.irq).count (.irq 0) := by
        rw [List.count_pos_iff, List.mem_map]
        exact ⟨0, List.mem_range.mpr (by omega), rfl⟩
      omega
    · rcases hrefused with hdown | ⟨q, hq, hne⟩
      · exact absurd (hdown.symm.trans hgranted.1) (by simp)
      · exact absurd (hgranted.2 q hq) hne

/-- `msix_entries`, while it is there. -/
def msixHeld (d : SkethDev) : List SkethResource := if d.msixEntries.isSome then [.msixEntries] else []

/-- It is all that `held` says of `msix_entries`. -/
theorem count_msixHeld (d : SkethDev) (r : SkethResource) :
    ((msixHeld d).count r : ℤ) = if r = .msixEntries then d.held .msixEntries else 0 := by
  unfold msixHeld held
  cases d.msixEntries with
  | none => simp
  | some vectors =>
    by_cases hr : r = .msixEntries
    · simp [hr]
    · simp [hr, Ne.symm hr]

/-- `sketh_free_irqs` passes over every entry when all vectors are zero. -/
theorem skethFreeIrqs_zero (hvectors : ∀ v, d.msixEntries = some v → v = fun _ => 0) :
    d.skethFreeIrqs =
      { d with msixEntries := none, ledger := (msixHeld d).map .release ++ d.ledger } := by
  cases hmsix : d.msixEntries with
  | none =>
    have hledger : (msixHeld d).map .release ++ d.ledger = d.ledger := by simp [msixHeld, hmsix]
    have hsame : d.skethFreeIrqs = d := by simp only [skethFreeIrqs, hmsix]
    rw [hledger, hsame, ← hmsix]
  | some vector =>
    obtain rfl := hvectors vector hmsix
    have hloop : ∀ l : List ℕ, l.foldl (fun d q => if (0 : ℕ) ≠ 0 then d.release (.irq q) else d) d = d :=
      fun l => by induction l with
        | nil => rfl
        | cons q rest ih => exact ih
    simp only [skethFreeIrqs, hmsix, hloop]
    simp [release, msixHeld, hmsix]

/-- Giving `msix_entries` back leaves every excess as it was. -/
theorem excess_of_msixFreed (hbus : t.bus = d.bus) (hmsix : t.msixEntries = none)
    (hledger : t.ledger = (msixHeld d).map .release ++ d.ledger) (r : SkethResource) :
    t.excess r = d.excess r := by
  have hheld : t.held r = d.held r - (msixHeld d).count r := by
    rw [count_msixHeld]
    cases r with
    | hook => simpa using held_hook (by rw [hledger, mem_acquired_map_release])
    | msixEntries => simp [held, hmsix]
    | pciDevice | regions | ioremap => simp only [held, hbus, reduceCtorEq, if_false, Int.sub_zero]
    | netdev | rxRing | txRing | registration | irq | rxBuffer | txBuffer | rxDesc | txDesc => rfl
  unfold excess
  rw [hheld, hledger, balance_append, balance_map_release]
  omega

/-- `sketh_stop` keeps the account. -/
theorem Bare.continues_skethStop (h : Bare d) (hvectors : ∀ v, d.msixEntries = some v → v = fun _ => 0) :
    Continues d (d.setDown true).skethFreeIrqs False := by
  rw [skethFreeIrqs_zero (d := d.setDown true) hvectors]
  exact ⟨rfl, Or.inl rfl, h.log, fun _ => excess_of_msixFreed rfl rfl rfl, False.elim⟩

end Continues

section Remove

variable {bus : SkethBus} {d t : SkethDev}

/-- A probe acquires what a bound adapter needs. -/
theorem Probed.excess (h : Probed bus d) (r : SkethResource) : d.excess r = 0 := by
  unfold SkethDev.excess held
  rw [h.msixEntries, h.onBus]
  rcases h.ledger with hledger | hledger <;> rw [hledger] <;> cases bus <;> cases r <;>
    simp [probeLedger, probeMsix, mem_acquired]

/-- What unregistering gives back: a running interface is closed between the hook and the
registration. -/
def unregistered (d : SkethDev) (running : Bool) : List SkethResource :=
  .registration :: (if running then msixHeld d else []) ++ [.hook]

/-- The unregistering of a bare adapter. -/
theorem Bare.skethUnregister_eq (h : Bare d) (hregistered : d.devRegistered = true)
    (hvectors : ∀ v, d.msixEntries = some v → v = fun _ => 0) (running : Bool) :
    ∃ t, d.skethUnregister running = .ok t ∧ Bare t ∧ t.bus = d.bus ∧
      t.msixEntries = (if running then none else d.msixEntries) ∧
      t.ledger = (unregistered d running).map .release ++ d.ledger := by
  have hbare : Bare (d.release .hook) := h.withLedger _
  unfold SkethDev.skethUnregister
  rw [if_pos hregistered]
  cases running with
  | false => exact ⟨_, rfl, hbare.withLedger _, rfl, rfl, rfl⟩
  | true =>
    have hstop := skethFreeIrqs_zero (d := (d.release .hook).setDown true) hvectors
    refine ⟨((d.release .hook).setDown true).skethFreeIrqs.release .registration, ?_,
      hbare.skethStop.2.withLedger _, ?_, ?_, ?_⟩
    · simp only [if_true, hbare.skethStop.1]
      rfl
    · rw [hstop]
      rfl
    · rw [hstop]
      rfl
    · rw [hstop]
      have hsame : msixHeld ((d.release .hook).setDown true) = msixHeld d := rfl
      simp only [hsame]
      simp [unregistered, SkethDev.release, setDown]

/-- `sketh_remove` frees `msix_entries` if the close has not. -/
theorem release_msixHeld (d : SkethDev) : (if d.msixEntries.isSome then d.release .msixEntries else d) =
    { d with ledger := (msixHeld d).map .release ++ d.ledger } := by
  unfold msixHeld
  split <;> rfl

/-- `msix_entries` is given back once, by the close or behind it. -/
theorem count_unregistered {running : Bool}
    (hmsix : t.msixEntries = if running then none else d.msixEntries) (r : SkethResource) :
    ((msixHeld t).count r : ℤ) + (unregistered d running).count r =
      (if r = .msixEntries then d.held .msixEntries else 0) + [SkethResource.registration, .hook].count r := by
  have hmsixes : (msixHeld t).count r + (if running then msixHeld d else []).count r =
      (msixHeld d).count r := by
    cases running with
    | false => simp [msixHeld, hmsix]
    | true => simp [msixHeld, hmsix]
  have hheld := count_msixHeld d r
  simp only [unregistered, List.cons_append, List.count_cons, List.count_append, List.count_nil]
  omega

/-- `sketh_remove` of a bare adapter releases once what a bound adapter needs, and the hook. -/
theorem Bare.skethRemove_releases (h : Bare d) (hpci : d.bus = .pci) (hregistered : d.devRegistered = true)
    (hvectors : ∀ v, d.msixEntries = some v → v = fun _ => 0) (running : Bool) :
    ∃ (t : SkethDev) (rs : List SkethResource), d.skethRemove running = .ok t ∧
      KfreeOnly t.adapter.log ∧ t.ledger = rs.map .release ++ d.ledger ∧
      ∀ r, (rs.count r : ℤ) = if r = .hook then 1 else d.held r := by
  obtain ⟨t, ht, hbare, -, hmsix, hledger⟩ := h.skethUnregister_eq hregistered hvectors running
  have hfree := hbare.skethFreeQueues
  refine ⟨(({ t.skethFreeQueues with
      ledger := (msixHeld t.skethFreeQueues).map LedgerEntry.release ++ t.skethFreeQueues.ledger
      : SkethDev }.release .netdev).release .regions).release .pciDevice,
    .pciDevice :: .regions :: .netdev :: (msixHeld t ++ .txRing :: .rxRing :: unregistered d running),
    ?_, ?_, ?_, fun r => ?_⟩
  · rw [SkethDev.skethRemove, ht, ← release_msixHeld]
    rfl
  · rw [hfree]
    exact hbare.log
  · rw [hfree]
    simp [SkethDev.release, msixHeld, hledger]
  · have hcount := count_unregistered hmsix r
    cases r <;> simp [held, hpci] at hcount ⊢ <;> omega

/-- `sketh_platform_remove` of a bare adapter releases once what a bound adapter needs, and the hook. -/
theorem Bare.skethPlatformRemove_releases (h : Bare d) (hplatform : d.bus = .platform)
    (hmsix : d.msixEntries = none) (hregistered : d.devRegistered = true) (running : Bool) :
    ∃ (t : SkethDev) (rs : List SkethResource), d.skethPlatformRemove running = .ok t ∧
      KfreeOnly t.adapter.log ∧ t.ledger = rs.map .release ++ d.ledger ∧
      ∀ r, (rs.count r : ℤ) = if r = .hook then 1 else d.held r := by
  have hvectors : ∀ v, d.msixEntries = some v → v = fun _ => 0 := by simp [hmsix]
  obtain ⟨t, ht, hbare, -, hmsix', hledger⟩ := h.skethUnregister_eq hregistered hvectors running
  have hfree := (hbare.withLedger (.release .ioremap :: t.ledger)).skethFreeQueues
  refine ⟨(t.release .ioremap).skethFreeQueues.release .netdev,
    .netdev :: .txRing :: .rxRing :: .ioremap :: unregistered d running, ?_, ?_, ?_, fun r => ?_⟩
  · rw [SkethDev.skethPlatformRemove, ht]
    rfl
  · change KfreeOnly (t.release .ioremap).skethFreeQueues.adapter.log
    rw [SkethDev.release, hfree]
    exact hbare.log
  · change _ :: (t.release .ioremap).skethFreeQueues.ledger = _
    rw [SkethDev.release, hfree, hledger]
    rfl
  · have hnone : msixHeld t = [] := by simp [msixHeld, hmsix', hmsix]
    have hcount := count_unregistered hmsix' r
    rw [hnone] at hcount
    cases r <;> simp [held, hplatform, hmsix] at hcount ⊢ <;> omega

/-- The remove of either bus. -/
theorem Bare.remove_releases (h : Bare d) (hregistered : d.devRegistered = true)
    (hvectors : ∀ v, d.msixEntries = some v → v = fun _ => 0)
    (hplatform : d.bus = .platform → d.msixEntries = none) (running : Bool) :
    ∃ (t : SkethDev) (rs : List SkethResource), d.remove running = .ok t ∧
      KfreeOnly t.adapter.log ∧ t.ledger = rs.map .release ++ d.ledger ∧
      ∀ r, (rs.count r : ℤ) = if r = .hook then 1 else d.held r := by
  unfold SkethDev.remove
  cases hbus : d.bus with
  | pci => exact h.skethRemove_releases hbus hregistered hvectors running
  | platform => exact h.skethPlatformRemove_releases hbus (hplatform hbus) hregistered running

/-- What a remove releases leaves the excess, and a hook that was registered is gone. -/
theorem settled_of_releases {rs : List SkethResource} (hledger : t.ledger = rs.map .release ++ d.ledger)
    (hcount : ∀ r, (rs.count r : ℤ) = if r = .hook then 1 else d.held r) :
    Settled t.ledger ↔ ∀ r ∈ acquired d.ledger, d.excess r = 0 := by
  rw [settled_iff_balance, hledger]
  simp only [mem_acquired_map_release, balance_append, balance_map_release, hcount]
  refine forall₂_congr fun r hr => ?_
  have hheld : (if r = .hook then 1 else d.held r) = d.held r := by
    split
    · next hhook =>
      subst hhook
      simp only [held, if_pos hr]
    · rfl
  rw [hheld, excess]
  omega

end Remove

end SkethDev

open SkethDev

/-- What the ledger says as long as nothing has faulted: a bound adapter has no excess, or one of its first
interrupt. -/
structure LedgerInv (s : SkethSystem) : Prop where
  pointers : PointerInv s
  devRegistered : s.phase = .bound → s.dev.devRegistered = true
  vectors : s.phase = .bound → ∀ v, s.dev.msixEntries = some v → v = fun _ => 0
  account : s.phase = .bound → (∀ r, s.dev.excess r = 0) ∨ 0 < s.dev.excess (.irq 0)
  log : KfreeOnly s.dev.adapter.log

/-- Something will be left, or is. -/
def Leaking (s : SkethSystem) : Prop :=
  (s.phase = .bound ∧ 0 < s.dev.excess (.irq 0)) ∨
    ((s.phase = .failed ∨ s.phase = .removed) ∧ ¬ Settled s.dev.ledger)

section Steps

variable {s t : SkethSystem}

/-- A bound adapter leaks exactly by its first interrupt. -/
theorem leaking_of_bound (h : s.phase = .bound) : Leaking s ↔ 0 < s.dev.excess (.irq 0) := by
  simp [Leaking, h]

/-- A call on a bound adapter keeps the invariant, and leaks as its account says. -/
theorem LedgerInv.continues (h : LedgerInv s) (hbound : s.phase = .bound) {leaks : Prop}
    (ht : PointerInv t) (hphase : t.phase = .bound) (hdev : Continues s.dev t.dev leaks) :
    LedgerInv t ∧ (Leaking t ↔ Leaking s ∨ leaks) := by
  have hvectors : ∀ v, t.dev.msixEntries = some v → v = fun _ => 0 := by
    intro v hv
    rcases hdev.vectors with hnone | hsame
    · exact absurd (hnone.symm.trans hv) (by simp)
    · exact h.vectors hbound v (hsame.symm.trans hv)
  have hinv := fun haccount => (⟨ht, fun _ => hdev.devRegistered.trans (h.devRegistered hbound),
    fun _ => hvectors, fun _ => haccount, hdev.log⟩ : LedgerInv t)
  rw [leaking_of_bound hbound, leaking_of_bound hphase]
  by_cases hleaks : leaks
  · have hgrows := hdev.grows hleaks
    have hpos : 0 < t.dev.excess (.irq 0) := by
      rcases h.account hbound with hclean | hexcess
      · rw [hclean] at hgrows
        exact hgrows
      · omega
    exact ⟨hinv (Or.inr hpos), iff_of_true hpos (Or.inr hleaks)⟩
  · have hsame := hdev.same hleaks
    refine ⟨hinv ?_, by rw [hsame, or_iff_left hleaks]⟩
    rcases h.account hbound with hclean | hexcess
    · exact Or.inl fun r => (hsame r).trans (hclean r)
    · exact Or.inr ((hsame _).symm ▸ hexcess)

/-- The same of a call that may fault, and does not. -/
theorem LedgerInv.settled (h : LedgerInv s) (hbound : s.phase = .bound) {β : Type}
    {result : Except SkethFault β} {next : β → SkethSystem} {leaks : Prop}
    (hpointers : PointerInv (s.settle result next)) (hfault : (s.settle result next).fault = none)
    (hnext : ∀ b, result = .ok b → (next b).phase = .bound ∧ Continues s.dev (next b).dev leaks) :
    LedgerInv (s.settle result next) ∧ (Leaking (s.settle result next) ↔ Leaking s ∨ leaks) := by
  obtain ⟨hphase, hdev⟩ := settle_of_ok (P := fun t => t.phase = .bound ∧ Continues s.dev t.dev leaks)
    hfault hnext
  exact h.continues hbound hpointers hphase hdev

/-- A probe starts the account, or has released everything unless it got one ring array only. -/
theorem LedgerInv.probed (h : s.phase = .unbound) {bus : SkethBus} {env : ProbeEnv} {r : SkethDev × ℤ}
    (hr : ProbeOutcome bus env r) (ht : t.dev = r.1) (hphase : t.phase = if r.2 = 0 then .bound else .failed)
    (hpointers : PointerInv t) : LedgerInv t ∧ (Leaking t ↔ Leaking s ∨ HalfRings bus env) := by
  have hnot : ¬ Leaking s := by simp [Leaking, h]
  rw [or_iff_right hnot]
  by_cases herr : r.2 = 0
  · obtain ⟨hprobed, hhalf⟩ := hr.bound herr
    rw [← ht] at hprobed
    rw [if_pos herr] at hphase
    rw [leaking_of_bound hphase, hprobed.excess]
    refine ⟨⟨hpointers, fun _ => hprobed.devRegistered, fun _ v hv => ?_, fun _ => Or.inl hprobed.excess,
      hprobed.bare.log⟩, iff_of_false (by omega) hhalf⟩
    have hmsix := hprobed.msixEntries.symm.trans hv
    cases bus with
    | pci => exact (Option.some.inj hmsix).symm
    | platform => exact absurd hmsix (by simp [probeMsix])
  · obtain ⟨hsettled, hlog⟩ := hr.failed herr
    rw [← ht] at hsettled hlog
    rw [if_neg herr] at hphase
    exact ⟨⟨hpointers, by simp [hphase], by simp [hphase], by simp [hphase], hlog⟩,
      by simp [Leaking, hphase, hsettled]⟩

/-- A remove settles the account of an adapter without excess. -/
theorem LedgerInv.removed (h : LedgerInv s) (hbound : s.phase = .bound) (ht : s.dev.remove s.running =
    .ok t.dev) (hphase : t.phase = .removed) (hpointers : PointerInv t) :
    LedgerInv t ∧ (Leaking t ↔ Leaking s) := by
  obtain ⟨d, rs, hd, hlog, hledger, hcount⟩ := (h.pointers.bare hbound).remove_releases
    (h.devRegistered hbound) (h.vectors hbound) (h.pointers.platform hbound) s.running
  obtain rfl : t.dev = d := Except.ok.inj (ht.symm.trans hd)
  refine ⟨⟨hpointers, by simp [hphase], by simp [hphase], by simp [hphase], hlog⟩, ?_⟩
  have hleaking : Leaking t ↔ ¬ Settled t.dev.ledger := by simp [Leaking, hphase]
  rw [hleaking, leaking_of_bound hbound, settled_of_releases hledger hcount]
  rcases h.account hbound with hclean | hexcess
  · rw [hclean]
    exact iff_of_false (not_not.mpr fun r _ => hclean r) (by omega)
  · refine iff_of_true (fun hall => ?_) hexcess
    have hacquired : .irq 0 ∈ acquired s.dev.ledger :=
      mem_acquired_of_balance_pos (by simpa [excess, held] using hexcess)
    have hzero := hall _ hacquired
    omega

/-- A step that does not fault keeps the invariant, and leaks exactly when it acquires what is never
released. -/
theorem LedgerInv.perform (h : LedgerInv s) {call : SkethCall} (hpermits : s.Permits call)
    (hfault : (s.perform call).fault = none) :
    LedgerInv (s.perform call) ∧ (Leaking (s.perform call) ↔ Leaking s ∨ ¬ NoLeak s call) := by
  have hpointers : PointerInv (s.perform call) :=
    (h.pointers.perform hpermits).elim And.right fun hbad => absurd hfault hbad.2
  have hbare := h.pointers.bare
  cases call with
  | probe bus env =>
    obtain ⟨r, hr, ht, hphase⟩ : ∃ r, ProbeOutcome bus env r ∧ (s.skethProbe bus env).dev = r.1 ∧
        (s.skethProbe bus env).phase = if r.2 = 0 then .bound else .failed :=
      settle_of_ok (P := fun t => ∃ r, ProbeOutcome bus env r ∧ t.dev = r.1 ∧
          t.phase = if r.2 = 0 then .bound else .failed) hfault
        fun r hr => ⟨r, ((probe_spec bus env).of_ok hr).2, rfl, rfl⟩
    obtain ⟨hinv, hleaking⟩ := LedgerInv.probed hpermits hr ht hphase hpointers
    exact ⟨hinv, hleaking.trans (or_congr_right not_not.symm)⟩
  | «open» env =>
    obtain ⟨hbound, -, -⟩ := hpermits
    refine h.settled hbound hpointers hfault fun r hr => ⟨hbound, ?_⟩
    obtain ⟨-, hopen⟩ := ((hbare hbound).skethOpen env).of_ok hr
    exact (hopen.continues (hbare hbound).queues).congr not_not.symm
  | stop =>
    obtain ⟨hbound, -⟩ := hpermits
    refine h.settled hbound hpointers hfault fun d hd => ⟨hbound, ?_⟩
    obtain rfl := Except.ok.inj ((hbare hbound).skethStop.1.symm.trans hd)
    exact ((hbare hbound).continues_skethStop (h.vectors hbound)).congr not_true.symm
  | suspend =>
    obtain ⟨hbound, -, -⟩ := hpermits
    refine h.settled hbound hpointers hfault fun d hd => ⟨hbound, ?_⟩
    split at hd
    · obtain rfl := Except.ok.inj ((hbare hbound).skethStop.1.symm.trans hd)
      exact ((hbare hbound).continues_skethStop (h.vectors hbound)).congr not_true.symm
    · obtain rfl := Except.ok.inj hd
      exact (hbare hbound).kept.continues.congr not_true.symm
  | resume env =>
    obtain ⟨hbound, -⟩ := hpermits
    refine h.settled hbound hpointers hfault fun r hr => ⟨hbound, ?_⟩
    split at hr
    · next hrunning =>
      obtain ⟨-, hopen⟩ := ((hbare hbound).skethOpen env).of_ok hr
      exact (hopen.continues (hbare hbound).queues).congr (by simp [NoLeak, hrunning])
    · next hrunning =>
      obtain rfl := Except.ok.inj hr
      exact (hbare hbound).kept.continues.congr (by simp [NoLeak, hrunning])
  | startXmit q skb dma =>
    obtain ⟨hbound, -⟩ := hpermits
    refine h.settled hbound hpointers hfault fun d hd => ⟨hbound, ?_⟩
    obtain ⟨-, hkept⟩ := ((hbare hbound).startXmit_fresh q skb dma).of_ok hd
    exact hkept.continues.congr not_true.symm
  | napiPoll q call =>
    obtain ⟨hbound, -, hq⟩ := hpermits
    refine h.settled hbound hpointers hfault fun d hd => ⟨hbound, ?_⟩
    obtain ⟨-, hkept⟩ := ((hbare hbound).skethNapiPoll hq call).of_ok hd
    exact hkept.continues.congr not_true.symm
  | remove =>
    obtain ⟨ht, hphase⟩ : s.dev.remove s.running = .ok s.skethRemove.dev ∧
        s.skethRemove.phase = .removed :=
      settle_of_ok (P := fun t => s.dev.remove s.running = .ok t.dev ∧ t.phase = .removed) hfault
        fun d hd => ⟨hd, rfl⟩
    obtain ⟨hinv, hleaking⟩ := h.removed hpermits ht hphase hpointers
    exact ⟨hinv, hleaking.trans (by simp [NoLeak])⟩

end Steps

/-- Before the probe nothing was acquired. -/
theorem skethUnbound_ledgerInv : LedgerInv skethUnbound :=
  ⟨skethUnbound_pointerInv, by simp [skethUnbound], by simp [skethUnbound], by simp [skethUnbound],
    fun _ he => absurd he List.not_mem_nil⟩

/-- A call that ends the life of the adapter has not faulted. -/
theorem fault_of_ended {s : SkethSystem} {call : SkethCall} (hnone : s.fault = none)
    (hpermits : s.Permits call) (hend : (s.perform call).phase = .failed ∨
      (s.perform call).phase = .removed) : (s.perform call).fault = none := by
  have hopen : s.phase ≠ .failed ∧ s.phase ≠ .removed := by
    cases call <;> simp_all [SkethSystem.Permits]
  have hsettle : ∀ {β : Type} (result : Except SkethFault β) (next : β → SkethSystem),
      (∀ b, (next b).fault = s.fault) →
      ((s.settle result next).phase = .failed ∨ (s.settle result next).phase = .removed) →
      (s.settle result next).fault = none := by
    intro β result next hnext hend
    cases result with
    | ok b => exact (hnext b).trans hnone
    | error f => exact absurd hend (not_or.mpr hopen)
  cases call with
  | probe | «open» | stop | suspend | resume | startXmit | napiPoll | remove =>
    exact hsettle _ _ (fun _ => rfl) hend

/-- A run that ends in a failed probe or in a remove has released everything exactly when no call acquired
what is never released. -/
theorem leakFree_iff (calls : List SkethCall) {t : SkethSystem}
    (h : skethMachine.run skethUnbound calls = some t)
    (hend : t.phase = .failed ∨ t.phase = .removed) :
    LeakFree t ↔ skethMachine.Guarded NoLeak skethUnbound calls := by
  have hlast : ∀ s call t, (s.phase = .failed ∨ s.phase = .removed → s.fault = none) →
      skethMachine.step s call = some t → t.phase = .failed ∨ t.phase = .removed → t.fault = none := by
    intro s call t _ ht
    obtain ⟨hnone, hpermits, rfl⟩ := skethMachine_step ht
    exact fault_of_ended hnone hpermits
  have hfault : t.fault = none := skethMachine.run_invariant hlast (fun _ => rfl) h hend
  have hstep : ∀ s call t, LedgerInv s → skethMachine.step s call = some t → t.fault = none →
      LedgerInv t ∧ (Leaking t ↔ Leaking s ∨ ¬ NoLeak s call) := by
    intro s call t hs ht hfault
    obtain ⟨-, hpermits, rfl⟩ := skethMachine_step ht
    exact hs.perform hpermits hfault
  obtain ⟨hinv, hleaking⟩ := skethMachine.run_good_spoiled_iff
    (fun s call t ht _ => (skethMachine_step ht).1) hstep skethUnbound_ledgerInv h hfault
  have hstart : ¬ Leaking skethUnbound := by simp [Leaking, skethUnbound]
  have hended : Leaking t ↔ ¬ Settled t.dev.ledger := by
    rcases hend with hphase | hphase <;> simp [Leaking, hphase]
  have hsettled : Settled t.dev.ledger ↔ skethMachine.Guarded NoLeak skethUnbound calls := by
    rw [or_iff_right hstart, hended] at hleaking
    exact not_iff_not.mp hleaking
  exact ⟨fun hfree => hsettled.mp hfree.ledger,
    fun hguarded => ⟨hsettled.mpr hguarded, hinv.log.slotsReleased⟩⟩

/-- A probe, an open that is granted its interrupts, a stop and a remove. -/
theorem leakFree_iff_opened : ∃ t, skethMachine.run skethUnbound
    [.probe .pci probeStarved, .open openStarved, .stop, .remove] = some t ∧
    (LeakFree t ↔ skethMachine.Guarded NoLeak skethUnbound
      [.probe .pci probeStarved, .open openStarved, .stop, .remove]) :=
  ⟨_, rfl, leakFree_iff _ rfl (Or.inr rfl)⟩

/-- A kernel that refuses the array of the TX rings and grants everything else. -/
def probeNoTxRing : ProbeEnv :=
  ⟨4, 1500, 0, 0, true, 0, true, true, false, true, fun _ n => .mapped (4096 * (n + 1)), 0, 0⟩

/-- A PCI probe that gets the array of the RX rings only fails, and never frees it. -/
theorem skethProbe_leaks : ¬ ∀ t, skethMachine.run skethUnbound [.probe .pci probeNoTxRing] = some t →
    t.phase = .failed ∨ t.phase = .removed → LeakFree t := by
  intro h
  have hsettled : Settled (skethUnbound.perform (.probe .pci probeNoTxRing)).dev.ledger :=
    (h _ rfl (Or.inl rfl)).ledger
  exact absurd hsettled (by decide)

end LinuxFunctionTest.Sketh
