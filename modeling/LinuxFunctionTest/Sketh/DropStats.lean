import LinuxFunctionTest.Sketh.TransmitConservation

/-!
# Drop statistics

A packet that `sketh_start_xmit` drops while the device is down is counted in the statistics of the network device,
one whose mapping fails in the adapter. Before every report, `sketh_update_stats` replaces the first counter by the
second. So a report is right as long as no packet was dropped while the device was down and the counters of 64 bits
have not wrapped around.
-/

namespace LinuxFunctionTest.Sketh

/-- What `sketh_get_stats64` reports. -/
structure RtnlLinkStats64 where
  rxPackets : UInt64
  rxBytes : UInt64
  txPackets : UInt64
  txBytes : UInt64
  rxErrors : UInt64
  txErrors : UInt64
  rxDropped : UInt64
  txDropped : UInt64

/-- `sketh_update_stats`: the counter of the adapter replaces that of the network device. -/
def skethUpdateStats (a : SkethAdapter) : SkethAdapter := { a with statsTxDropped := a.txDropped }

/-- `sketh_get_stats64`. The error counters are zero, and the drops of the receive side are those of the adapter. -/
def skethGetStats64 (a : SkethAdapter) : SkethAdapter × RtnlLinkStats64 :=
  let a := skethUpdateStats a
  (a, ⟨a.statsRxPackets, a.statsRxBytes, a.statsTxPackets, a.statsTxBytes, 0, 0, a.rxDrops, a.statsTxDropped⟩)

/-- The call frees a packet that is not empty. -/
def Drops (a : SkethAdapter) (skb : SkBuff) (dma : Option ℕ) : Prop :=
  skb.len ≠ 0 ∧ a.freed.length < (skethStartXmit a skb dma).freed.length

instance (a : SkethAdapter) (skb : SkBuff) (dma : Option ℕ) : Decidable (Drops a skb dma) :=
  inferInstanceAs (Decidable (_ ∧ _))

/-- A report of the drops, and the drops there had been. -/
structure DropReport where
  reported : UInt64
  drops : ℕ

/-- The adapter with its TX rings, the packets dropped so far, those of them handed over while the device was down,
and the reports, newest first. -/
structure StatsRun where
  adapter : SkethAdapter
  txRings : ℕ → SkethTxRing
  drops : ℕ
  whileDown : ℕ
  reports : List DropReport

/-- A packet for a queue, a query, or a change of `__SKETH_STATE_DOWN`. -/
inductive StatsCall where
  | startXmit (queueMapping : ℕ) (skb : SkBuff) (dma : Option ℕ)
  | getStats64
  | setDown (down : Bool)

namespace StatsRun

/-- A packet is handed over. -/
def startXmit (s : StatsRun) (queueMapping : ℕ) (skb : SkBuff) (dma : Option ℕ) : StatsRun :=
  let a : SkethAdapter := { s.adapter with txRing := s.txRings queueMapping }
  let b := skethStartXmit a skb dma
  { s with
    adapter := b
    txRings := Function.update s.txRings queueMapping b.txRing
    drops := if Drops a skb dma then s.drops + 1 else s.drops
    whileDown := if skb.len ≠ 0 ∧ s.adapter.down = true then s.whileDown + 1 else s.whileDown }

/-- The statistics are asked for. -/
def getStats64 (s : StatsRun) : StatsRun :=
  let (a, stats) := skethGetStats64 s.adapter
  { s with adapter := a, reports := ⟨stats.txDropped, s.drops⟩ :: s.reports }

end StatsRun

/-- The calls in any order. -/
def statsMachine : Machine StatsRun StatsCall where
  step s call := match call with
    | .startXmit queueMapping skb dma => some (s.startXmit queueMapping skb dma)
    | .getStats64 => some s.getStats64
    | .setDown down => some { s with adapter := { s.adapter with down := down } }

/-- An adapter whose counters are zero. -/
def statsSetup (a : SkethAdapter) (txRings : ℕ → SkethTxRing) : StatsRun where
  adapter := { a with txDropped := 0, statsTxDropped := 0 }
  txRings := txRings
  drops := 0
  whileDown := 0
  reports := []

/-- Every report is exact, and no report is lower than one before it. -/
structure StatsRight (s : StatsRun) : Prop where
  exact : ∀ r ∈ s.reports, r.reported.toNat = r.drops
  monotone : s.reports.Pairwise fun newer older => older.reported ≤ newer.reported

/-- When the statistics are asked for, no packet has met a device that is down, and the drops fit a counter. -/
def NoneWhileDown (s : StatsRun) : StatsCall → Prop
  | .getStats64 => s.whileDown = 0 ∧ s.drops < 2 ^ 64
  | .startXmit _ _ _ | .setDown _ => True

/-- The adapter counts the drops on a device that is up, as far as its counter goes. -/
structure StatsInv (s : StatsRun) : Prop where
  counted : UInt64.ofNat s.drops = s.adapter.txDropped + UInt64.ofNat s.whileDown
  whileDown_le : s.whileDown ≤ s.drops
  right : StatsRight s
  reported : ∀ r ∈ s.reports, r.drops ≤ s.drops

section Drops

variable (a : SkethAdapter) (skb : SkBuff) (dma : Option ℕ)

/-- A packet that is not empty is dropped unless it is posted. -/
theorem drops_iff : Drops a skb dma ↔ skb.len ≠ 0 ∧ ¬ Posts a skb dma := by
  refine and_congr_right fun _ => ?_
  by_cases hposts : Posts a skb dma
  · obtain ⟨d, rfl⟩ := Option.isSome_iff_exists.mp hposts.2.2
    have hfreed := (ledger_posted (skethStartXmit_posted a skb d hposts).log).2
    simp [hfreed, hposts]
  · have hfreed := (ledger_kfree (skethStartXmit_dropped a skb dma hposts).2.1).2
    simp [hfreed, hposts]

/-- Every packet that is not empty is dropped while the device is down. -/
theorem drops_of_down (hlen : skb.len ≠ 0) (hdown : a.down = true) : Drops a skb dma :=
  (drops_iff a skb dma).mpr ⟨hlen, fun hposts => absurd (hposts.2.1.symm.trans hdown) (by simp)⟩

/-- The counter of the adapter goes up for a packet that is dropped on a device that is up, and for no other. -/
theorem skethStartXmit_counted {drops whileDown : ℕ}
    (h : UInt64.ofNat drops = a.txDropped + UInt64.ofNat whileDown) :
    UInt64.ofNat (if Drops a skb dma then drops + 1 else drops) = (skethStartXmit a skb dma).txDropped +
      UInt64.ofNat (if skb.len ≠ 0 ∧ a.down = true then whileDown + 1 else whileDown) := by
  by_cases hlen : skb.len = 0
  · rw [if_neg fun hdrops => hdrops.1 hlen, if_neg fun hdown => hdown.1 hlen, skethStartXmit, if_pos hlen]
    exact h
  by_cases hdown : a.down = true
  · rw [if_pos (drops_of_down a skb dma hlen hdown), if_pos ⟨hlen, hdown⟩, skethStartXmit, if_neg hlen,
      if_pos hdown, UInt64.ofNat_add, UInt64.ofNat_add, h]
    exact UInt64.add_assoc _ _ _
  have hup : ¬ (skb.len ≠ 0 ∧ a.down = true) := fun h => hdown h.2
  rw [if_neg hup]
  cases dma with
  | none =>
    have hdrops : Drops a skb none := (drops_iff a skb none).mpr ⟨hlen, fun hposts => absurd hposts.2.2 (by simp)⟩
    rw [if_pos hdrops, skethStartXmit, if_neg hlen, if_neg hdown, UInt64.ofNat_add, h, UInt64.add_assoc,
      UInt64.add_comm (UInt64.ofNat whileDown), ← UInt64.add_assoc]
    rfl
  | some d =>
    have hposts : Posts a skb (some d) := ⟨hlen, by simpa using hdown, rfl⟩
    have hkept : (skethStartXmit a skb (some d)).txDropped = a.txDropped := by
      unfold skethStartXmit
      rw [if_neg hlen, if_neg hdown]
      dsimp only [skethXmitDesc]
      rw [if_neg (not_not.mpr rfl)]
      exact iteInduction (motive := fun b : SkethAdapter => b.txDropped = a.txDropped) (fun _ => rfl) fun _ => rfl
    rw [if_neg fun hdrops => ((drops_iff a skb (some d)).mp hdrops).2 hposts, hkept]
    exact h

/-- Every packet that meets a device that is down is dropped, unless it is empty. -/
theorem whileDown_le_drops {drops whileDown : ℕ} (h : whileDown ≤ drops) :
    (if skb.len ≠ 0 ∧ a.down = true then whileDown + 1 else whileDown) ≤
      if Drops a skb dma then drops + 1 else drops := by
  by_cases hdown : skb.len ≠ 0 ∧ a.down = true
  · rw [if_pos hdown, if_pos (drops_of_down a skb dma hdown.1 hdown.2)]
    exact Nat.succ_le_succ h
  · rw [if_neg hdown]
    split <;> omega

end Drops

section Runs

variable {s : StatsRun}

/-- A packet leaves the reports, and is counted where it is dropped. -/
theorem StatsInv.startXmit (h : StatsInv s) (queueMapping : ℕ) (skb : SkBuff) (dma : Option ℕ) :
    StatsInv (s.startXmit queueMapping skb dma) where
  counted := skethStartXmit_counted { s.adapter with txRing := s.txRings queueMapping } skb dma h.counted
  whileDown_le := whileDown_le_drops { s.adapter with txRing := s.txRings queueMapping } skb dma h.whileDown_le
  right := ⟨h.right.exact, h.right.monotone⟩
  reported := fun r hr => by
    have hmore : s.drops ≤ (s.startXmit queueMapping skb dma).drops := by
      simp only [StatsRun.startXmit]
      split <;> omega
    exact (h.reported r hr).trans hmore

/-- A report is right as long as no packet has met a device that is down and the counter has not wrapped around. -/
theorem StatsInv.getStats64 (h : StatsInv s) (hnone : s.whileDown = 0) (hfits : s.drops < 2 ^ 64) :
    StatsInv s.getStats64 where
  counted := h.counted
  whileDown_le := h.whileDown_le
  right := by
    have hsum : UInt64.ofNat s.drops = s.adapter.txDropped := by
      rw [h.counted, hnone]
      exact UInt64.add_zero _
    have hexact : s.adapter.txDropped.toNat = s.drops := by
      rw [← hsum, UInt64.toNat_ofNat_of_lt' hfits]
    refine ⟨List.forall_mem_cons.mpr ⟨hexact, h.right.exact⟩,
      List.pairwise_cons.mpr ⟨fun r hr => UInt64.le_iff_toNat_le.mpr ?_, h.right.monotone⟩⟩
    calc r.reported.toNat = r.drops := h.right.exact r hr
      _ ≤ s.drops := h.reported r hr
      _ = s.adapter.txDropped.toNat := hexact.symm
  reported := List.forall_mem_cons.mpr ⟨le_rfl, h.reported⟩

/-- Otherwise a report differs from the drops. -/
theorem StatsInv.getStats64_wrong (h : StatsInv s) (hwrong : ¬ (s.whileDown = 0 ∧ s.drops < 2 ^ 64)) :
    ¬ StatsRight s.getStats64 := by
  intro hright
  have hexact : s.adapter.txDropped.toNat = s.drops := hright.exact _ (List.mem_cons_self ..)
  have hfits : s.drops < 2 ^ 64 := hexact ▸ s.adapter.txDropped.toNat_lt
  have hcounted : s.drops % 2 ^ 64 = (s.drops + s.whileDown % 2 ^ 64) % 2 ^ 64 := by
    have hsum := congrArg UInt64.toNat h.counted
    rwa [UInt64.toNat_add, UInt64.toNat_ofNat', UInt64.toNat_ofNat', hexact] at hsum
  have hle := h.whileDown_le
  have hsome : s.whileDown ≠ 0 := fun hnone => hwrong ⟨hnone, hfits⟩
  omega

end Runs

/-- **Drop statistics.** Along every run, every report of the drops is exact and none is lower than one before it,
exactly when the statistics are never asked for after a packet has met a device that is down, nor after 2^64 drops. -/
theorem statsRight_iff (a : SkethAdapter) (txRings : ℕ → SkethTxRing) (calls : List StatsCall) :
    statsMachine.Always StatsRight (statsSetup a txRings) calls ↔
      statsMachine.Guarded NoneWhileDown (statsSetup a txRings) calls := by
  refine statsMachine.always_iff_guarded (fun s (h : StatsInv s) => h.right) ?_ ?_ ?_ calls
  · rintro s call t hs ht hguard
    cases call with
    | startXmit queueMapping skb dma =>
      cases ht
      exact hs.startXmit queueMapping skb dma
    | getStats64 =>
      cases ht
      exact hs.getStats64 hguard.1 hguard.2
    | setDown down =>
      cases ht
      exact ⟨hs.counted, hs.whileDown_le, ⟨hs.right.exact, hs.right.monotone⟩, hs.reported⟩
  · rintro s call t hs ht hguard
    cases call with
    | startXmit => exact absurd trivial hguard
    | getStats64 =>
      cases ht
      exact hs.getStats64_wrong hguard
    | setDown => exact absurd trivial hguard
  · exact ⟨rfl, le_rfl, ⟨by simp [statsSetup], by simp [statsSetup]⟩, by simp [statsSetup]⟩

/-- A packet is dropped while the device is down, and the next report says that none was. -/
theorem not_statsRight : ¬ ∀ a txRings calls, statsMachine.Always StatsRight (statsSetup a txRings) calls := by
  intro h
  have hright := h skethProbed (fun _ => skethSetupTxResources 512)
    [.setDown true, .startXmit 0 ⟨0, 60, 0, false, false⟩ none, .getStats64]
  have hexact := (hright.of_reached statsMachine (List.prefix_refl _) rfl).exact _ (List.mem_cons_self ..)
  exact absurd hexact (by decide)

end LinuxFunctionTest.Sketh
