import LinuxFunctionTest.Ncm.Link

/-!
# Delivery

What one side transmits the other receives. In any order of steps, the datagrams that the receive
path makes of the blocks that went out are those handed over, in their order, but for the few that
are still collected and those dropped when memory failed.
-/

namespace LinuxFunctionTest.Ncm

open LinuxFunctionTest.Image

/-- The receive path over consecutive buffers: what it hands up, whether it took every buffer, and the context. -/
def receiveAll : RxCtx → List SkbIn → List Frame × Bool × RxCtx
  | ctx, [] => ([], true, ctx)
  | ctx, skb :: rest =>
    let first := rxFixup ctx skb fun _ => true
    let others := receiveAll first.2.2 rest
    (first.1 ++ others.1, first.2.1 = 1 && others.2.1, others.2.2)

/-- The buffers hold the blocks, whatever memory surrounds them. -/
def Arrived (skbs : List SkbIn) (wire : List (List UInt8)) : Prop :=
  List.Forall₂ (fun skb block => ∃ stray, skb = SkbIn.ofBytes block stray) skbs wire

/-- The datagrams that are collected or wait for the next block. -/
def TxCtx.backlog (ctx : TxCtx) : ℕ :=
  (if ctx.txCurrSkb.isSome then ctx.txCurrFrameNum else 0) + ctx.txRemSkb.toList.length

/-- The receiver of the link knows the format and takes blocks as long as those that went out. -/
structure Receives (rx : RxCtx) (dev : NcmDev) (wire : List (List UInt8)) : Prop where
  isNdp16 : rx.isNdp16 = dev.tx.set.isNdp16
  rxMax : ∀ block ∈ wire, block.length ≤ rx.rxMax

section Receiving

variable {plenty : Prop} {first : NcmDev} {rx : RxCtx} {wire : List (List UInt8)} {sent : List (List Frame)}
  {skbs : List SkbIn}

/-- A block that went out is received as the datagrams it carries. -/
theorem OnWire.rxFixup {block : List UInt8} {frames : List Frame} (h : OnWire plenty first block frames)
    (hformat : rx.isNdp16 = first.tx.set.isNdp16) (hmax : block.length ≤ rx.rxMax) (stray : ℤ → UInt8) :
    Ncm.rxFixup rx (SkbIn.ofBytes block stray) (fun _ => true) = (frames, 1, { rx with
      rxSeq := load block 6 2
      rxOverhead := rx.rxOverhead + subWord 32 block.length (payloadOf frames % 2 ^ 32)
      rxNtbs := rx.rxNtbs + 1 }) := by
  obtain ⟨toEnd, hcompliant⟩ := h.compliant
  have hformat : ntbFormat rx.isNdp16 = first.tx.set.format := by
    rw [hformat, TxSettings.format]
  have hblock : Block first.tx.set.format block frames := hcompliant.block
  have hsize : block.length ≤ ntbMaxSizeTx + 1 := h.size.trans (Nat.min_le_right _ _)
  have hlargest : ntbMaxSizeTx + 1 < 2 ^ 32 := by decide
  refine (hformat ▸ hblock : Block (ntbFormat rx.isNdp16) block frames).rxFixup stray h.nonempty (by omega) ?_ ?_
  · rw [hformat, h.blockLength]
    exact (Nat.mod_le _ _).trans hmax
  · exact fun frame hframe => ⟨(h.sendable frame hframe).1, (hblock.length_le hframe).trans hmax⟩

/-- The blocks that went out are received as the datagrams they carry, in order. -/
theorem receiveAll_wire (hwire : List.Forall₂ (OnWire plenty first) wire sent) (hskbs : Arrived skbs wire)
    (hrx : Receives rx first wire) :
    ∃ rx', receiveAll rx skbs = (sent.flatten, true, rx') ∧ rx'.rxOverhead = rx.rxOverhead + overheadOf wire sent ∧
      rx'.rxNtbs = rx.rxNtbs + wire.length := by
  induction hwire generalizing skbs rx with
  | nil =>
    obtain rfl := List.forall₂_nil_right_iff.mp hskbs
    exact ⟨rx, rfl, rfl, rfl⟩
  | @cons block frames wire sent hblock _ ih =>
    obtain ⟨skb, rest, ⟨stray, rfl⟩, hrest, rfl⟩ := List.forall₂_cons_right_iff.mp hskbs
    obtain ⟨hmax, hmaxs⟩ := List.forall_mem_cons.mp hrx.rxMax
    have hrx' : Receives { rx with
        rxSeq := load block 6 2
        rxOverhead := rx.rxOverhead + subWord 32 block.length (payloadOf frames % 2 ^ 32)
        rxNtbs := rx.rxNtbs + 1 } first wire := ⟨hrx.isNdp16, hmaxs⟩
    obtain ⟨rx', hall, hoverhead, hntbs⟩ := ih hrest hrx'
    refine ⟨rx', ?_, ?_, ?_⟩
    · rw [receiveAll, hblock.rxFixup hrx.isNdp16 hmax stray]
      simp only
      rw [hall]
      rfl
    · rw [hoverhead, overheadOf, overheadOf, List.zipWith_cons_cons, List.sum_cons, Nat.add_assoc]
    · rw [hntbs, List.length_cons, Nat.add_assoc, Nat.add_comm 1]

end Receiving

section Backlog

variable {plenty : Prop} {first dev : NcmDev} {wire : List (List UInt8)} {accepted : List Frame}
  {sent : List (List Frame)} {frames : List Frame}

/-- The backlog counts what is collected and what waits. -/
theorem Carried.backlog (h : Carried plenty first dev wire accepted sent frames) :
    dev.tx.backlog = frames.length + dev.tx.txRemSkb.toList.length := by
  unfold TxCtx.backlog
  cases hskb : dev.tx.txCurrSkb with
  | none =>
    rw [(h.held.idle hskb).1]
    rfl
  | some skbOut =>
    rw [Option.isSome_some, if_pos rfl, (h.held.busy skbOut hskb).2.1]

end Backlog

section Draining

variable {first : NcmDev} {s t : Link} {mem : Memory} {n : ℕ}

/-- Some steps of the timer and its tasklet, no more than `n`, leave no datagram collected or waiting. -/
def Drains (first : NcmDev) (mem : Memory) (s : Link) (n : ℕ) : Prop :=
  ∃ rounds u, rounds.length ≤ n ∧ (∀ a ∈ rounds, a ∈ [Label.txTimerCb, Label.txpathBh, Label.flush mem]) ∧
    link.run s rounds = some u ∧ u.accepted = s.accepted ∧ u.dev.tx.backlog = 0 ∧ u.Inv True first

/-- A step of the timer or its tasklet comes before those that drain. -/
theorem Drains.step {a : Label} (h : Drains first mem t n)
    (ha : a ∈ [Label.txTimerCb, Label.txpathBh, Label.flush mem])
    (hstep : s.step a = some t) (haccepted : t.accepted = s.accepted) : Drains first mem s (n + 1) := by
  obtain ⟨rounds, u, hlen, hrounds, hrun, haccepted', hdrained⟩ := h
  refine ⟨a :: rounds, u, by rw [List.length_cons]; omega, ?_, ?_, haccepted'.trans haccepted, hdrained⟩
  · exact List.forall_mem_cons.mpr ⟨ha, hrounds⟩
  · rw [link.run_cons_of_step hstep, hrun]

/-- More steps are allowed. -/
theorem Drains.mono {m : ℕ} (h : Drains first mem s n) (hle : n ≤ m) : Drains first mem s m := by
  obtain ⟨rounds, u, hlen, hrest⟩ := h
  exact ⟨rounds, u, hlen.trans hle, hrest⟩

/-- A tasklet that waits for the lock drains by its flush. -/
theorem drains_of_flushing (hs : s.Inv True first) (hflushing : s.flushing = true) (hmem : mem.full.isSome = true) :
    Drains first mem s 1 := by
  obtain ⟨sent, frames, hcarried, _⟩ := hs.carried
  obtain ⟨r, sent', hr, hcarried', hrem, _⟩ := hcarried.flush fun _ => hmem
  have hstep := Link.step_flush hs.crashed hflushing mem
  rw [hr] at hstep
  have hbacklog := hcarried'.backlog
  simp only [hrem trivial] at hbacklog
  have hdrained : Drains first mem ({ s with flushing := false }.transmit (some r)) 0 :=
    ⟨[], _, le_rfl, nofun, rfl, rfl, hbacklog, hs.step hstep trivial fun _ => hmem⟩
  exact hdrained.step (by simp) hstep rfl

/-- A scheduled tasklet drains, once it drains from the next round of the timer. -/
theorem drains_of_bh (hs : s.Inv True first) (hbh : s.bh = true) (hflushing : s.flushing = false)
    (hmem : mem.full.isSome = true)
    (hnext : ∀ t : Link, t.Inv True first → t.dev.tx.timerActive = true →
      t.dev.tx.txTimerPending + 1 = s.dev.tx.txTimerPending → Drains first mem t (2 * t.dev.tx.txTimerPending + 3)) :
    Drains first mem s (2 * s.dev.tx.txTimerPending + 2) := by
  obtain ⟨sent, frames, hcarried, _⟩ := hs.carried
  have hstep := Link.step_txpathBh hs.crashed hbh hflushing
  have ht := hs.step hstep trivial fun _ => trivial
  rcases txpathBh_spec hcarried.stop with ⟨pending, hrounds, hround⟩ | ⟨_, hround⟩
  · refine ((hnext _ ht ?_ ?_).step (by simp) hstep rfl).mono ?_
    all_goals simp only [hround]
    · omega
    · omega
  · refine ((drains_of_flushing ht ?_ hmem).step (by simp) hstep rfl).mono (by omega)
    simp only [hround]

/-- Whatever will flush drains, after as many rounds of the timer as are pending. -/
theorem drains_of_armed (rounds : ℕ) (hs : s.Inv True first) (harmed : s.Armed) (hmem : mem.full.isSome = true)
    (hrounds : s.dev.tx.txTimerPending = rounds) : Drains first mem s (2 * rounds + 3) := by
  induction rounds using Nat.strong_induction_on generalizing s with
  | _ rounds ih =>
    have hnext : ∀ u t : Link, u.dev.tx.txTimerPending = rounds → t.Inv True first → t.dev.tx.timerActive = true →
        t.dev.tx.txTimerPending + 1 = u.dev.tx.txTimerPending →
        Drains first mem t (2 * t.dev.tx.txTimerPending + 3) :=
      fun u t hu ht hactive hlt => ih t.dev.tx.txTimerPending (by omega) ht (.inl hactive) rfl
    cases hflushing : s.flushing with
    | true => exact (drains_of_flushing hs hflushing hmem).mono (by omega)
    | false =>
      cases hbh : s.bh with
      | true => exact (drains_of_bh hs hbh hflushing hmem fun t => hnext s t hrounds).mono (by omega)
      | false =>
        have hactive : s.dev.tx.timerActive = true := by simpa [Link.Armed, hflushing, hbh] using harmed
        obtain ⟨sent, frames, hcarried, _⟩ := hs.carried
        have hstep := Link.step_txTimerCb hs.crashed hactive
        have ht := hs.step hstep trivial fun _ => trivial
        refine ((drains_of_bh ht ?_ hflushing hmem fun t => hnext _ t hrounds).step (by simp) hstep rfl).mono ?_
        · simp [txTimerCb, hcarried.stop]
        · have hsame : (txTimerCb s.dev.tx s.bh).1.txTimerPending = rounds := hrounds
          simp only [hsame]
          omega

end Draining

/-- A run of the transmit side of a device that was just bound. The device keeps to the class specification, datagrams
have the size of frames, and blocks stay large enough for one. -/
structure Runs (b : Binding) (dev : NcmDev) (labels : List Label) (t : Link) : Prop where
  bound : bindCommon b = some dev
  regular : dev.parm.Regular
  maxpacket : 2 ≤ b.maxpacket
  legal : ∀ a ∈ labels, a.Legal
  run : link.run (Link.new dev) labels = some t

section Runs

variable {b : Binding} {dev : NcmDev} {labels : List Label} {t : Link} {rx : RxCtx} {skbs : List SkbIn}

/-- The invariant holds at the end of a run. -/
theorem Runs.inv (h : Runs b dev labels t) (plenty : Prop) (hmem : plenty → ∀ a ∈ labels, a.Plenty) :
    t.Inv plenty dev := by
  obtain ⟨first, _, _, _, htx⟩ := bindCommon_spec h.bound
  refine (Link.Inv.new (bindCommon_settled h.bound h.regular h.maxpacket) ?_).run h.run h.legal hmem
  rw [htx]
  rfl

/-- A receiver that takes blocks as long as the device does takes those that went out. -/
theorem Runs.receives (h : Runs b dev labels t) (hformat : rx.isNdp16 = dev.tx.set.isNdp16)
    (hmax : dev.parm.dwNtbOutMaxSize.toNat ≤ rx.rxMax) : Receives rx dev t.wire := by
  obtain ⟨_, sent, frames, hcarried, _⟩ := h.inv False nofun
  refine ⟨hformat, fun block hblock => ?_⟩
  obtain ⟨i, rfl⟩ := List.mem_iff_get.mp hblock
  have hwire := hcarried.onWire.get i.isLt (hcarried.onWire.length_eq ▸ i.isLt)
  exact hwire.size.trans ((Nat.min_le_left _ _).trans hmax)

/-- A device with the usual parameters: blocks of 16 KiB, everything aligned to four bytes. -/
def plainBinding : Binding where
  desc := ⟨false, none, some 1514, none⟩
  mtu := 1500
  maxpacket := 512
  preferNtb32 := false
  ndpToEnd := false
  sendZlp := false
  parm := some ⟨1, 16384, 4, 0, 4, 0, 16384⟩
  setFormat := true
  setInputSize := true
  delayedMemory := true

/-- The device after binding. -/
def plainDev : NcmDev := (bindCommon plainBinding).get (by decide)

/-- A datagram that the timer flushes, and one that is being collected. -/
def plainLabels : List Label :=
  let mem : Memory := ⟨some 0, some 0⟩
  [.startXmit (List.replicate 14 7) mem, .txTimerCb, .txpathBh, .txTimerCb, .txpathBh, .txTimerCb, .txpathBh,
    .flush mem, .startXmit (List.replicate 20 8) mem]

/-- The transmit side after these steps. -/
def plainLink : Link := (link.run (Link.new plainDev) plainLabels).get (by decide +kernel)

/-- The blocks that went out in them, as they arrive. -/
def plainSkbs : List SkbIn := plainLink.wire.map fun block => .ofBytes block fun _ => 0

/-- These steps are a run. -/
theorem plain_runs : Runs plainBinding plainDev plainLabels plainLink where
  bound := by simp [plainDev]
  regular := ⟨by decide, by decide, by decide⟩
  maxpacket := by decide
  legal := by simp [plainLabels, Label.Legal, Sendable, ethHlen, minDatagramSize]
  run := by simp [plainLink]

/-- Memory lasts in these steps. -/
theorem plain_plenty : ∀ a ∈ plainLabels, a.Plenty := by simp [plainLabels, Label.Plenty]

/-- The blocks arrive. -/
theorem plain_arrived : Arrived plainSkbs plainLink.wire := by
  rw [Arrived, plainSkbs, List.forall₂_map_left_iff]
  exact List.forall₂_same.mpr fun block _ => ⟨_, rfl⟩

/-- The receive path of the driver, as binding leaves it, takes them. -/
theorem plain_receives : Receives plainDev.rx plainDev plainLink.wire :=
  plain_runs.receives rfl (by decide)

/-- What is received is what was handed over, in order and nothing twice; what is missing is counted as dropped or
is still being collected, and both sides count the same blocks and the same overhead. -/
theorem received_sublist (h : Runs b dev labels t) (hskbs : Arrived skbs t.wire) (hrx : Receives rx dev t.wire) :
    t.crashed = false ∧ (receiveAll rx skbs).2.1 = true ∧ (receiveAll rx skbs).1.Sublist t.accepted ∧
      (receiveAll rx skbs).1.length + t.dev.tx.backlog + t.dev.tx.txDropped = t.accepted.length ∧
      (receiveAll rx skbs).2.2.rxOverhead = rx.rxOverhead + t.dev.tx.txOverhead ∧
      (receiveAll rx skbs).2.2.rxNtbs = rx.rxNtbs + t.dev.tx.txNtbs := by
  obtain ⟨hcrashed, sent, frames, hcarried, _⟩ := h.inv False nofun
  obtain ⟨rx', hall, hoverhead, hntbs⟩ := receiveAll_wire hcarried.onWire hskbs hrx
  rw [hall, hcarried.backlog, hcarried.txOverhead, hcarried.txNtbs]
  refine ⟨hcrashed, rfl, ?_, ?_, hoverhead, hntbs⟩
  · exact (List.sublist_append_left _ _).trans hcarried.order
  · have hcount := hcarried.count
    simp only
    omega

/-- The block of the first datagram is received as that datagram. -/
theorem received_sublist_plain : (receiveAll plainDev.rx plainSkbs).1.Sublist plainLink.accepted ∧
    (receiveAll plainDev.rx plainSkbs).1.length + plainLink.dev.tx.backlog + plainLink.dev.tx.txDropped =
      plainLink.accepted.length :=
  have h := received_sublist plain_runs plain_arrived plain_receives
  ⟨h.2.2.1, h.2.2.2.1⟩

/-- While memory for full buffers lasts nothing is dropped, and what is missing is the end of what was handed over. -/
theorem received_in_order (h : Runs b dev labels t) (hmem : ∀ a ∈ labels, a.Plenty) (hskbs : Arrived skbs t.wire)
    (hrx : Receives rx dev t.wire) :
    t.dev.tx.txDropped = 0 ∧ (receiveAll rx skbs).1 <+: t.accepted ∧
      (receiveAll rx skbs).1.length + t.dev.tx.backlog = t.accepted.length := by
  obtain ⟨_, sent, frames, hcarried, _⟩ := h.inv True fun _ => hmem
  obtain ⟨rx', hall, _, _⟩ := receiveAll_wire hcarried.onWire hskbs hrx
  have hevery := (hcarried.lossless trivial).all
  have hcount := hcarried.count
  have hlen := congrArg List.length hevery
  simp only [List.length_append] at hlen
  rw [hall, hcarried.backlog]
  refine ⟨by omega, ?_, by simp only; omega⟩
  rw [hevery]
  exact List.prefix_append _ _

/-- The second datagram is still being collected. -/
theorem received_in_order_plain : (receiveAll plainDev.rx plainSkbs).1 <+: plainLink.accepted ∧
    (receiveAll plainDev.rx plainSkbs).1.length + plainLink.dev.tx.backlog = plainLink.accepted.length :=
  (received_in_order plain_runs plain_plenty plain_arrived plain_receives).2

/-- A datagram for which there was no memory at all waits for the next call, and nothing will flush it. -/
example : (link.run (Link.new plainDev) [.startXmit (List.replicate 14 7) ⟨none, none⟩]).any (fun s =>
    s.dev.tx.txRemSkb.isSome && !s.dev.tx.timerActive && !s.bh && !s.flushing) = true := by decide +kernel

/-- Every block that went out while memory lasts is no longer than the device takes, ends visibly and has a table of its
datagrams, and the device finds the payload of each, behind the Ethernet header, at the remainder it asked for. -/
theorem blocks_as_asked {k : ℕ} (h : Runs b dev labels t) (hmem : ∀ a ∈ labels, a.Plenty)
    (hpow : dev.parm.wNdpOutDivisor.toNat = 2 ^ k) (hleast : ndpAlignMinSize ≤ dev.parm.wNdpOutDivisor.toNat)
    (hremainder : dev.parm.wNdpOutPayloadRemainder.toNat < dev.parm.wNdpOutDivisor.toNat) :
    ∀ block ∈ t.wire, block.length ≤ dev.parm.largestNtb ∧ EndsVisibly dev.parm dev.tx.set block.length ∧
      ∃ entries frames, frames ≠ [] ∧
        Table dev.tx.set.format block (load block dev.tx.set.format.ndpIndex dev.tx.set.format.width) entries ∧
        Stored block dev.tx.set.format.nthSize entries frames ∧ ∀ entry ∈ entries,
          (entry.1 + b.desc.ethHlen) % dev.parm.wNdpOutDivisor.toNat = dev.parm.wNdpOutPayloadRemainder.toNat := by
  obtain ⟨_, sent, _, hcarried, _⟩ := h.inv True fun _ => hmem
  have hsettled := bindCommon_settled h.bound h.regular h.maxpacket
  have hmost : dev.parm.wNdpOutDivisor.toNat < dev.tx.set.txMax := by
    have hdivisor := h.regular.divisor
    have hsize := hsettled.txMax_ge
    unfold ntbMinOutSize at hsize
    omega
  intro block hblock
  obtain ⟨i, rfl⟩ := List.mem_iff_get.mp hblock
  have hwire := hcarried.onWire.get i.isLt (hcarried.onWire.length_eq ▸ i.isLt)
  obtain ⟨toEnd, _, p, entries, hindex, _, _, htable, hstored, haligned, _⟩ := hwire.compliant
  refine ⟨hwire.size, hwire.ends trivial, entries, _, hwire.nonempty, ?_, hstored, fun entry hentry => ?_⟩
  · exact hindex.symm ▸ htable
  · exact bindCommon_payload h.bound hpow hleast hmost hremainder entry.1 (haligned entry hentry)

/-- The block of the first datagram ends visibly. -/
theorem blocks_as_asked_plain :
    plainLink.wire.length = 1 ∧
      ∀ block ∈ plainLink.wire, EndsVisibly plainDev.parm plainDev.tx.set block.length :=
  ⟨by decide +kernel, fun block hblock =>
    (blocks_as_asked (k := 2) plain_runs plain_plenty (by decide) (by decide) (by decide) block hblock).2.1⟩

end Runs

end LinuxFunctionTest.Ncm
