import LinuxFunctionTest.Ncm.Configuration
import LinuxFunctionTest.Library.Machine

/-!
# The transmit side as a machine

The network stack hands over datagrams, a timer and its tasklet flush what waits too long, and the
administrator changes the settings, all in any order. The tasklet decides to flush before it has
the transmit lock, so that other steps may come between. The machine records the datagrams that the
stack handed over and the blocks that went out.
-/

namespace LinuxFunctionTest.Ncm

open LinuxFunctionTest.Image

/-- `cdc_ncm_tx_timer_cb`: the context, and whether the tasklet is scheduled. -/
def txTimerCb (ctx : TxCtx) (bh : Bool) : TxCtx × Bool := ({ ctx with timerActive := false }, bh || !ctx.stop)

/-- `cdc_ncm_txpath_bh` up to the transmit lock: the context, and whether to flush under the lock. -/
def txpathBh (ctx : TxCtx) : TxCtx × Bool :=
  if ctx.txTimerPending ≠ 0 then (txTimeoutStart { ctx with txTimerPending := ctx.txTimerPending - 1 }, false)
  else ({ ctx with txReasonTimeout := ctx.txReasonTimeout + 1 }, true)

/-- The transmit side of a bound device. -/
structure Link where
  dev : NcmDev
  /-- Whether the tasklet is scheduled. -/
  bh : Bool
  /-- Whether the tasklet waits for the transmit lock to flush. -/
  flushing : Bool
  /-- The datagrams that the network stack handed over. -/
  accepted : List Frame
  /-- The blocks that went out. -/
  wire : List (List UInt8)
  /-- Whether a step would have stopped the kernel. -/
  crashed : Bool

/-- A bound device before the first datagram. -/
def Link.new (dev : NcmDev) : Link := ⟨dev, false, false, [], [], false⟩

/-- The steps of the transmit side, with the answers of memory and of the device. -/
inductive Label where
  | startXmit (skb : Frame) (mem : Memory)
  | txTimerCb
  | txpathBh
  | flush (mem : Memory)
  | minTxPktStore (val : Except ℤ ℕ) (len : ℤ)
  | rxMaxStore (val : Except ℤ ℕ) (len : ℤ) (running reply : Bool) (mem : Memory)
  | txMaxStore (val : Except ℤ ℕ) (len : ℤ) (running reply : Bool) (mem : Memory)
  | txTimerUsecsStore (val : Except ℤ ℕ) (len : ℤ)
  | ndpToEndStore (enable : Option Bool) (len : ℤ) (alloc : Bool) (mem : Memory)
  | changeMtu (newMtu : ℕ)

/-- Take over what a call of the transmit path leaves. -/
def Link.transmit (s : Link) (r : Option (TxCtx × Option SkbOut)) : Link :=
  r.elim { s with crashed := true } fun r =>
    { s with dev := { s.dev with tx := r.1 }, wire := s.wire ++ r.2.toList.map SkbOut.data }

/-- Take over what a change of the settings leaves. -/
def Link.store (s : Link) (r : Option (ℤ × NcmDev × Option SkbOut)) : Link :=
  r.elim { s with crashed := true } fun r =>
    { s with dev := r.2.1, wire := s.wire ++ r.2.2.toList.map SkbOut.data }

/-- One step, none where it is not enabled. -/
def Link.step (s : Link) (a : Label) : Option Link :=
  if s.crashed then none
  else match a with
    | .startXmit skb mem => some ({ s with accepted := s.accepted ++ [skb] }.transmit (txFixup s.dev.tx skb mem))
    | .txTimerCb =>
      if s.dev.tx.timerActive then
        let r := Ncm.txTimerCb s.dev.tx s.bh
        some { s with dev := { s.dev with tx := r.1 }, bh := r.2 }
      else none
    | .txpathBh =>
      if s.bh ∧ ¬ s.flushing then
        let r := Ncm.txpathBh s.dev.tx
        some { s with dev := { s.dev with tx := r.1 }, bh := false, flushing := r.2 }
      else none
    | .flush mem =>
      if s.flushing then some ({ s with flushing := false }.transmit (txFixup s.dev.tx none mem)) else none
    | .minTxPktStore val len => some { s with dev := (Ncm.minTxPktStore s.dev val len).2 }
    | .rxMaxStore val len running reply mem => some (s.store (Ncm.rxMaxStore s.dev val len running reply mem))
    | .txMaxStore val len running reply mem => some (s.store (Ncm.txMaxStore s.dev val len running reply mem))
    | .txTimerUsecsStore val len => some { s with dev := (Ncm.txTimerUsecsStore s.dev val len).2 }
    | .ndpToEndStore enable len alloc mem => some (s.store (Ncm.ndpToEndStore s.dev len enable alloc mem))
    | .changeMtu newMtu => some { s with dev := Ncm.changeMtu s.dev newMtu }

section Enabled

variable {s : Link} (hrunning : s.crashed = false)

include hrunning

/-- A running timer may expire. -/
theorem Link.step_txTimerCb (h : s.dev.tx.timerActive = true) : s.step .txTimerCb = some { s with
    dev := { s.dev with tx := (Ncm.txTimerCb s.dev.tx s.bh).1 }
    bh := (Ncm.txTimerCb s.dev.tx s.bh).2 } := by
  rw [Link.step, if_neg (by simp [hrunning])]
  exact if_pos h

/-- A scheduled tasklet that does not wait for the lock may run. -/
theorem Link.step_txpathBh (h : s.bh = true) (hflushing : s.flushing = false) : s.step .txpathBh = some { s with
    dev := { s.dev with tx := (Ncm.txpathBh s.dev.tx).1 }
    bh := false
    flushing := (Ncm.txpathBh s.dev.tx).2 } := by
  rw [Link.step, if_neg (by simp [hrunning])]
  exact if_pos ⟨h, by simp [hflushing]⟩

/-- A tasklet that waits for the lock may flush. -/
theorem Link.step_flush (h : s.flushing = true) (mem : Memory) :
    s.step (.flush mem) = some ({ s with flushing := false }.transmit (txFixup s.dev.tx none mem)) := by
  rw [Link.step, if_neg (by simp [hrunning])]
  exact if_pos h

end Enabled

/-- The transmit side as a machine. -/
def link : Machine Link Label where
  step := Link.step

/-- What a call of the transmit path does with the datagrams: of those collected, waiting and new, in this order,
some go out, some are lost, and the others are collected or wait. -/
structure Flow (ctx : TxCtx) (skb : Option Frame) (mem : Memory) (longest largest : ℕ)
    (frames gone lost frames' : List Frame) (r : TxCtx × Option SkbOut) : Prop where
  held : Held r.1 longest largest frames'
  set : r.1.set = ctx.set
  stop : r.1.stop = ctx.stop
  order : frames ++ (ctx.txRemSkb.toList ++ skb.toList) = gone ++ (lost ++ (frames' ++ r.1.txRemSkb.toList))
  txDropped : r.1.txDropped = ctx.txDropped + lost.length
  silent : r.2 = none → gone = []
  goes : ∀ ntb, r.2 = some ntb → gone ≠ [] ∧ (∀ frame ∈ gone, Sendable longest frame) ∧ Sent r.1 ntb gone ∧
    r.1.txCurrSize ≤ largest
  txOverhead : r.1.txOverhead = ctx.txOverhead +
    (r.2.toList.map fun ntb : SkbOut => subWord 32 ntb.data.length (payloadOf gone % 2 ^ 32)).sum
  txNtbs : r.1.txNtbs = ctx.txNtbs + r.2.toList.length
  pending_le : ctx.txTimerPending ≤ timerPendingCnt → r.1.txTimerPending ≤ timerPendingCnt
  flushed : skb = none → frames' = []
  armed : frames' ≠ [] → r.1.timerActive = true ∨ r.1.stop = true
  timerActive : ctx.timerActive = true → r.1.timerActive = true
  lossless : mem.full.isSome = true → ctx.txLowMemVal = 0 → lost = [] ∧ FullSize ctx mem r.1 ∧
    (skb = none → r.1.txRemSkb = none) ∧ (frames = [] → ctx.txRemSkb = none → r.1.txRemSkb = none)

section Flow

variable {ctx : TxCtx} {skb : Option Frame} {mem : Memory} {longest largest : ℕ} {frames : List Frame}

/-- Where one datagram was there and some were taken, none is left. -/
theorem none_of_taken {there taken : List Frame} {left : Option Frame} (h : there = taken ++ left.toList)
    (hlen : there.length ≤ 1) (htaken : taken ≠ []) : left = none := by
  have hpos := List.length_pos_iff.mpr htaken
  cases left with
  | none => rfl
  | some frame =>
    rw [h, List.length_append, Option.toList_some, List.length_singleton] at hlen
    omega

/-- Every outcome of a call is a flow. -/
theorem TxOutcome.flow {r : TxCtx × Option SkbOut} (hheld : Held ctx longest largest frames)
    (h : TxOutcome ctx skb mem longest largest frames r) :
    ∃ gone lost frames', Flow ctx skb mem longest largest frames gone lost frames' r := by
  cases h with
  | @failed ctx' lost memory idle held still set order txDropped timerActive stop txTimerPending txOverhead txNtbs =>
    have hnone : frames = [] := (hheld.idle idle).1
    refine ⟨[], lost, [], ?_⟩
    exact { held := held, set := set, stop := stop
            order := by simp [hnone, order]
            txDropped := txDropped, silent := fun _ => rfl, goes := nofun
            txOverhead := by simp [txOverhead]
            txNtbs := by simp [txNtbs]
            pending_le := fun hle => txTimerPending.trans_le hle
            flushed := fun _ => rfl, armed := fun hne => absurd rfl hne
            timerActive := fun hactive => timerActive.trans hactive
            lossless := fun hfull hzero => by
              rcases memory with hno | hlow
              · exact absurd hfull (by simp [hno])
              · exact absurd hzero hlow.1 }
  | @waits ctx' taken held set order empty flush txDropped armed timerActive stop pending_le txOverhead txNtbs full =>
    refine ⟨[], [], frames ++ taken, ?_⟩
    exact { held := held, set := set, stop := stop
            order := by simp [empty, order]
            txDropped := txDropped, silent := fun _ => rfl, goes := nofun
            txOverhead := by simp [txOverhead]
            txNtbs := by simp [txNtbs]
            pending_le := pending_le, flushed := flush, armed := armed, timerActive := timerActive
            lossless := fun _ _ => ⟨rfl, full, fun _ => empty, fun _ _ => empty⟩ }
  | @sends ctx' ntb taken held still set order nonempty sendable sent curr_le txDropped timerActive stop
      txTimerPending txOverhead txNtbs full =>
    refine ⟨frames ++ taken, [], [], ?_⟩
    exact { held := held, set := set, stop := stop
            order := by simp [order]
            txDropped := txDropped, silent := nofun
            goes := fun ntb' hntb => by
              obtain rfl := Option.some.inj hntb
              exact ⟨nonempty, sendable, sent, curr_le⟩
            txOverhead := by simp [txOverhead]
            txNtbs := by simp [txNtbs]
            pending_le := fun hle => txTimerPending.trans_le hle
            flushed := fun _ => rfl, armed := fun hne => absurd rfl hne
            timerActive := fun hactive => timerActive.trans hactive
            lossless := fun _ _ => by
              refine ⟨rfl, full, fun hskb => ?_, fun hframes hrem => ?_⟩
              · cases hrem : ctx.txRemSkb with
                | none =>
                  rw [hrem, hskb] at order
                  cases hleft : ctx'.txRemSkb with
                  | none => rfl
                  | some frame => exact absurd order (by simp [hleft])
                | some frame =>
                  have hframes : frames = [] := by
                    by_contra hne
                    exact absurd (hheld.alone hne) (by simp [hrem])
                  rw [hrem, hskb] at order
                  exact none_of_taken order (by simp) (by simpa [hframes] using nonempty)
              · rw [hrem, Option.toList_none, List.nil_append] at order
                exact none_of_taken order (by cases skb <;> simp) (by simpa [hframes] using nonempty) }

end Flow

/-- A block that went out: it carries its datagrams as the device asks for it and, while memory lasts, ends visibly. -/
structure OnWire (plenty : Prop) (first : NcmDev) (block : List UInt8) (frames : List Frame) : Prop where
  compliant : ∃ toEnd, Compliant { first.tx.set with ndpToEnd := toEnd } block frames
  nonempty : frames ≠ []
  sendable : ∀ frame ∈ frames, Sendable minDatagramSize frame
  size : block.length ≤ first.parm.largestNtb
  blockLength : load block 8 first.tx.set.format.width = block.length % 256 ^ first.tx.set.format.width
  ends : plenty → EndsVisibly first.parm first.tx.set block.length

/-- The bytes of the blocks that are not payload. -/
def overheadOf (wire : List (List UInt8)) (sent : List (List Frame)) : ℕ :=
  (List.zipWith (fun (block : List UInt8) frames => subWord 32 block.length (payloadOf frames % 2 ^ 32)) wire sent).sum

/-- What holds while memory for full buffers lasts: every datagram is out, collected or waiting, and the block in the
making has a size that ends visibly. -/
structure Lossless (dev : NcmDev) (accepted : List Frame) (sent : List (List Frame)) (frames : List Frame) : Prop where
  all : accepted = sent.flatten ++ (frames ++ dev.tx.txRemSkb.toList)
  txLowMemVal : dev.tx.txLowMemVal = 0
  ends : dev.tx.txCurrSkb.isSome = true → EndsVisibly dev.parm dev.tx.set dev.tx.txCurrSize

/-- Where the datagrams are that a bound device accepted: out in `sent`, collected in `frames`, waiting, or dropped. -/
structure Carried (plenty : Prop) (first dev : NcmDev) (wire : List (List UInt8)) (accepted : List Frame)
    (sent : List (List Frame)) (frames : List Frame) : Prop where
  settled : dev.Settled
  held : Held dev.tx minDatagramSize dev.parm.largestNtb frames
  layout : first.tx.set.SameLayout dev.tx.set
  maxpacket : dev.tx.set.maxpacket = first.tx.set.maxpacket
  parm : dev.parm = first.parm
  stop : dev.tx.stop = false
  onWire : List.Forall₂ (OnWire plenty first) wire sent
  order : (sent.flatten ++ (frames ++ dev.tx.txRemSkb.toList)).Sublist accepted
  count : sent.flatten.length + frames.length + dev.tx.txRemSkb.toList.length + dev.tx.txDropped = accepted.length
  txOverhead : dev.tx.txOverhead = overheadOf wire sent
  txNtbs : dev.tx.txNtbs = wire.length
  pending_le : dev.tx.txTimerPending ≤ timerPendingCnt
  lossless : plenty → Lossless dev accepted sent frames

section Carried

variable {plenty : Prop} {first dev : NcmDev} {wire : List (List UInt8)} {accepted : List Frame}
  {sent : List (List Frame)} {frames : List Frame}

/-- Whether a size ends visibly depends on the packet size only. -/
theorem EndsVisibly.congr {parm parm' : NcmParm} {set set' : TxSettings} {size : ℕ} (h : EndsVisibly parm set size)
    (hparm : parm' = parm) (hset : set'.maxpacket = set.maxpacket) : EndsVisibly parm' set' size := by
  rw [EndsVisibly, hparm, hset]
  exact h

/-- The layout decides whether a block is as the device asks for it. -/
theorem Compliant.relayout {set set' : TxSettings} {data : List UInt8} (h : Compliant set data frames)
    (hlayout : set.SameLayout set') : Compliant { set' with ndpToEnd := set.ndpToEnd } data frames := by
  obtain ⟨hsign, p, entries, hindex, hlow, hp, htable, hstored, haligned, hfront⟩ := h
  have hformat : ({ set' with ndpToEnd := set.ndpToEnd } : TxSettings).format = set.format := hlayout.format
  refine ⟨hformat ▸ hsign, p, entries, hformat ▸ hindex, hformat ▸ hlow, hp, hformat ▸ htable, hformat ▸ hstored, ?_,
    ?_⟩
  · simp only
    rw [hlayout.txModulus, hlayout.txRemainder]
    exact haligned
  · simp only
    rw [hlayout.txNdpModulus]
    exact hfront

/-- Layouts compare both ways. -/
theorem TxSettings.SameLayout.symm {set set' : TxSettings} (h : set.SameLayout set') : set'.SameLayout set :=
  ⟨h.isNdp16.symm, h.maxNdpSize.symm, h.txNdpModulus.symm, h.txModulus.symm, h.txRemainder.symm,
    h.txMaxDatagrams.symm⟩

/-- Layouts compare across several changes. -/
theorem TxSettings.SameLayout.trans {set set' set'' : TxSettings} (h : set.SameLayout set')
    (h' : set'.SameLayout set'') : set.SameLayout set'' :=
  ⟨h'.isNdp16.trans h.isNdp16, h'.maxNdpSize.trans h.maxNdpSize, h'.txNdpModulus.trans h.txNdpModulus,
    h'.txModulus.trans h.txModulus, h'.txRemainder.trans h.txRemainder, h'.txMaxDatagrams.trans h.txMaxDatagrams⟩

/-- While memory lasts, a call leaves a size for the block in the making that ends visibly. -/
theorem Carried.size_of_flow (h : Carried plenty first dev wire accepted sent frames) {skb : Option Frame}
    {mem : Memory} {gone lost frames' : List Frame} {r : TxCtx × Option SkbOut}
    (hflow : Flow dev.tx skb mem minDatagramSize dev.parm.largestNtb frames gone lost frames' r)
    (hmem : mem.full.isSome = true) (hplenty : plenty) :
    r.1.txLowMemVal = 0 ∧ EndsVisibly dev.parm dev.tx.set r.1.txCurrSize := by
  have hbefore := h.lossless hplenty
  obtain ⟨hzero, hfull⟩ := (hflow.lossless hmem hbefore.txLowMemVal).2.1 hmem hbefore.txLowMemVal
  refine ⟨hzero, ?_⟩
  rcases hfull with hmax | hkept
  · exact hmax ▸ h.settled.ends
  · exact hkept.2 ▸ hbefore.ends hkept.1

/-- The block that a call sends, if it sends one, is as the device asked for it. -/
theorem Carried.onWire_of_flow (h : Carried plenty first dev wire accepted sent frames) {skb : Option Frame}
    {mem : Memory} {gone lost frames' : List Frame} {r : TxCtx × Option SkbOut}
    (hflow : Flow dev.tx skb mem minDatagramSize dev.parm.largestNtb frames gone lost frames' r)
    (hmem : plenty → mem.full.isSome = true) :
    List.Forall₂ (OnWire plenty first) (r.2.toList.map SkbOut.data) (r.2.toList.map fun _ => gone) := by
  have hlayout : first.tx.set.SameLayout r.1.set := hflow.set ▸ h.layout
  have hpacket : r.1.set.maxpacket = first.tx.set.maxpacket := hflow.set ▸ h.maxpacket
  cases hntb : r.2 with
  | none => exact .nil
  | some ntb =>
    obtain ⟨hne, hsendable, hsent, hcurr⟩ := hflow.goes ntb hntb
    refine .cons ⟨⟨_, hsent.compliant.relayout hlayout.symm⟩, hne, hsendable,
      h.parm ▸ hsent.size.trans hcurr, ?_, ?_⟩ .nil
    · rw [← hlayout.format]
      exact hsent.blockLength
    · intro hplenty
      rcases hsent.ends with hfull | hshort
      · exact hfull ▸ (h.size_of_flow hflow (hmem hplenty) hplenty).2.congr h.parm.symm h.maxpacket.symm
      · exact .inr (hpacket ▸ hshort)

/-- A call of the transmit path runs to its end and carries the datagrams on. -/
theorem Carried.transmit (h : Carried plenty first dev wire accepted sent frames) (skb : Option Frame) {mem : Memory}
    (hskb : ∀ frame ∈ skb.toList, Sendable minDatagramSize frame) (hmem : plenty → mem.full.isSome = true) :
    ∃ r gone lost frames', txFixup dev.tx skb mem = some r ∧
      Flow dev.tx skb mem minDatagramSize dev.parm.largestNtb frames gone lost frames' r ∧
      Carried plenty first { dev with tx := r.1 } (wire ++ r.2.toList.map SkbOut.data) (accepted ++ skb.toList)
        (sent ++ r.2.toList.map fun _ => gone) frames' := by
  obtain ⟨r, hr, houtcome⟩ := txFixup_spec mem h.held hskb
  obtain ⟨gone, lost, frames', hflow⟩ := houtcome.flow h.held
  refine ⟨r, gone, lost, frames', hr, hflow, ?_⟩
  have hset := hflow.set
  have hgone : (sent ++ r.2.toList.map fun _ => gone).flatten = sent.flatten ++ gone := by
    cases hntb : r.2 with
    | none => simp [hflow.silent hntb]
    | some ntb => simp
  have hlayout : first.tx.set.SameLayout r.1.set := hset ▸ h.layout
  have hpacket : r.1.set.maxpacket = first.tx.set.maxpacket := hset ▸ h.maxpacket
  exact { settled := ⟨hset ▸ h.settled.sane, hset ▸ h.settled.txMax_ge, by
            simp only
            rw [hset]
            exact h.settled.ends⟩
          held := hflow.held
          layout := hlayout
          maxpacket := hpacket
          parm := h.parm
          stop := hflow.stop.trans h.stop
          onWire := List.rel_append h.onWire (h.onWire_of_flow hflow hmem)
          order := by
            have hkept : (gone ++ (frames' ++ r.1.txRemSkb.toList)).Sublist
                (frames ++ (dev.tx.txRemSkb.toList ++ skb.toList)) := by
              rw [hflow.order]
              exact (List.sublist_append_right lost _).append_left gone
            have hbefore := h.order.append_right skb.toList
            rw [List.append_assoc, List.append_assoc] at hbefore
            rw [hgone, List.append_assoc]
            exact (hkept.append_left sent.flatten).trans hbefore
          count := by
            have hbefore := h.count
            have hlen := congrArg List.length hflow.order
            simp only [List.length_append] at hlen
            simp only [hgone, List.length_append, hflow.txDropped]
            omega
          txOverhead := by
            rw [hflow.txOverhead, h.txOverhead, overheadOf, overheadOf, List.zipWith_append h.onWire.length_eq,
              List.sum_append]
            cases r.2 <;> rfl
          txNtbs := by
            rw [hflow.txNtbs, h.txNtbs, List.length_append, List.length_map]
          pending_le := hflow.pending_le h.pending_le
          lossless := fun hplenty => by
            have hbefore := h.lossless hplenty
            have hlost := (hflow.lossless (hmem hplenty) hbefore.txLowMemVal).1
            obtain ⟨hzero, hends⟩ := h.size_of_flow hflow (hmem hplenty) hplenty
            refine ⟨?_, hzero, fun _ => hset ▸ hends⟩
            have horder := hflow.order
            rw [hlost, List.nil_append] at horder
            rw [hgone, hbefore.all, List.append_assoc, List.append_assoc, List.append_assoc, horder] }

/-- Without datagrams collected, a delayed table is clear. -/
theorem Held.clear {ctx : TxCtx} {longest largest : ℕ} (h : Held ctx longest largest []) :
    DelayedClear ctx.set ctx.delayedNdp := by
  cases hskb : ctx.txCurrSkb with
  | none => exact (h.idle hskb).2
  | some skbOut =>
    obtain ⟨⟨entries, hcollecting⟩, _⟩ := h.busy skbOut hskb
    cases hcollecting.ready with
    | fresh size index clear => exact clear
    | opened some table => exact absurd rfl some

/-- An empty block may be freed. -/
theorem Carried.free (h : Carried plenty first dev wire accepted sent []) :
    Carried plenty first { dev with tx := { dev.tx with txCurrSkb := none } } wire accepted sent [] :=
  { h with
    settled := ⟨h.settled.sane, h.settled.txMax_ge, h.settled.ends⟩
    held :=
      { sane := h.held.sane, idle := fun _ => ⟨rfl, h.held.clear⟩, busy := nofun
        alone := fun hne => absurd rfl hne, signed := h.held.signed, sendable := h.held.sendable }
    lossless := fun hplenty => ⟨(h.lossless hplenty).all, (h.lossless hplenty).txLowMemVal, nofun⟩ }

/-- Settings may change within the layout, and the place of the table between two blocks. -/
theorem Carried.resettings (h : Carried plenty first dev wire accepted sent frames) (set' : TxSettings)
    (hlayout : dev.tx.set.SameLayout set') (hmaxpacket : set'.maxpacket = dev.tx.set.maxpacket)
    (halloc : set'.ndpToEnd = true → set'.delayedAllocated = true)
    (hend : frames ≠ [] → set'.ndpToEnd = dev.tx.set.ndpToEnd) (hleast : ntbMinOutSize ≤ set'.txMax)
    (hmost : set'.txMax ≤ dev.parm.largestNtb) (hends : EndsVisibly dev.parm dev.tx.set set'.txMax) :
    Carried plenty first (dev.withSettings set') wire accepted sent frames := by
  have hsane := h.settled.sane.relayout hlayout hmaxpacket halloc hleast hmost
  exact { h with
          settled := ⟨hsane, hleast, hends.congr rfl hmaxpacket⟩
          held := h.held.relayout hsane hlayout hend
          layout := h.layout.trans hlayout
          maxpacket := hmaxpacket.trans h.maxpacket
          lossless := fun hplenty => ⟨(h.lossless hplenty).all, (h.lossless hplenty).txLowMemVal,
            fun hbusy => ((h.lossless hplenty).ends hbusy).congr rfl hmaxpacket⟩ }

/-- The timer, the rounds it waits and the count of timeouts carry nothing. -/
theorem Carried.retime (h : Carried plenty first dev wire accepted sent frames) (active : Bool) (timeouts : ℕ)
    {pending : ℕ} (hpending : pending ≤ timerPendingCnt) :
    Carried plenty first { dev with tx := { dev.tx with
      timerActive := active, txTimerPending := pending, txReasonTimeout := timeouts } } wire accepted sent frames :=
  { h with
    settled := ⟨h.settled.sane, h.settled.txMax_ge, h.settled.ends⟩
    held := h.held.congr rfl rfl rfl rfl rfl rfl rfl rfl
    pending_le := hpending
    lossless := fun hplenty =>
      ⟨(h.lossless hplenty).all, (h.lossless hplenty).txLowMemVal, (h.lossless hplenty).ends⟩ }

/-- The receive side and the size of datagrams carry nothing. -/
theorem Carried.congr (h : Carried plenty first dev wire accepted sent frames) (dev' : NcmDev)
    (htx : dev'.tx = dev.tx) (hparm : dev'.parm = dev.parm) :
    Carried plenty first dev' wire accepted sent frames where
  settled := by
    refine ⟨hparm ▸ htx ▸ h.settled.sane, htx ▸ h.settled.txMax_ge, ?_⟩
    rw [htx, hparm]
    exact h.settled.ends
  held := hparm ▸ htx ▸ h.held
  layout := htx ▸ h.layout
  maxpacket := htx ▸ h.maxpacket
  parm := hparm.trans h.parm
  stop := htx ▸ h.stop
  onWire := h.onWire
  order := htx ▸ h.order
  count := htx ▸ h.count
  txOverhead := htx ▸ h.txOverhead
  txNtbs := htx ▸ h.txNtbs
  pending_le := htx ▸ h.pending_le
  lossless := fun hplenty => by
    refine ⟨htx ▸ (h.lossless hplenty).all, htx ▸ (h.lossless hplenty).txLowMemVal, ?_⟩
    rw [htx, hparm]
    exact (h.lossless hplenty).ends

/-- Datagrams wait for more to be collected with them or, while memory lasts, for the next block. -/
def Waiting (plenty : Prop) (dev : NcmDev) (frames : List Frame) : Prop :=
  frames ≠ [] ∨ (plenty ∧ dev.tx.txRemSkb ≠ none)

/-- What a change of the settings does to the datagrams and the timer: none wait that did not, and the timer goes on. -/
structure Quiet (plenty : Prop) (dev dev' : NcmDev) (frames frames' : List Frame) : Prop where
  waiting : Waiting plenty dev' frames' → Waiting plenty dev frames
  timerActive : dev.tx.timerActive = true → dev'.tx.timerActive = true

/-- The outcome of a change of the settings. -/
def Stores (plenty : Prop) (first dev : NcmDev) (wire : List (List UInt8)) (accepted : List Frame)
    (frames : List Frame) (r : NcmDev × Option SkbOut) : Prop :=
  ∃ sent' frames', Carried plenty first r.1 (wire ++ r.2.toList.map SkbOut.data) accepted sent' frames' ∧
    Quiet plenty dev r.1 frames frames'

/-- A change that sends nothing. -/
theorem Carried.stores {dev' : NcmDev} (h : Carried plenty first dev' wire accepted sent frames)
    (hrem : dev'.tx.txRemSkb = dev.tx.txRemSkb) (hactive : dev'.tx.timerActive = dev.tx.timerActive) :
    Stores plenty first dev wire accepted frames (dev', none) := by
  refine ⟨sent, frames, ?_, ⟨?_, fun htrue => hactive.trans htrue⟩⟩
  · simpa using h
  · rw [Waiting, hrem]
    exact id

/-- Flushing leaves no datagram behind while memory lasts, and none collected in any case. -/
theorem Carried.flush (h : Carried plenty first dev wire accepted sent frames) {mem : Memory}
    (hmem : plenty → mem.full.isSome = true) :
    ∃ r sent', txFixup dev.tx none mem = some r ∧
      Carried plenty first { dev with tx := r.1 } (wire ++ r.2.toList.map SkbOut.data) accepted sent' [] ∧
      (plenty → r.1.txRemSkb = none) ∧ r.1.set = dev.tx.set ∧
      (dev.tx.timerActive = true → r.1.timerActive = true) := by
  obtain ⟨r, gone, lost, frames', hr, hflow, hcarried⟩ := h.transmit none nofun hmem
  obtain rfl := hflow.flushed rfl
  rw [Option.toList_none, List.append_nil] at hcarried
  exact ⟨r, _, hr, hcarried, fun hplenty => (hflow.lossless (hmem hplenty)
    (h.lossless hplenty).txLowMemVal).2.2.1 rfl, hflow.set, hflow.timerActive⟩

/-- A change that flushes first leaves nothing that waits. -/
theorem Carried.stores_flushed {dev' : NcmDev} {ntb : Option SkbOut} {sent' : List (List Frame)}
    (h : Carried plenty first dev' (wire ++ ntb.toList.map SkbOut.data) accepted sent' [])
    (hrem : plenty → dev'.tx.txRemSkb = none) (hactive : dev.tx.timerActive = true → dev'.tx.timerActive = true) :
    Stores plenty first dev wire accepted frames (dev', ntb) := by
  refine ⟨sent', [], h, ⟨?_, hactive⟩⟩
  rintro (hne | hwait)
  · exact absurd rfl hne
  · exact absurd (hrem hwait.1) hwait.2

/-- Another size of blocks carries on. -/
theorem Carried.setTxMax (h : Carried plenty first dev wire accepted sent frames) {val : ℕ}
    (hleast : ntbMinOutSize ≤ val) (hmost : val ≤ dev.parm.largestNtb)
    (hends : EndsVisibly dev.parm dev.tx.set val) :
    Carried plenty first (dev.withSettings (dev.tx.set.setTxMax val)) wire accepted sent frames :=
  h.resettings _ ⟨rfl, rfl, rfl, rfl, rfl, rfl⟩ rfl h.settled.sane.allocated (fun _ => rfl) hleast hmost hends

/-- Setting the sizes carries on. -/
theorem Carried.updateRxtxMax (h : Carried plenty first dev wire accepted sent frames) (running reply : Bool)
    (newRx : ℕ) {newTx : ℕ} {mem : Memory} (hnew : ntbMinOutSize ≤ newTx) (hmem : plenty → mem.full.isSome = true) :
    ∃ r, Ncm.updateRxtxMax dev running newRx newTx reply mem = some r ∧
      Stores plenty first dev wire accepted frames r := by
  obtain ⟨hleast, hmost, hends⟩ := paddedTxMax_spec dev hnew
    (h.settled.sane.largest_ge.trans (Nat.min_le_left _ _)) h.settled.sane.maxpacket
  obtain ⟨dev', hdev', htx, hparm, hpadded⟩ : ∃ dev', dev' = (if checkRxMax dev.parm newRx ≠ dev.rx.rxMax ∧ reply then
      { dev with rx := { dev.rx with rxMax := checkRxMax dev.parm newRx } } else dev) ∧ dev'.tx = dev.tx ∧
      dev'.parm = dev.parm ∧ paddedTxMax dev' newTx = paddedTxMax dev newTx := by
    refine ⟨_, rfl, ?_⟩
    split <;> exact ⟨rfl, rfl, rfl⟩
  have hcarried := h.congr dev' htx hparm
  have hmost : paddedTxMax dev newTx ≤ dev'.parm.largestNtb := hparm ▸ hmost
  unfold Ncm.updateRxtxMax
  simp only
  rw [← hdev', hpadded]
  by_cases hflush : running = true ∧ paddedTxMax dev newTx > dev'.tx.set.txMax
  · obtain ⟨r, sent', hr, hsent, hrem, hset, hactive⟩ := hcarried.flush hmem
    have hends' : EndsVisibly dev'.parm r.1.set (paddedTxMax dev newTx) :=
      hends.congr hparm (by rw [hset, htx])
    rw [if_pos hflush, hr, Option.map_some]
    exact ⟨_, rfl, Carried.stores_flushed (hsent.setTxMax hleast hmost hends').free hrem (htx ▸ hactive)⟩
  · rw [if_neg hflush]
    exact ⟨_, rfl, (hcarried.setTxMax hleast hmost (hends.congr hparm (by rw [htx]))).stores (htx ▸ rfl) (htx ▸ rfl)⟩

/-- A store that is refused changes nothing. -/
theorem Carried.refused (h : Carried plenty first dev wire accepted sent frames) (err : ℤ) :
    ∃ r : ℤ × NcmDev × Option SkbOut, some (err, dev, none) = some r ∧
      Stores plenty first dev wire accepted frames r.2 :=
  ⟨_, rfl, h.stores rfl rfl⟩

section Stores

variable {val : Except ℤ ℕ} {len : ℤ} {running reply alloc : Bool} {mem : Memory}

/-- A write to `rx_max` carries on. -/
theorem Carried.rxMaxStore (h : Carried plenty first dev wire accepted sent frames)
    (hmem : plenty → mem.full.isSome = true) :
    ∃ r, Ncm.rxMaxStore dev val len running reply mem = some r ∧ Stores plenty first dev wire accepted frames r.2 := by
  unfold Ncm.rxMaxStore
  cases val with
  | error err => exact h.refused _
  | ok val =>
    simp only
    split
    · exact h.refused _
    · obtain ⟨r, hr, hstores⟩ := h.updateRxtxMax running reply val
        h.settled.txMax_ge hmem
      rw [hr, Option.map_some]
      exact ⟨_, rfl, hstores⟩

/-- A write to `tx_max` carries on, unless it sets a size below the smallest. -/
theorem Carried.txMaxStore (h : Carried plenty first dev wire accepted sent frames)
    (hval : ∀ size, val = .ok size → ntbMinOutSize ≤ size) (hmem : plenty → mem.full.isSome = true) :
    ∃ r, Ncm.txMaxStore dev val len running reply mem = some r ∧ Stores plenty first dev wire accepted frames r.2 := by
  unfold Ncm.txMaxStore
  cases val with
  | error err => exact h.refused _
  | ok val =>
    simp only
    split
    · exact h.refused _
    · obtain ⟨r, hr, hstores⟩ := h.updateRxtxMax running reply dev.rx.rxMax
        (hval val rfl) hmem
      rw [hr, Option.map_some]
      exact ⟨_, rfl, hstores⟩

/-- A write to `min_tx_pkt` carries on. -/
theorem Carried.minTxPktStore (h : Carried plenty first dev wire accepted sent frames) :
    Stores plenty first dev wire accepted frames ((Ncm.minTxPktStore dev val len).2, none) := by
  unfold Ncm.minTxPktStore
  cases val with
  | error err => exact h.stores rfl rfl
  | ok val =>
    exact (h.resettings { dev.tx.set with minTxPkt := val % 2 ^ 16 } ⟨rfl, rfl, rfl, rfl, rfl, rfl⟩ rfl
      h.settled.sane.allocated (fun _ => rfl) h.settled.txMax_ge h.settled.sane.txMax_le h.settled.ends).stores rfl rfl

/-- A write to `tx_timer_usecs` carries on. -/
theorem Carried.txTimerUsecsStore (h : Carried plenty first dev wire accepted sent frames) :
    Stores plenty first dev wire accepted frames ((Ncm.txTimerUsecsStore dev val len).2, none) := by
  unfold Ncm.txTimerUsecsStore
  cases val with
  | error err => exact h.stores rfl rfl
  | ok val =>
    simp only
    split
    · exact h.stores rfl rfl
    · have hset := h.resettings { dev.tx.set with timerInterval := val * nsecPerUsec }
        ⟨rfl, rfl, rfl, rfl, rfl, rfl⟩ rfl h.settled.sane.allocated (fun _ => rfl) h.settled.txMax_ge
        h.settled.sane.txMax_le h.settled.ends
      have hpending : (if val = 0 then 0 else dev.tx.txTimerPending) ≤ timerPendingCnt := by
        have := h.pending_le
        split <;> omega
      exact Carried.stores (hset.retime dev.tx.timerActive dev.tx.txReasonTimeout hpending)
        rfl rfl

/-- A change of the MTU carries on. -/
theorem Carried.changeMtu (h : Carried plenty first dev wire accepted sent frames) (newMtu : ℕ) :
    Stores plenty first dev wire accepted frames (Ncm.changeMtu dev newMtu, none) :=
  (h.congr (Ncm.changeMtu dev newMtu) rfl rfl).stores rfl rfl

/-- A switch of the place of the table carries on: the block in the making is flushed first. -/
theorem Carried.ndpToEndStore (h : Carried plenty first dev wire accepted sent frames) {enable : Option Bool}
    (hmem : plenty → mem.full.isSome = true) :
    ∃ r, Ncm.ndpToEndStore dev len enable alloc mem = some r ∧ Stores plenty first dev wire accepted frames r.2 := by
  unfold Ncm.ndpToEndStore
  cases enable with
  | none => exact h.refused _
  | some enable =>
    simp only
    split
    · exact h.refused _
    · split
      · exact h.refused _
      · have halloc := h.resettings { dev.tx.set with delayedAllocated := dev.tx.set.delayedAllocated || enable }
          ⟨rfl, rfl, rfl, rfl, rfl, rfl⟩ rfl (fun hend => by simp [h.settled.sane.allocated hend]) (fun _ => rfl)
          h.settled.txMax_ge h.settled.sane.txMax_le h.settled.ends
        obtain ⟨r, sent', hr, hsent, hrem, hset, hactive⟩ := halloc.flush hmem
        have hswitch := hsent.resettings { r.1.set with ndpToEnd := enable } ⟨rfl, rfl, rfl, rfl, rfl, rfl⟩ rfl
          (fun hend => by
            simp only at hend
            simp [hset, NcmDev.withSettings, hend]) nofun hsent.settled.txMax_ge hsent.settled.sane.txMax_le
          hsent.settled.ends
        simp only [NcmDev.withSettings] at hr
        rw [hr, Option.map_some]
        exact ⟨_, rfl, Carried.stores_flushed hswitch hrem hactive⟩

end Stores

end Carried

/-- Something will flush what is collected: the timer runs, its tasklet is scheduled, or it waits for the lock. -/
def Link.Armed (s : Link) : Prop := s.dev.tx.timerActive = true ∨ s.bh = true ∨ s.flushing = true

/-- The invariant of the transmit side of a device that was bound as `first`. -/
structure Link.Inv (plenty : Prop) (first : NcmDev) (s : Link) : Prop where
  crashed : s.crashed = false
  carried : ∃ sent frames, Carried plenty first s.dev s.wire s.accepted sent frames ∧
    (Waiting plenty s.dev frames → s.Armed)

/-- What the stack and the administrator keep to: the size of frames, and blocks that hold one. -/
def Label.Legal : Label → Prop
  | .startXmit skb _ => Sendable minDatagramSize skb
  | .txMaxStore val _ _ _ _ => ∀ size, val = .ok size → ntbMinOutSize ≤ size
  | _ => True

/-- There is memory for a full buffer. -/
def Label.Plenty : Label → Prop
  | .startXmit _ mem | .flush mem | .rxMaxStore _ _ _ _ mem | .txMaxStore _ _ _ _ mem | .ndpToEndStore _ _ _ mem =>
    mem.full.isSome = true
  | _ => True

section Steps

variable {plenty : Prop} {first : NcmDev} {s t : Link}

/-- A change of the settings keeps the invariant. -/
theorem Link.Inv.store (hs : s.Inv plenty first) {o : Option (ℤ × NcmDev × Option SkbOut)}
    (h : ∀ sent frames, Carried plenty first s.dev s.wire s.accepted sent frames →
      ∃ r, o = some r ∧ Stores plenty first s.dev s.wire s.accepted frames r.2) : (s.store o).Inv plenty first := by
  obtain ⟨sent, frames, hcarried, harmed⟩ := hs.carried
  obtain ⟨r, rfl, sent', frames', hcarried', hquiet⟩ := h sent frames hcarried
  exact ⟨hs.crashed, sent', frames', hcarried', fun hwait =>
    (harmed (hquiet.waiting hwait)).imp_left hquiet.timerActive⟩

/-- A change of the settings that sends nothing keeps the invariant. -/
theorem Link.Inv.silent (hs : s.Inv plenty first) {dev : NcmDev}
    (h : ∀ sent frames, Carried plenty first s.dev s.wire s.accepted sent frames →
      Stores plenty first s.dev s.wire s.accepted frames (dev, none)) :
    ({ s with dev := dev } : Link).Inv plenty first := by
  have hstore := hs.store (o := some (0, dev, none)) fun sent frames hcarried => ⟨_, rfl, h sent frames hcarried⟩
  simpa [Link.store] using hstore

/-- A datagram from the stack keeps the invariant. -/
theorem Link.Inv.startXmit (hs : s.Inv plenty first) {skb : Frame} {mem : Memory}
    (hskb : Sendable minDatagramSize skb) (hmem : plenty → mem.full.isSome = true) :
    ({ s with accepted := s.accepted ++ [skb] }.transmit (txFixup s.dev.tx skb mem)).Inv plenty first := by
  obtain ⟨sent, frames, hcarried, harmed⟩ := hs.carried
  obtain ⟨r, gone, lost, frames', hr, hflow, hcarried'⟩ := hcarried.transmit (some skb)
    (fun frame hframe => by
      obtain rfl := Option.some.inj (Option.mem_toList.mp hframe)
      exact hskb) hmem
  rw [hr]
  refine ⟨hs.crashed, _, frames', hcarried', ?_⟩
  rintro (hne | ⟨hplenty, hrem⟩)
  · have hstop : r.1.stop = false := hflow.stop.trans hcarried.stop
    exact .inl ((hflow.armed hne).resolve_right (by simp [hstop]))
  · have hbefore : Waiting plenty s.dev frames := by
      by_contra hno
      rw [Waiting, not_or, not_not, not_and, not_not] at hno
      exact hrem ((hflow.lossless (hmem hplenty) (hcarried.lossless hplenty).txLowMemVal).2.2.2 hno.1
        (hno.2 hplenty))
    exact (harmed hbefore).imp_left hflow.timerActive

/-- The timer keeps the invariant: it schedules the tasklet. -/
theorem Link.Inv.txTimerCb (hs : s.Inv plenty first) :
    ({ s with
      dev := { s.dev with tx := (Ncm.txTimerCb s.dev.tx s.bh).1 }
      bh := (Ncm.txTimerCb s.dev.tx s.bh).2 } : Link).Inv plenty first := by
  obtain ⟨sent, frames, hcarried, _⟩ := hs.carried
  refine ⟨hs.crashed, sent, frames, hcarried.retime false s.dev.tx.txReasonTimeout hcarried.pending_le,
    fun _ => .inr (.inl ?_)⟩
  simp [Ncm.txTimerCb, hcarried.stop]

/-- What the tasklet does: it lets the timer run for another round, or goes on to flush. -/
theorem txpathBh_spec {ctx : TxCtx} (hstop : ctx.stop = false) :
    (∃ pending, ctx.txTimerPending = pending + 1 ∧
      txpathBh ctx = ({ ctx with timerActive := true, txTimerPending := pending }, false)) ∨
    (ctx.txTimerPending = 0 ∧ txpathBh ctx = ({ ctx with txReasonTimeout := ctx.txReasonTimeout + 1 }, true)) := by
  unfold txpathBh
  cases hpending : ctx.txTimerPending with
  | zero => exact .inr ⟨rfl, by simp⟩
  | succ pending =>
    refine .inl ⟨pending, rfl, ?_⟩
    rw [if_pos (Nat.succ_ne_zero pending), Nat.add_sub_cancel]
    unfold txTimeoutStart
    simp only [hstop, Bool.false_eq_true, or_false]
    cases hactive : ctx.timerActive with
    | false => rfl
    | true =>
      rw [if_pos rfl]

/-- The tasklet keeps the invariant. -/
theorem Link.Inv.txpathBh (hs : s.Inv plenty first) :
    ({ s with
      dev := { s.dev with tx := (Ncm.txpathBh s.dev.tx).1 }
      bh := false
      flushing := (Ncm.txpathBh s.dev.tx).2 } : Link).Inv plenty first := by
  obtain ⟨sent, frames, hcarried, _⟩ := hs.carried
  have hpending := hcarried.pending_le
  rcases txpathBh_spec hcarried.stop with ⟨pending, hrounds, hstep⟩ | ⟨_, hstep⟩
  · rw [hstep]
    exact ⟨hs.crashed, sent, frames, hcarried.retime true s.dev.tx.txReasonTimeout (by omega), fun _ => .inl rfl⟩
  · rw [hstep]
    exact ⟨hs.crashed, sent, frames, hcarried.retime s.dev.tx.timerActive (s.dev.tx.txReasonTimeout + 1) hpending,
      fun _ => .inr (.inr rfl)⟩

/-- A flush keeps the invariant. -/
theorem Link.Inv.flush (hs : s.Inv plenty first) {mem : Memory} (hmem : plenty → mem.full.isSome = true) :
    ({ s with flushing := false }.transmit (txFixup s.dev.tx none mem)).Inv plenty first := by
  obtain ⟨sent, frames, hcarried, _⟩ := hs.carried
  obtain ⟨r, sent', hr, hcarried', hrem, _⟩ := hcarried.flush hmem
  rw [hr]
  refine ⟨hs.crashed, sent', [], hcarried', ?_⟩
  rintro (hne | ⟨hplenty, hwait⟩)
  · exact absurd rfl hne
  · exact absurd (hrem hplenty) hwait

/-- Every legal step keeps the invariant. -/
theorem Link.Inv.step {a : Label} (hs : s.Inv plenty first) (h : s.step a = some t) (hlegal : a.Legal)
    (hmem : plenty → a.Plenty) : t.Inv plenty first := by
  unfold Link.step at h
  rw [if_neg (by simp [hs.crashed])] at h
  cases a with
  | startXmit skb mem => exact Option.some.inj h ▸ hs.startXmit hlegal hmem
  | txTimerCb =>
    simp only [Option.ite_none_right_eq_some, Option.some.injEq] at h
    exact h.2 ▸ hs.txTimerCb
  | txpathBh =>
    simp only [Option.ite_none_right_eq_some, Option.some.injEq] at h
    exact h.2 ▸ hs.txpathBh
  | flush mem =>
    simp only [Option.ite_none_right_eq_some, Option.some.injEq] at h
    exact h.2 ▸ hs.flush hmem
  | minTxPktStore val len => exact Option.some.inj h ▸ hs.silent fun _ _ hcarried => hcarried.minTxPktStore
  | rxMaxStore val len running reply mem =>
    exact Option.some.inj h ▸ hs.store fun _ _ hcarried => hcarried.rxMaxStore hmem
  | txMaxStore val len running reply mem =>
    exact Option.some.inj h ▸ hs.store fun _ _ hcarried => hcarried.txMaxStore hlegal hmem
  | txTimerUsecsStore val len => exact Option.some.inj h ▸ hs.silent fun _ _ hcarried => hcarried.txTimerUsecsStore
  | ndpToEndStore enable len alloc mem =>
    exact Option.some.inj h ▸ hs.store fun _ _ hcarried => hcarried.ndpToEndStore hmem
  | changeMtu newMtu => exact Option.some.inj h ▸ hs.silent fun _ _ hcarried => hcarried.changeMtu newMtu

/-- A device that was just bound, with nothing accepted. -/
theorem Link.Inv.new {dev : NcmDev} (hdev : dev.Settled) (htx : dev.tx = .new dev.tx.set) :
    (Link.new dev).Inv plenty dev := by
  have hheld : Held dev.tx minDatagramSize dev.parm.largestNtb [] := by
    rw [htx]
    exact { sane := hdev.sane, idle := fun _ => ⟨rfl, rfl⟩, busy := nofun, alone := fun hne => absurd rfl hne
            signed := nofun, sendable := nofun }
  have hrem : dev.tx.txRemSkb = none := htx ▸ rfl
  have hcarried : Carried plenty dev dev [] [] [] [] := by
    exact { settled := hdev, held := hheld, layout := ⟨rfl, rfl, rfl, rfl, rfl, rfl⟩, maxpacket := rfl, parm := rfl
            stop := htx ▸ rfl, onWire := .nil
            order := by simp [hrem]
            count := by
              rw [htx]
              rfl
            txOverhead := htx ▸ rfl, txNtbs := htx ▸ rfl
            pending_le := by
              rw [htx]
              exact Nat.zero_le _
            lossless := fun _ => ⟨by simp [hrem], htx ▸ rfl, by rw [htx]; exact nofun⟩ }
  refine ⟨rfl, [], [], hcarried, ?_⟩
  rintro (hne | ⟨_, hwait⟩)
  · exact absurd rfl hne
  · exact absurd hrem hwait

/-- The invariant holds after every legal run. -/
theorem Link.Inv.run {labels : List Label} (hs : s.Inv plenty first) (hrun : link.run s labels = some t)
    (hlegal : ∀ a ∈ labels, a.Legal) (hmem : plenty → ∀ a ∈ labels, a.Plenty) : t.Inv plenty first := by
  induction labels generalizing s with
  | nil => exact Option.some.inj hrun ▸ hs
  | cons a rest ih =>
    obtain ⟨u, hu, hrun⟩ := Option.bind_eq_some_iff.mp hrun
    exact ih (hs.step hu (hlegal a List.mem_cons_self) fun hplenty => hmem hplenty a List.mem_cons_self) hrun
      (fun b hb => hlegal b (List.mem_cons_of_mem a hb)) fun hplenty b hb => hmem hplenty b (List.mem_cons_of_mem a hb)

end Steps

end LinuxFunctionTest.Ncm
