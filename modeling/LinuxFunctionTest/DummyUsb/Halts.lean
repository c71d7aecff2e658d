import LinuxFunctionTest.DummyUsb.Control

/-!
# Halted and wedged endpoints

Runs of the controller with control requests from the host, in which it is followed which endpoints were
halted and wedged, and by whom they were released again. The `halted` flag is what was followed, in every
run. A wedge is another matter: `dummy_set_wedge` calls `dummy_set_halt` with 1, which sets no `wedged` flag,
so a host that clears the halt releases the endpoint. It stays halted exactly when no host does.
-/

namespace LinuxFunctionTest.DummyUsb

open Errno

/-- A step under the lock: a call of a gadget driver, a poll or a call under way, a control request of
the host, or `dummy_udc_start`. -/
inductive HaltStep where
  | gadget (step : GadgetStep)
  | setup (setup : UsbCtrlRequest)
  | udcStart

/-- `dummy_udc_start` with a speed it accepts. -/
def dummyUdcStart (g : Gadget) : Gadget :=
  { g with devstatus := 0, udc := { g.udc with driver := true } }

/-- What a step does to the controller. -/
def haltStep (g : Gadget) : HaltStep → Option Gadget
  | .gadget step => gadgetStep g step
  | .setup setup => some (handleControlRequest g setup).1
  | .udcStart => some (dummyUdcStart g)

/-- The endpoint that a request of this kind names: `SET_FEATURE` or `CLEAR_FEATURE` for an endpoint. -/
def featureEp (dum : UoeUdc) (bRequest : UInt8) (setup : UsbCtrlRequest) : Option ℕ :=
  if setup.bRequest = bRequest ∧ setup.bRequestType = usbStandardEndpoint then
    namedEp dum setup.wIndex
  else none

/-- An endpoint that a step halts or releases. -/
structure HaltChange where
  ep : ℕ
  halted : Bool
  deriving DecidableEq

/-- The endpoint that a step halts or releases: an accepted `dummy_set_halt` or `dummy_set_wedge`, a request
of the host, or enabling the endpoint. `CLEAR_FEATURE` releases no wedged endpoint. -/
def haltChange (g : Gadget) : HaltStep → Option HaltChange
  | .gadget (.setHalt i value) =>
    if (dummySetHalt g i value).2 = 0 then some ⟨i, value != 0⟩ else none
  | .gadget (.setWedge i) => if (dummySetWedge g i).2 = 0 then some ⟨i, true⟩ else none
  | .gadget (.udc (.enable i epAddr)) =>
    if (dummyEnable g.udc i epAddr).2 = 0 then some ⟨i, false⟩ else none
  | .gadget (.udc _) => none
  | .setup setup =>
    match featureEp g.udc usbReqSetFeature setup with
    | some i => some ⟨i, true⟩
    | none =>
      match featureEp g.udc usbReqClearFeature setup with
      | some i => if (g.udc.ep i).wedged then none else some ⟨i, false⟩
      | none => none
  | .udcStart => none

/-- The enabled endpoint that `dummy_set_wedge` wedges, or the endpoint that `dummy_set_halt(0)` or enabling
it releases. -/
def wedgeChange (g : Gadget) : HaltStep → Option HaltChange
  | .gadget (.setWedge i) =>
    if (dummySetWedge g i).2 = 0 ∧ (g.udc.ep i).desc.isSome then some ⟨i, true⟩ else none
  | .gadget (.setHalt i value) =>
    if (dummySetHalt g i value).2 = 0 ∧ value = 0 then some ⟨i, false⟩ else none
  | .gadget (.udc (.enable i epAddr)) =>
    if (dummyEnable g.udc i epAddr).2 = 0 then some ⟨i, false⟩ else none
  | .gadget (.udc _) => none
  | .setup _ => none
  | .udcStart => none

/-- The endpoints after a change. -/
def follow (flags : ℕ → Bool) : Option HaltChange → ℕ → Bool
  | some change => Function.update flags change.ep change.halted
  | none => flags

/-- A poll of a halted endpoint: the replies sent for it and the requests it completes. -/
structure HaltedPoll where
  epAddr : UInt8
  seq : UInt16
  replies : List Reply
  completed : List ReqRef
  deriving DecidableEq

/-- The controller with the endpoints that were halted and those that were wedged and not released since.
Observed, newest first: the polls of halted endpoints. -/
structure HaltWatch where
  gadget : Gadget
  halts : ℕ → Bool
  wedges : ℕ → Bool
  polls : List HaltedPoll

/-- The poll of a halted endpoint that took the controller to `dum`, if the step was one. -/
def HaltWatch.polled (s : HaltWatch) (dum : UoeUdc) : HaltStep → Option HaltedPoll
  | .gadget (.udc (.poll epAddr seq)) =>
    (polledEp s.gadget.udc epAddr).bind fun i =>
      if s.halts i then
        some
          { epAddr := epAddr
            seq := seq
            replies := dum.sent.take (dum.sent.length - s.gadget.udc.sent.length)
            completed := (dum.pending.take
              (dum.pending.length - s.gadget.udc.pending.length)).map Pending.req }
      else none
  | _ => none

/-- The runs of the controller. -/
def haltMachine : Machine HaltWatch HaltStep where
  step s label := (haltStep s.gadget label).map fun g =>
    { gadget := g
      halts := follow s.halts (haltChange s.gadget label)
      wedges := follow s.wedges (wedgeChange s.gadget label)
      polls := (s.polled g.udc label).toList ++ s.polls }

/-- The controller as it starts. -/
def haltStart (req : ReqRef → UsbRequest) (userBuf : ℕ → ℕ → UInt8) : HaltWatch where
  gadget := gadgetStart req userBuf
  halts := fun _ => false
  wedges := fun _ => false
  polls := []

/-- Every endpoint that was wedged and not released since is halted. -/
def WedgesHeld (s : HaltWatch) : Prop := ∀ i, s.wedges i = true → (s.gadget.udc.ep i).halted = true

/-- The host clears the halt of no endpoint that was wedged, unless its `wedged` flag is set. -/
def NoWedgeCleared (s : HaltWatch) : HaltStep → Prop
  | .setup setup => ∀ i, featureEp s.gadget.udc usbReqClearFeature setup = some i →
      s.wedges i = true → (s.gadget.udc.ep i).wedged = true
  | .gadget _ => True
  | .udcStart => True

/-- Every poll of a halted endpoint was answered with a STALL alone and completed no request. -/
def PollsStalled (s : HaltWatch) : Prop :=
  ∀ p ∈ s.polls, p.replies = [.stall p.epAddr p.seq] ∧ p.completed = []

/-- A poll of a halted endpoint finds its queue empty. -/
def HaltedQueueEmpty (s : HaltWatch) : HaltStep → Prop
  | .gadget (.udc (.poll epAddr _)) => ∀ i, polledEp s.gadget.udc epAddr = some i →
      s.halts i = true → (s.gadget.udc.ep i).queue = []
  | _ => True

/-- Two controllers with the same flags at every endpoint. -/
structure SameFlags (dum dum' : UoeUdc) : Prop where
  halted : ∀ i, (dum'.ep i).halted = (dum.ep i).halted
  wedged : ∀ i, (dum'.ep i).wedged = (dum.ep i).wedged

section Flags

variable {dum dum' : UoeUdc}

/-- The same endpoints have the same flags. -/
theorem sameFlags_of_ep (h : dum'.ep = dum.ep) : SameFlags dum dum' :=
  ⟨fun i => by rw [h], fun i => by rw [h]⟩

/-- Having the same flags composes. -/
theorem SameFlags.trans {a b c : UoeUdc} (hab : SameFlags a b) (hbc : SameFlags b c) : SameFlags a c :=
  ⟨fun i => (hbc.halted i).trans (hab.halted i), fun i => (hbc.wedged i).trans (hab.wedged i)⟩

/-- Replacing an endpoint by one with the same flags. -/
theorem sameFlags_setEp (dum : UoeUdc) (i : ℕ) {ep : UoeEp} (hhalted : ep.halted = (dum.ep i).halted)
    (hwedged : ep.wedged = (dum.ep i).wedged) : SameFlags dum (dum.setEp i ep) := by
  refine ⟨fun j => ?_, fun j => ?_⟩ <;>
  · by_cases hj : j = i
    · subst hj
      simp only [UoeUdc.setEp, Function.update_self, hhalted, hwedged]
    · simp only [UoeUdc.setEp, Function.update_of_ne hj]

/-- A queue has no part in the flags. -/
theorem sameFlags_setQueue (dum : UoeUdc) (i : ℕ) (queue : List ReqRef) :
    SameFlags dum (dum.setQueue i queue) := sameFlags_setEp dum i rfl rfl

/-- A pass of `nuke` sets no flag. -/
theorem nukeStep_sameFlags {i : ℕ} {after : After} (h : nukeStep dum i after = some dum') :
    SameFlags dum dum' := by
  obtain ⟨r, rest, -, rfl⟩ := nukeStep_cases h
  have hqueue := sameFlags_setQueue dum i rest
  exact ⟨hqueue.halted, hqueue.wedged⟩

/-- `nuke` sets no flag. -/
theorem nuke_sameFlags (dum : UoeUdc) (i : ℕ) : SameFlags dum (nuke dum i) := by
  obtain ⟨-, hsame⟩ | hpass := nuke_cases dum i
  · exact sameFlags_of_ep (by rw [hsame])
  · exact nukeStep_sameFlags hpass

/-- `stop_activity` sets no flag. -/
theorem stopActivity_sameFlags (dum : UoeUdc) (count : ℕ) :
    SameFlags dum (stopActivity dum count) := by
  obtain ⟨i, -, -, -, hpass⟩ | ⟨-, heq⟩ := stopActivity_cases dum count
  · exact nukeStep_sameFlags hpass
  · exact sameFlags_of_ep (by rw [heq])

/-- A poll sets no flag. -/
theorem uoeUdcPoll_sameFlags (dum : UoeUdc) (epAddr : UInt8) (seq : UInt16) :
    SameFlags dum (uoeUdcPoll dum epAddr seq) := by
  obtain ⟨reply, heq⟩ | ⟨i, r, rest, reply, -, -, heq⟩ := uoeUdcPoll_cases dum epAddr seq
  · rw [heq]
    exact sameFlags_of_ep rfl
  · rw [heq]
    have hflags := sameFlags_setQueue dum i rest
    exact ⟨hflags.halted, hflags.wedged⟩

/-- Of the steps of the queues, only enabling an endpoint sets flags. -/
theorem udc_step_sameFlags {step : UdcStep} (h : udcMachine.step dum step = some dum')
    (henable : ∀ i epAddr, step ≠ .enable i epAddr) : SameFlags dum dum' := by
  cases step with
  | prepare n length complete bytes =>
    obtain ⟨-, rfl⟩ := udcMachine_step h
    exact sameFlags_of_ep rfl
  | enable i epAddr => exact absurd rfl (henable i epAddr)
  | queue i n =>
    obtain ⟨-, rfl⟩ := udcMachine_step h
    obtain ⟨-, hsame⟩ | ⟨-, hep, -⟩ := dummyQueue_cases dum i n
    · exact sameFlags_of_ep (by rw [hsame])
    · exact (sameFlags_setQueue dum i _).trans (sameFlags_of_ep hep)
  | dequeue i n =>
    obtain ⟨-, rfl⟩ := udcMachine_step h
    obtain hsame | ⟨-, heq⟩ := dummyDequeue_cases dum i n
    · exact sameFlags_of_ep (by rw [hsame])
    · rw [heq]
      have hqueue := sameFlags_setQueue dum i ((dum.ep i).queue.erase (.user n))
      exact ⟨hqueue.halted, hqueue.wedged⟩
  | disable i =>
    obtain ⟨-, rfl⟩ := udcMachine_step h
    obtain hsame | heq := dummyDisable_cases dum i
    · exact sameFlags_of_ep (by rw [hsame])
    · rw [heq]
      have hdesc : SameFlags dum (dum.setEp i { dum.ep i with desc := none }) :=
        sameFlags_setEp dum i rfl rfl
      exact hdesc.trans (nuke_sameFlags _ i)
  | udcStop =>
    obtain rfl := Option.some.inj h
    have hstop := stopActivity_sameFlags { dum with intsEnabled := false, address := 0 } dummyEndpoints
    exact ⟨hstop.halted, hstop.wedged⟩
  | poll epAddr seq =>
    obtain rfl := Option.some.inj h
    exact uoeUdcPoll_sameFlags dum epAddr seq
  | giveback k =>
    obtain ⟨p, -, -, rfl⟩ := udcMachine_step h
    exact sameFlags_of_ep (giveback_fields
      { dum with pending := dum.pending.set k { p with given := true } } p).1
  | resume k =>
    obtain ⟨p, -, -, rfl⟩ := udcMachine_step h
    cases p.after with
    | finish => exact sameFlags_of_ep rfl
    | nuke i =>
      have hnuke := nuke_sameFlags { dum with pending := dum.pending.eraseIdx k } i
      exact ⟨hnuke.halted, hnuke.wedged⟩
    | stop i =>
      have hstop := stopActivity_sameFlags { dum with pending := dum.pending.eraseIdx k }
        (dummyEndpoints - i)
      exact ⟨hstop.halted, hstop.wedged⟩

end Flags

section Changes

variable {g g' : Gadget}

/-- The `halted` flags of a controller. -/
def haltedFlags (dum : UoeUdc) : ℕ → Bool := fun i => (dum.ep i).halted

/-- Controllers with the same flags have the same `halted` flags. -/
theorem SameFlags.haltedFlags {dum dum' : UoeUdc} (h : SameFlags dum dum') :
    haltedFlags dum' = haltedFlags dum := funext h.halted

/-- Replacing an endpoint replaces its `halted` flag. -/
theorem haltedFlags_setEp (dum : UoeUdc) (i : ℕ) (ep : UoeEp) :
    haltedFlags (dum.setEp i ep) = Function.update (haltedFlags dum) i ep.halted := by
  funext j
  by_cases hj : j = i
  · subst hj
    simp [haltedFlags, UoeUdc.setEp]
  · simp [haltedFlags, UoeUdc.setEp, hj]

/-- `SET_FEATURE` halts the endpoint it names. -/
theorem setFeature_halted (g : Gadget) {setup : UsbCtrlRequest}
    (hrequest : setup.bRequest = usbReqSetFeature) :
    haltedFlags (setFeature g setup).1.udc =
      follow (haltedFlags g.udc) (haltChange g (.setup setup)) := by
  have hclear : featureEp g.udc usbReqClearFeature setup = none :=
    if_neg fun h => absurd (hrequest.symm.trans h.1) (by decide)
  unfold setFeature haltChange
  simp only [hclear]
  by_cases hep : setup.bRequestType = usbStandardEndpoint
  · have hdevice : setup.bRequestType ≠ usbStandardDevice := by
      rw [hep]
      decide
    rw [if_neg hdevice, if_pos hep, featureEp, if_pos ⟨hrequest, hep⟩]
    cases namedEp g.udc setup.wIndex with
    | none => rfl
    | some i => exact haltedFlags_setEp g.udc i _
  · have hnamed : featureEp g.udc usbReqSetFeature setup = none := if_neg fun h => hep h.2
    simp only [hnamed]
    split_ifs <;> rfl

/-- `CLEAR_FEATURE` releases the endpoint it names unless it is wedged. -/
theorem clearFeature_halted (g : Gadget) {setup : UsbCtrlRequest}
    (hrequest : setup.bRequest = usbReqClearFeature) :
    haltedFlags (clearFeature g setup).1.udc =
      follow (haltedFlags g.udc) (haltChange g (.setup setup)) := by
  have hset : featureEp g.udc usbReqSetFeature setup = none :=
    if_neg fun h => absurd (hrequest.symm.trans h.1) (by decide)
  unfold clearFeature haltChange
  simp only [hset]
  by_cases hep : setup.bRequestType = usbStandardEndpoint
  · have hdevice : setup.bRequestType ≠ usbStandardDevice := by
      rw [hep]
      decide
    rw [if_neg hdevice, if_pos hep, featureEp, if_pos ⟨hrequest, hep⟩]
    cases namedEp g.udc setup.wIndex with
    | none => rfl
    | some i =>
      simp only
      split_ifs
      · rfl
      · exact haltedFlags_setEp g.udc i _
  · have hnamed : featureEp g.udc usbReqClearFeature setup = none := if_neg fun h => hep h.2
    simp only [hnamed]
    split_ifs <;> rfl

/-- A control request halts and releases as followed. -/
theorem handleControlRequest_halted (g : Gadget) (setup : UsbCtrlRequest) :
    haltedFlags (handleControlRequest g setup).1.udc =
      follow (haltedFlags g.udc) (haltChange g (.setup setup)) := by
  unfold handleControlRequest
  by_cases hset : setup.bRequest = usbReqSetFeature
  · have haddress : setup.bRequest ≠ usbReqSetAddress := by
      rw [hset]
      decide
    rw [if_neg haddress, if_pos hset]
    exact setFeature_halted g hset
  · by_cases hclear : setup.bRequest = usbReqClearFeature
    · have haddress : setup.bRequest ≠ usbReqSetAddress := by
        rw [hclear]
        decide
      rw [if_neg haddress, if_neg hset, if_pos hclear]
      exact clearFeature_halted g hclear
    · have hchange : haltChange g (.setup setup) = none := by
        simp [haltChange, featureEp, hset, hclear]
      rw [hchange, if_neg hset, if_neg hclear]
      split_ifs <;> rfl

/-- `dummy_set_halt` halts or releases its endpoint when it succeeds. -/
theorem dummySetHalt_halted (g : Gadget) (i : ℕ) (value : ℤ) :
    haltedFlags (dummySetHalt g i value).1.udc =
      if (dummySetHalt g i value).2 = 0 then Function.update (haltedFlags g.udc) i (value != 0)
      else haltedFlags g.udc := by
  unfold dummySetHalt
  by_cases hdriver : ¬ g.udc.driver
  · simp only [if_pos hdriver]
    rfl
  · simp only [if_neg hdriver]
    by_cases hvalue : value = 0
    · simp only [if_pos hvalue, if_true]
      rw [haltedFlags_setEp, hvalue]
      rfl
    · simp only [if_neg hvalue]
      split_ifs with hbusy hagain hzero
      · exact absurd hagain (by simp [eagain])
      · rfl
      · rw [haltedFlags_setEp, bne_iff_ne.mpr hvalue]
      · exact absurd rfl hzero

/-- Enabling an endpoint releases it when it succeeds. -/
theorem dummyEnable_halted (dum : UoeUdc) (i : ℕ) (epAddr : UInt8) :
    haltedFlags (dummyEnable dum i epAddr).1 =
      if (dummyEnable dum i epAddr).2 = 0 then Function.update (haltedFlags dum) i false
      else haltedFlags dum := by
  unfold dummyEnable
  by_cases hrefused : (dum.ep i).desc.isSome ∨ i = 0
  · rw [if_pos hrefused, if_neg (by simp [einval])]
  · rw [if_neg hrefused]
    by_cases hdriver : ¬ dum.driver
    · rw [if_pos hdriver, if_neg (by simp [eshutdown])]
    · rw [if_neg hdriver, if_pos rfl]
      exact haltedFlags_setEp dum i _

/-- What is followed of the halts is what the step does to the flags. -/
theorem haltStep_halted {label : HaltStep} (h : haltStep g label = some g') :
    haltedFlags g'.udc = follow (haltedFlags g.udc) (haltChange g label) := by
  cases label with
  | udcStart =>
    obtain rfl := Option.some.inj h
    rfl
  | setup setup =>
    obtain rfl := Option.some.inj h
    exact handleControlRequest_halted g setup
  | gadget step =>
    cases step with
    | setHalt i value =>
      obtain ⟨-, h⟩ := Option.ite_none_right_eq_some.mp h
      obtain rfl := Option.some.inj h
      rw [dummySetHalt_halted, haltChange]
      split_ifs <;> rfl
    | setWedge i =>
      obtain ⟨-, h⟩ := Option.ite_none_right_eq_some.mp h
      obtain rfl := Option.some.inj h
      rw [haltChange]
      unfold dummySetWedge
      by_cases hzero : i = 0
      · rw [if_pos hzero, if_neg (by simp [einval])]
        rfl
      · rw [if_neg hzero, dummySetHalt_halted]
        split_ifs <;> rfl
    | udc step =>
      obtain ⟨dum, hdum, rfl⟩ := Option.map_eq_some_iff.mp h
      by_cases henable : ∃ i epAddr, step = .enable i epAddr
      · obtain ⟨i, epAddr, rfl⟩ := henable
        obtain ⟨-, rfl⟩ := udcMachine_step hdum
        change haltedFlags (dummyEnable g.udc i epAddr).1 = _
        rw [dummyEnable_halted, haltChange]
        split_ifs <;> rfl
      · have hsame := udc_step_sameFlags hdum fun i epAddr heq => henable ⟨i, epAddr, heq⟩
        have hnone : haltChange g (.gadget (.udc step)) = none := by
          cases step with
          | enable i epAddr => exact absurd ⟨i, epAddr, rfl⟩ henable
          | _ => rfl
        rw [hnone]
        exact hsame.haltedFlags

end Changes

section Wedges

variable {s t : HaltWatch} {label : HaltStep}

/-- One set of endpoints stays within another: what joins the first joins the second, and what leaves the
second leaves the first or was not in it. -/
theorem follow_imp {inner outer : ℕ → Bool} {changeIn changeOut : Option HaltChange}
    (h : ∀ i, inner i = true → outer i = true)
    (hjoin : ∀ i, changeIn = some ⟨i, true⟩ → changeOut = some ⟨i, true⟩)
    (hleave : ∀ i, changeOut = some ⟨i, false⟩ → changeIn = some ⟨i, false⟩ ∨ inner i = false) (j : ℕ)
    (hj : follow inner changeIn j = true) : follow outer changeOut j = true := by
  have hold : changeIn ≠ some ⟨j, true⟩ → inner j = true := by
    intro hne
    cases changeIn with
    | none => exact hj
    | some change =>
      obtain ⟨i, halted⟩ := change
      by_cases hji : j = i
      · subst hji
        rw [follow, Function.update_self] at hj
        simp only at hj
        exact absurd (by rw [hj]) hne
      · rwa [follow, Function.update_of_ne hji] at hj
  cases changeOut with
  | none => exact h j (hold fun heq => absurd (hjoin j heq) (by simp))
  | some change =>
    obtain ⟨i, halted⟩ := change
    by_cases hji : j = i
    · subst hji
      rw [follow, Function.update_self]
      cases halted with
      | true => rfl
      | false =>
        have hin : changeIn ≠ some ⟨j, true⟩ := fun heq => absurd (hjoin j heq) (by simp)
        rcases hleave j rfl with hgone | hnot
        · rw [hgone, follow, Function.update_self] at hj
          exact absurd hj (by simp)
        · exact absurd ((hold hin).symm.trans hnot) (by simp)
    · rw [follow, Function.update_of_ne hji]
      refine h j (hold fun heq => hji ?_)
      simpa using (congrArg (Option.map HaltChange.ep) (hjoin j heq)).symm

/-- What is wedged is halted. -/
theorem haltChange_of_wedgeChange (g : Gadget) (label : HaltStep) {i : ℕ}
    (h : wedgeChange g label = some ⟨i, true⟩) : haltChange g label = some ⟨i, true⟩ := by
  cases label with
  | udcStart => cases h
  | setup setup => cases h
  | gadget step =>
    cases step with
    | setWedge j =>
      obtain ⟨⟨hok, -⟩, h⟩ := Option.ite_none_right_eq_some.mp h
      rw [haltChange, if_pos hok]
      exact h
    | setHalt j value =>
      obtain ⟨-, h⟩ := Option.ite_none_right_eq_some.mp h
      exact absurd (Option.some.inj h) (by simp)
    | udc step =>
      cases step with
      | enable j epAddr =>
        obtain ⟨-, h⟩ := Option.ite_none_right_eq_some.mp h
        exact absurd (Option.some.inj h) (by simp)
      | _ => cases h

/-- What a step other than a request of the host releases is no longer wedged. -/
theorem wedgeChange_of_haltChange (g : Gadget) (step : GadgetStep) {i : ℕ}
    (h : haltChange g (.gadget step) = some ⟨i, false⟩) :
    wedgeChange g (.gadget step) = some ⟨i, false⟩ := by
  cases step with
  | setWedge j =>
    obtain ⟨-, h⟩ := Option.ite_none_right_eq_some.mp h
    exact absurd (Option.some.inj h) (by simp)
  | setHalt j value =>
    obtain ⟨hok, h⟩ := Option.ite_none_right_eq_some.mp h
    obtain ⟨rfl, hvalue⟩ := HaltChange.mk.inj (Option.some.inj h)
    rw [wedgeChange, if_pos ⟨hok, by simpa using hvalue⟩]
  | udc step =>
    cases step with
    | enable j epAddr => exact h
    | _ => cases h

/-- A request of the host releases the endpoint it names in a `CLEAR_FEATURE` unless that is wedged. -/
theorem haltChange_setup_iff (g : Gadget) (setup : UsbCtrlRequest) (i : ℕ) :
    haltChange g (.setup setup) = some ⟨i, false⟩ ↔
      featureEp g.udc usbReqClearFeature setup = some i ∧ (g.udc.ep i).wedged = false := by
  simp only [haltChange]
  cases hset : featureEp g.udc usbReqSetFeature setup with
  | some j =>
    have hclear : featureEp g.udc usbReqClearFeature setup = none := by
      refine if_neg fun h => ?_
      obtain ⟨hrequest, -⟩ := (Option.ite_none_right_eq_some.mp hset).1
      exact absurd (hrequest.symm.trans h.1) (by decide)
    simp [hclear]
  | none =>
    cases hclear : featureEp g.udc usbReqClearFeature setup with
    | none => simp
    | some j =>
      simp only [Option.ite_none_left_eq_some, Option.some.injEq, HaltChange.mk.injEq, and_true]
      constructor
      · rintro ⟨hwedged, rfl⟩
        exact ⟨rfl, by simpa using hwedged⟩
      · rintro ⟨rfl, hwedged⟩
        exact ⟨by simp [hwedged], rfl⟩

/-- Where the host clears the halt of no wedged endpoint, what was wedged stays halted. -/
theorem haltMachine_step_wedges (h : WedgesHeld s) (ht : haltMachine.step s label = some t)
    (hguard : NoWedgeCleared s label) : WedgesHeld t := by
  obtain ⟨g, hg, rfl⟩ := Option.map_eq_some_iff.mp ht
  intro j hj
  change haltedFlags g.udc j = true
  rw [haltStep_halted hg]
  refine follow_imp h (fun i => haltChange_of_wedgeChange s.gadget label) (fun i hi => ?_) j hj
  cases label with
  | udcStart => cases hi
  | gadget step => exact .inl (wedgeChange_of_haltChange s.gadget step hi)
  | setup setup =>
    obtain ⟨hnamed, hwedged⟩ := (haltChange_setup_iff s.gadget setup i).mp hi
    refine .inr (Bool.eq_false_iff.mpr fun hwedge => ?_)
    exact absurd (hwedged.symm.trans (hguard i hnamed hwedge)) (by simp)

/-- A host that clears the halt of a wedged endpoint releases it. -/
theorem haltMachine_step_cleared (ht : haltMachine.step s label = some t)
    (hguard : ¬ NoWedgeCleared s label) : ¬ WedgesHeld t := by
  obtain ⟨g, hg, rfl⟩ := Option.map_eq_some_iff.mp ht
  cases label with
  | udcStart => exact absurd trivial hguard
  | gadget step => exact absurd trivial hguard
  | setup setup =>
    intro h
    refine hguard fun i hnamed hwedge => ?_
    by_contra hwedged
    have hchange := (haltChange_setup_iff s.gadget setup i).mpr ⟨hnamed, by simpa using hwedged⟩
    have hhalted : haltedFlags g.udc i = true := h i hwedge
    rw [haltStep_halted hg, hchange, follow, Function.update_self] at hhalted
    exact absurd hhalted (by simp)

end Wedges

/-- Along every run of control requests, polls and calls of the gadget, an endpoint that was wedged stays
halted until the gadget releases it, exactly when the host clears the halt of no such endpoint whose `wedged`
flag is not set. -/
theorem wedgesHeld_iff_noWedgeCleared (req : ReqRef → UsbRequest) (userBuf : ℕ → ℕ → UInt8)
    (steps : List HaltStep) :
    haltMachine.Always WedgesHeld (haltStart req userBuf) steps ↔
      haltMachine.Guarded NoWedgeCleared (haltStart req userBuf) steps :=
  haltMachine.always_iff_guarded (fun _ h => h) (fun _ _ _ => haltMachine_step_wedges)
    (fun _ _ _ _ => haltMachine_step_cleared) (fun _ hi => absurd hi (by simp [haltStart])) steps

/-- The gadget wedges endpoint 1, and a `CLEAR_FEATURE` request for its halt releases it. -/
theorem wedgesHeld_cleared :
    ¬ haltMachine.Always WedgesHeld (haltStart (fun _ => ⟨.user 0, 0, 0, 0, false⟩) fun _ _ => 0)
      [.gadget (.udc (.enable 1 0x81)), .gadget (.setWedge 1),
        .setup ⟨usbStandardEndpoint, usbReqClearFeature, 0, 0x81, 0⟩] := by
  intro h
  have hheld := h.of_reached haltMachine (List.prefix_refl _) rfl
  exact absurd (hheld 1 (by decide)) (by decide)

section Polls

variable {s t : HaltWatch} {label : HaltStep}

/-- A poll of a halted endpoint with an empty queue is answered with a STALL and completes nothing. -/
theorem uoeUdcPoll_halted {dum : UoeUdc} {epAddr : UInt8} {i : ℕ} (hep : polledEp dum epAddr = some i)
    (hhalted : (dum.ep i).halted = true) (hqueue : (dum.ep i).queue = []) (seq : UInt16) :
    uoeUdcPoll dum epAddr seq = dum.reply (.stall epAddr seq) := by
  unfold uoeUdcPoll
  simp only [hep, hqueue, if_pos hhalted]

/-- A poll of an endpoint with a queued request sends the data of the request and completes it. -/
theorem uoeUdcPoll_queued {dum : UoeUdc} {epAddr : UInt8} {i : ℕ} (hep : polledEp dum epAddr = some i)
    {r : ReqRef} {rest : List ReqRef} (hqueue : (dum.ep i).queue = r :: rest) (seq : UInt16) :
    (uoeUdcPoll dum epAddr seq).pending = ⟨r, false, .finish, false⟩ :: dum.pending := by
  unfold uoeUdcPoll
  simp only [hep, hqueue]
  rfl

/-- What a poll does to the controller. -/
theorem haltStep_poll {g g' : Gadget} {epAddr : UInt8} {seq : UInt16}
    (h : haltStep g (.gadget (.udc (.poll epAddr seq))) = some g') :
    g'.udc = uoeUdcPoll g.udc epAddr seq := by
  change (udcMachine.step g.udc (.poll epAddr seq)).map _ = some g' at h
  obtain ⟨dum, hdum, rfl⟩ := Option.map_eq_some_iff.mp h
  exact (Option.some.inj hdum).symm

/-- The poll that a step was, if it polled a halted endpoint. -/
theorem polled_eq_some_iff (dum : UoeUdc) {p : HaltedPoll} :
    s.polled dum label = some p ↔ ∃ epAddr seq i, label = .gadget (.udc (.poll epAddr seq)) ∧
      polledEp s.gadget.udc epAddr = some i ∧ s.halts i = true ∧
      p = ⟨epAddr, seq, dum.sent.take (dum.sent.length - s.gadget.udc.sent.length),
        (dum.pending.take (dum.pending.length - s.gadget.udc.pending.length)).map Pending.req⟩ := by
  constructor
  · intro h
    unfold HaltWatch.polled at h
    split at h
    · next epAddr seq =>
      obtain ⟨i, hep, h⟩ := Option.bind_eq_some_iff.mp h
      obtain ⟨hhalts, h⟩ := Option.ite_none_right_eq_some.mp h
      exact ⟨epAddr, seq, i, rfl, hep, hhalts, (Option.some.inj h).symm⟩
    · cases h
  · rintro ⟨epAddr, seq, i, rfl, hep, hhalts, rfl⟩
    simp only [HaltWatch.polled, hep, Option.bind_some, if_pos hhalts]

/-- The endpoints that are followed as halted are those with the flag. -/
theorem haltMachine_step_halts (h : haltedFlags s.gadget.udc = s.halts)
    (ht : haltMachine.step s label = some t) : haltedFlags t.gadget.udc = t.halts := by
  obtain ⟨g, hg, rfl⟩ := Option.map_eq_some_iff.mp ht
  rw [haltStep_halted hg, h]

/-- A poll of a halted endpoint that finds its queue empty is answered with a STALL. -/
theorem haltMachine_step_stalled (hhalts : haltedFlags s.gadget.udc = s.halts) (h : PollsStalled s)
    (ht : haltMachine.step s label = some t) (hguard : HaltedQueueEmpty s label) :
    PollsStalled t := by
  obtain ⟨g, hg, rfl⟩ := Option.map_eq_some_iff.mp ht
  intro p hp
  rcases List.mem_append.mp hp with hnew | hold
  · obtain ⟨epAddr, seq, i, rfl, hep, hhalted, rfl⟩ :=
      (polled_eq_some_iff g.udc).mp (Option.mem_toList.mp hnew)
    have hflag : (s.gadget.udc.ep i).halted = true := (congrFun hhalts i).trans hhalted
    rw [haltStep_poll hg, uoeUdcPoll_halted hep hflag (hguard i hep hhalted) seq]
    simp [UoeUdc.reply]
  · exact h p hold

/-- A poll of a halted endpoint with a queued request completes that request. -/
theorem haltMachine_step_completed (ht : haltMachine.step s label = some t)
    (hguard : ¬ HaltedQueueEmpty s label) : ¬ PollsStalled t := by
  obtain ⟨g, hg, rfl⟩ := Option.map_eq_some_iff.mp ht
  unfold HaltedQueueEmpty at hguard
  split at hguard
  · next epAddr seq =>
    push Not at hguard
    obtain ⟨i, hep, hhalted, hqueue⟩ := hguard
    obtain ⟨r, rest, hqueue⟩ := List.exists_cons_of_ne_nil hqueue
    intro h
    have hpolled := (polled_eq_some_iff g.udc).mpr ⟨epAddr, seq, i, rfl, hep, hhalted, rfl⟩
    have hnone := (h _ (List.mem_append_left _ (Option.mem_toList.mpr hpolled))).2
    rw [haltStep_poll hg, uoeUdcPoll_queued hep hqueue seq] at hnone
    simp at hnone
  · exact absurd trivial hguard

end Polls

/-- In every run the endpoints that are followed as halted are those with the flag. -/
theorem halts_followed (req : ReqRef → UsbRequest) (userBuf : ℕ → ℕ → UInt8) (steps : List HaltStep) :
    haltMachine.Always (fun s => haltedFlags s.gadget.udc = s.halts) (haltStart req userBuf) steps :=
  haltMachine.always_of_step (fun _ _ _ => haltMachine_step_halts) rfl steps

/-- Along every run, every poll of an endpoint between its halt and its release is answered with a STALL
and completes no request, exactly when every such poll finds the queue of the endpoint empty. -/
theorem pollsStalled_iff_haltedQueueEmpty (req : ReqRef → UsbRequest) (userBuf : ℕ → ℕ → UInt8)
    (steps : List HaltStep) :
    haltMachine.Always PollsStalled (haltStart req userBuf) steps ↔
      haltMachine.Guarded HaltedQueueEmpty (haltStart req userBuf) steps :=
  haltMachine.always_iff_guarded
    (fun s (h : haltedFlags s.gadget.udc = s.halts ∧ PollsStalled s) => h.2)
    (fun _ _ _ h ht hguard =>
      ⟨haltMachine_step_halts h.1 ht, haltMachine_step_stalled h.1 h.2 ht hguard⟩)
    (fun _ _ _ _ => haltMachine_step_completed) ⟨rfl, fun _ hp => absurd hp List.not_mem_nil⟩ steps

/-- A request of 60 bytes is queued on the OUT endpoint 2, the host halts the endpoint, and the next poll
completes the request. -/
theorem pollsStalled_queued :
    ¬ haltMachine.Always PollsStalled (haltStart (fun _ => ⟨.user 0, 60, 0, 0, true⟩) fun _ _ => 0)
      [.gadget (.udc (.enable 2 0x02)), .gadget (.udc (.queue 2 0)),
        .setup ⟨usbStandardEndpoint, usbReqSetFeature, 0, 0x02, 0⟩, .gadget (.udc (.poll 0x02 7))] := by
  intro h
  have hstalled := h.of_reached haltMachine (List.prefix_refl _) rfl
  exact absurd (hstalled ⟨0x02, 7, [.data 0x02 7 []], [.user 0]⟩ (by decide)).2 (by decide)

end LinuxFunctionTest.DummyUsb
