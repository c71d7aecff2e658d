import LinuxFunctionTest.DummyUsb.Hub

/-!
# The port status of the root hub

Every event and every request edits single bits of `port_status`, and only the two `SetPortFeature`
requests look at another bit first. The relations between the bits therefore hold along a run exactly
when each step that sets or clears a bit without looking arrives in a state that allows it.
-/

namespace LinuxFunctionTest.DummyUsb

open Flags

/-- The bits of the port status that are related to each other. -/
def relatedBits : BitVec 32 :=
  usbPortStatConnection ||| usbPortStatEnable ||| usbPortStatSuspend ||| usbPortStatReset

/-- The bits that a request or a bus call may set. -/
def requestSets : BitVec 32 := usbPortStatSuspend ||| usbPortStatPower ||| usbPortStatReset

/-- The bits that a request or a bus call may clear. -/
def requestClears : BitVec 32 :=
  usbPortStatSuspend ||| usbPortStatPower ||| usbPortStatEnable ||| usbPortStatLowSpeed |||
    usbPortStatHighSpeed ||| usbPortStatCConnection <<< 16 ||| usbPortStatCReset <<< 16

/-- The bits that an event may set. -/
def eventSets : BitVec 32 :=
  usbPortStatConnection ||| usbPortStatEnable ||| usbPortStatSuspend ||| usbPortStatCReset <<< 16

/-- The bits that an event may clear. -/
def eventClears : BitVec 32 :=
  usbPortStatConnection ||| usbPortStatEnable ||| usbPortStatSuspend ||| usbPortStatReset

/-- The relations between the bits of the port status. -/
structure PortOk (port : BitVec 32) : Prop where
  enable : Any port usbPortStatEnable → Any port usbPortStatConnection
  reset : Any port usbPortStatReset → Any port usbPortStatConnection
  suspend : Any port usbPortStatSuspend → Any port usbPortStatEnable
  exclusive : Any port usbPortStatReset → ¬ Any port usbPortStatEnable

/-- A connection event was processed. -/
def ConnectionKnown (uoe : UoeHcd) : Prop :=
  HubEffect.processed uoeEventConnect ∈ uoe.log ∨ HubEffect.processed uoeEventDisconnect ∈ uoe.log

/-- The port's bits are consistent, and its connection is the remote's once an event told it. -/
structure PortConsistent (uoe : UoeHcd) : Prop where
  port : PortOk uoe.portStatus
  remote : ConnectionKnown uoe →
    (uoe.Port usbPortStatConnection ↔ uoe.remoteConnected = true)

/-- The event may be processed in this state. -/
def EventCare (uoe : UoeHcd) (event : UInt8) : Prop :=
  (event = uoeEventConnect → ¬ uoe.Port usbPortStatReset) ∧
    (event = uoeEventDisconnect → ¬ uoe.Port usbPortStatReset ∧ ¬ uoe.Port usbPortStatSuspend) ∧
    (event = uoeEventResetDone → uoe.Port usbPortStatConnection) ∧
    (event = uoeEventSuspend → uoe.Port usbPortStatEnable)

/-- The request may be made in this state: the port is not disabled or reset while suspended. -/
def RequestCare (uoe : UoeHcd) (typeReq wValue : UInt16) : Prop :=
  (typeReq = clearPortFeature → wValue = usbPortFeatEnable → ¬ uoe.Port usbPortStatSuspend) ∧
    (typeReq = setPortFeature → wValue = usbPortFeatReset → uoe.Port usbPortStatConnection →
      ¬ uoe.Port usbPortStatSuspend)

/-- The step may be taken in this state. -/
def PortCare (uoe : UoeHcd) : HubStep → Prop
  | .event type event => type = uoeEvent → EventCare uoe event
  | .hubStatus => True
  | .hubControl typeReq wValue _ => RequestCare uoe typeReq wValue
  | .busSuspend => uoe.Port usbPortStatEnable
  | .busResume => True

/-- The relations as one conjunction. -/
theorem portOk_iff (port : BitVec 32) :
    PortOk port ↔ (Any port usbPortStatEnable → Any port usbPortStatConnection) ∧
      (Any port usbPortStatReset → Any port usbPortStatConnection) ∧
      (Any port usbPortStatSuspend → Any port usbPortStatEnable) ∧
      (Any port usbPortStatReset → ¬ Any port usbPortStatEnable) :=
  ⟨fun h => ⟨h.1, h.2, h.3, h.4⟩, fun ⟨h₁, h₂, h₃, h₄⟩ => ⟨h₁, h₂, h₃, h₄⟩⟩

section Edits

variable {port : BitVec 32}

/-- Setting `CONNECTION` and `ENABLE` needs a port that is not in reset. -/
theorem portOk_connect_iff :
    PortOk (set (set port usbPortStatConnection) usbPortStatEnable) ↔
      ¬ Any port usbPortStatReset := by
  rw [portOk_iff]
  simp (disch := decide) only [any_set_of_apart, any_set_of_any]
  grind

/-- Clearing `CONNECTION` and `ENABLE` needs a port that is neither in reset nor suspended. -/
theorem portOk_disconnect_iff :
    PortOk (clear (clear port usbPortStatConnection) usbPortStatEnable) ↔
      ¬ Any port usbPortStatReset ∧ ¬ Any port usbPortStatSuspend := by
  rw [portOk_iff]
  simp (disch := decide) only [any_clear_of_apart, not_any_clear]
  grind

/-- Ending a reset needs a connected port. -/
theorem portOk_resetDone_iff :
    PortOk (set (set (clear port usbPortStatReset) usbPortStatEnable) (usbPortStatCReset <<< 16)) ↔
      Any port usbPortStatConnection := by
  rw [portOk_iff]
  simp (disch := decide) only [any_set_of_apart, any_set_of_any, any_clear_of_apart, not_any_clear]
  grind

/-- Resetting a connected port needs one that is not suspended. -/
theorem portOk_reset_iff (hconn : Any port usbPortStatConnection) :
    PortOk (clear (set port usbPortStatReset)
        (usbPortStatEnable ||| usbPortStatLowSpeed ||| usbPortStatHighSpeed)) ↔
      ¬ Any port usbPortStatSuspend := by
  rw [portOk_iff]
  simp (disch := decide) only [any_set_of_apart, any_set_of_any, any_clear_of_apart, not_any_clear]
  grind

variable (h : PortOk port)

include h

/-- Suspending needs an enabled port. -/
theorem PortOk.suspend_iff :
    PortOk (set port usbPortStatSuspend) ↔ Any port usbPortStatEnable := by
  rw [portOk_iff] at h ⊢
  simp (disch := decide) only [any_set_of_apart, any_set_of_any]
  grind

/-- Resuming needs nothing. -/
theorem PortOk.resume : PortOk (clear port usbPortStatSuspend) := by
  rw [portOk_iff] at h ⊢
  simp (disch := decide) only [any_clear_of_apart, not_any_clear]
  grind

/-- Disabling needs a port that is not suspended. -/
theorem PortOk.disable_iff :
    PortOk (clear port usbPortStatEnable) ↔ ¬ Any port usbPortStatSuspend := by
  rw [portOk_iff] at h ⊢
  simp (disch := decide) only [any_clear_of_apart, not_any_clear]
  grind

/-- Other bits may be edited freely. -/
theorem PortOk.of_apart {after : BitVec 32} (hedit : Edit (~~~relatedBits) (~~~relatedBits) port after) :
    PortOk after := by
  rw [portOk_iff] at h ⊢
  rw [hedit.any_iff usbPortStatConnection (by decide) (by decide),
    hedit.any_iff usbPortStatEnable (by decide) (by decide),
    hedit.any_iff usbPortStatSuspend (by decide) (by decide),
    hedit.any_iff usbPortStatReset (by decide) (by decide)]
  exact h

end Edits

section Calls

variable {uoe : UoeHcd}

/-- The port after an event is consistent exactly when the event may be processed. -/
theorem uoeHcdEventSwitch_ok (h : PortOk uoe.portStatus) (event : UInt8) :
    PortOk (uoeHcdEventSwitch uoe event).portStatus ↔ EventCare uoe event := by
  unfold uoeHcdEventSwitch EventCare
  by_cases hconnect : event = uoeEventConnect
  · subst hconnect
    rw [if_pos rfl]
    refine portOk_connect_iff.trans ?_
    simp [UoeHcd.Port, uoeEventConnect, uoeEventDisconnect, uoeEventResetDone, uoeEventSuspend]
  rw [if_neg hconnect]
  by_cases hdisconnect : event = uoeEventDisconnect
  · subst hdisconnect
    rw [if_pos rfl]
    refine portOk_disconnect_iff.trans ?_
    simp [UoeHcd.Port, uoeEventConnect, uoeEventDisconnect, uoeEventResetDone, uoeEventSuspend]
  rw [if_neg hdisconnect]
  by_cases hreset : event = uoeEventResetDone
  · subst hreset
    rw [if_pos rfl]
    refine portOk_resetDone_iff.trans ?_
    simp [UoeHcd.Port, uoeEventConnect, uoeEventDisconnect, uoeEventResetDone, uoeEventSuspend]
  rw [if_neg hreset]
  by_cases hsuspend : event = uoeEventSuspend
  · subst hsuspend
    rw [if_pos rfl]
    refine h.suspend_iff.trans ?_
    simp [UoeHcd.Port, uoeEventConnect, uoeEventDisconnect, uoeEventResetDone, uoeEventSuspend]
  rw [if_neg hsuspend]
  simp only [hconnect, hdisconnect, hreset, hsuspend, false_implies, and_self, iff_true]
  by_cases hresume : event = uoeEventResume
  · rw [if_pos hresume]
    exact h.resume
  · rw [if_neg hresume]
    exact h

/-- The port after a clearing request is consistent unless the request disables a suspended port. -/
theorem uoeHcdClearPortFeature_ok (h : PortOk uoe.portStatus) (wValue : UInt16) :
    PortOk (uoeHcdClearPortFeature uoe wValue).1.portStatus ↔
      (wValue = usbPortFeatEnable → ¬ uoe.Port usbPortStatSuspend) := by
  unfold uoeHcdClearPortFeature
  by_cases henable : wValue = usbPortFeatEnable
  · subst henable
    rw [if_neg (by decide), if_neg (by decide), if_pos (Or.inl rfl)]
    refine h.disable_iff.trans ?_
    simp [UoeHcd.Port]
  simp only [henable, false_implies, false_or, iff_true]
  by_cases hsuspend : wValue = usbPortFeatSuspend
  · rw [if_pos hsuspend]
    exact h.resume
  rw [if_neg hsuspend]
  by_cases hpower : wValue = usbPortFeatPower
  · rw [if_pos hpower]
    exact h.of_apart (Edit.refl.clear _ (by decide))
  rw [if_neg hpower]
  by_cases hchange : wValue = usbPortFeatCConnection ∨ wValue = usbPortFeatCReset
  · rw [if_pos hchange]
    apply h.of_apart
    rcases hchange with rfl | rfl
    · exact Edit.refl.clear _ (by decide)
    · exact Edit.refl.clear _ (by decide)
  · rw [if_neg hchange]
    exact h

/-- The port after a setting request is consistent unless the request resets a suspended port. -/
theorem uoeHcdSetPortFeature_ok (h : PortOk uoe.portStatus) (wValue : UInt16) :
    PortOk (uoeHcdSetPortFeature uoe wValue).1.portStatus ↔
      (wValue = usbPortFeatReset → uoe.Port usbPortStatConnection →
        ¬ uoe.Port usbPortStatSuspend) := by
  unfold uoeHcdSetPortFeature
  by_cases hreset : wValue = usbPortFeatReset
  · subst hreset
    rw [if_neg (by decide), if_neg (by decide), if_pos rfl]
    by_cases hconn : uoe.Port usbPortStatConnection
    · rw [if_pos hconn]
      refine (portOk_reset_iff hconn).trans ?_
      simp only [UoeHcd.Port] at hconn ⊢
      simp [hconn]
    · rw [if_neg hconn]
      simpa [hconn] using h
  simp only [hreset, false_implies, iff_true, if_false]
  by_cases hsuspend : wValue = usbPortFeatSuspend
  · rw [if_pos hsuspend]
    by_cases henable : uoe.Port usbPortStatEnable
    · rw [if_pos henable]
      exact h.suspend_iff.mpr henable
    · rw [if_neg henable]
      exact h
  rw [if_neg hsuspend]
  by_cases hpower : wValue = usbPortFeatPower
  · rw [if_pos hpower]
    exact h.of_apart (Edit.refl.set _ (by decide))
  · rw [if_neg hpower]
    exact h

/-- What a request or a bus call leaves behind: of the port it edits only these bits, and it does
not touch the connection. -/
structure Requested (uoe t : UoeHcd) : Prop where
  edit : Edit requestSets requestClears uoe.portStatus t.portStatus
  remoteConnected : t.remoteConnected = uoe.remoteConnected
  known : ConnectionKnown t → ConnectionKnown uoe

/-- Nothing was done. -/
theorem Requested.refl : Requested uoe uoe := ⟨Edit.refl, rfl, id⟩

/-- A request may set its bits. -/
theorem Requested.setPort {t : UoeHcd} (h : Requested uoe t) (mask : BitVec 32)
    (hpart : requestSets &&& mask = mask) : Requested uoe (t.setPort mask) :=
  ⟨h.edit.set mask hpart, h.remoteConnected, h.known⟩

/-- A request may clear its bits. -/
theorem Requested.clearPort {t : UoeHcd} (h : Requested uoe t) (mask : BitVec 32)
    (hpart : requestClears &&& mask = mask) : Requested uoe (t.clearPort mask) :=
  ⟨h.edit.clear mask hpart, h.remoteConnected, h.known⟩

/-- A request may have any effect but the processing of an event. -/
theorem Requested.emit {t : UoeHcd} (h : Requested uoe t) {e : HubEffect}
    (he : ∀ event, e ≠ .processed event) : Requested uoe (t.emit e) := by
  refine ⟨h.edit, h.remoteConnected, fun hknown => h.known ?_⟩
  unfold ConnectionKnown UoeHcd.emit at hknown
  rcases hknown with hmem | hmem
  · exact Or.inl ((List.mem_cons.mp hmem).resolve_left fun heq => he _ heq.symm)
  · exact Or.inr ((List.mem_cons.mp hmem).resolve_left fun heq => he _ heq.symm)

/-- A clearing request. -/
theorem uoeHcdClearPortFeature_requested (wValue : UInt16) :
    Requested uoe (uoeHcdClearPortFeature uoe wValue).1 := by
  unfold uoeHcdClearPortFeature
  by_cases hsuspend : wValue = usbPortFeatSuspend
  · rw [if_pos hsuspend]
    exact (Requested.refl.clearPort _ (by decide)).emit (by simp)
  rw [if_neg hsuspend]
  by_cases hpower : wValue = usbPortFeatPower
  · rw [if_pos hpower]
    exact Requested.refl.clearPort _ (by decide)
  rw [if_neg hpower]
  by_cases hbit : wValue = usbPortFeatEnable ∨ wValue = usbPortFeatCConnection ∨
      wValue = usbPortFeatCReset
  · rw [if_pos hbit]
    apply Requested.refl.clearPort
    rcases hbit with rfl | rfl | rfl <;> decide
  · rw [if_neg hbit]
    exact Requested.refl

/-- A setting request. -/
theorem uoeHcdSetPortFeature_requested (wValue : UInt16) :
    Requested uoe (uoeHcdSetPortFeature uoe wValue).1 := by
  unfold uoeHcdSetPortFeature
  by_cases hsuspend : wValue = usbPortFeatSuspend
  · rw [if_pos hsuspend]
    by_cases henable : uoe.Port usbPortStatEnable
    · rw [if_pos henable]
      exact (Requested.refl.setPort _ (by decide)).emit (by simp)
    · rw [if_neg henable]
      exact Requested.refl
  rw [if_neg hsuspend]
  by_cases hpower : wValue = usbPortFeatPower
  · rw [if_pos hpower]
    exact Requested.refl.setPort _ (by decide)
  rw [if_neg hpower]
  by_cases hreset : wValue = usbPortFeatReset
  · rw [if_pos hreset]
    by_cases hconn : uoe.Port usbPortStatConnection
    · rw [if_pos hconn]
      exact (Requested.refl.setPort _ (by decide)).clearPort _ (by decide)
    · rw [if_neg hconn]
      exact Requested.refl
  · rw [if_neg hreset]
    exact Requested.refl

/-- What a request does to the port: one of the two feature requests, or nothing. -/
theorem uoeHcdHubSwitch_cases (uoe : UoeHcd) (typeReq wValue wIndex : UInt16) :
    (typeReq = clearPortFeature ∧
        (uoeHcdHubSwitch uoe typeReq wValue wIndex).1 = (uoeHcdClearPortFeature uoe wValue).1) ∨
      (typeReq = setPortFeature ∧
        (uoeHcdHubSwitch uoe typeReq wValue wIndex).1 = (uoeHcdSetPortFeature uoe wValue).1) ∨
      (typeReq ≠ clearPortFeature ∧ typeReq ≠ setPortFeature ∧
        (uoeHcdHubSwitch uoe typeReq wValue wIndex).1 = uoe) := by
  by_cases hclear : typeReq = clearPortFeature
  · subst hclear
    exact Or.inl ⟨rfl, rfl⟩
  by_cases hset : typeReq = setPortFeature
  · subst hset
    exact Or.inr (Or.inl ⟨rfl, rfl⟩)
  refine Or.inr (Or.inr ⟨hclear, hset, ?_⟩)
  unfold uoeHcdHubSwitch
  rw [if_neg hclear, if_neg hset]
  split_ifs <;> rfl

/-- A request as a whole. -/
theorem uoeHcdHubControl_requested (typeReq wValue wIndex : UInt16) :
    Requested uoe (uoeHcdHubControl uoe typeReq wValue wIndex).1 := by
  have hswitch : Requested uoe (uoeHcdHubSwitch uoe typeReq wValue wIndex).1 := by
    rcases uoeHcdHubSwitch_cases uoe typeReq wValue wIndex with ⟨_, h⟩ | ⟨_, h⟩ | ⟨_, _, h⟩
    · rw [h]
      exact uoeHcdClearPortFeature_requested wValue
    · rw [h]
      exact uoeHcdSetPortFeature_requested wValue
    · rw [h]
      exact Requested.refl
  exact iteInduction (fun _ => hswitch.emit (by simp)) fun _ => hswitch

/-- An event sets and clears only these bits. -/
theorem uoeHcdEventSwitch_edit (event : UInt8) :
    Edit eventSets eventClears uoe.portStatus (uoeHcdEventSwitch uoe event).portStatus := by
  unfold uoeHcdEventSwitch
  by_cases hconnect : event = uoeEventConnect
  · rw [if_pos hconnect]
    exact (Edit.refl.set _ (by decide)).set _ (by decide)
  rw [if_neg hconnect]
  by_cases hdisconnect : event = uoeEventDisconnect
  · rw [if_pos hdisconnect]
    exact (Edit.refl.clear _ (by decide)).clear _ (by decide)
  rw [if_neg hdisconnect]
  by_cases hreset : event = uoeEventResetDone
  · rw [if_pos hreset]
    exact ((Edit.refl.clear _ (by decide)).set _ (by decide)).set _ (by decide)
  rw [if_neg hreset]
  by_cases hsuspend : event = uoeEventSuspend
  · rw [if_pos hsuspend]
    exact Edit.refl.set _ (by decide)
  rw [if_neg hsuspend]
  by_cases hresume : event = uoeEventResume
  · rw [if_pos hresume]
    exact Edit.refl.clear _ (by decide)
  · rw [if_neg hresume]
    exact Edit.refl

/-- The connection after an event: what the event says, or what it was. -/
theorem uoeHcdEventSwitch_connection (uoe : UoeHcd) (event : UInt8) :
    ((uoeHcdEventSwitch uoe event).Port usbPortStatConnection ↔
        event = uoeEventConnect ∨ event ≠ uoeEventDisconnect ∧ uoe.Port usbPortStatConnection) ∧
      ((uoeHcdEventSwitch uoe event).remoteConnected = true ↔
        event = uoeEventConnect ∨ event ≠ uoeEventDisconnect ∧ uoe.remoteConnected = true) ∧
      (uoeHcdEventSwitch uoe event).log = uoe.log := by
  unfold uoeHcdEventSwitch UoeHcd.Port
  by_cases hconnect : event = uoeEventConnect
  · rw [if_pos hconnect]
    simp (disch := decide) only [UoeHcd.setPort, any_set_of_apart, any_set_of_any, hconnect, true_or,
      and_self]
  rw [if_neg hconnect]
  by_cases hdisconnect : event = uoeEventDisconnect
  · rw [if_pos hdisconnect]
    subst hdisconnect
    have hne : ¬ uoeEventDisconnect = uoeEventConnect := by decide
    simp (disch := decide) [UoeHcd.clearPort, any_clear_of_apart, not_any_clear, hne]
  rw [if_neg hdisconnect]
  simp only [hconnect, false_or, ne_eq, hdisconnect, not_false_eq_true, true_and]
  by_cases hreset : event = uoeEventResetDone
  · rw [if_pos hreset]
    simp (disch := decide) only [UoeHcd.clearPort, UoeHcd.setPort, any_set_of_apart,
      any_clear_of_apart, and_self]
  rw [if_neg hreset]
  by_cases hsuspend : event = uoeEventSuspend
  · rw [if_pos hsuspend]
    simp (disch := decide) only [UoeHcd.setPort, any_set_of_apart, and_self]
  rw [if_neg hsuspend]
  by_cases hresume : event = uoeEventResume
  · rw [if_pos hresume]
    simp (disch := decide) only [UoeHcd.clearPort, any_clear_of_apart, and_self]
  · rw [if_neg hresume]
    simp only [and_self]

/-- A datagram of another type is ignored. -/
theorem uoeHcdEvent_ignored {type : UInt8} (htype : type ≠ uoeEvent) (event : UInt8) :
    uoeHcdEvent uoe type event = uoe := if_pos htype

/-- After a connection event the port knows what the remote told it, and other events leave both. -/
theorem uoeHcdEvent_remote (h : ConnectionKnown uoe →
    (uoe.Port usbPortStatConnection ↔ uoe.remoteConnected = true)) (type event : UInt8)
    (hknown : ConnectionKnown (uoeHcdEvent uoe type event)) :
    (uoeHcdEvent uoe type event).Port usbPortStatConnection ↔
      (uoeHcdEvent uoe type event).remoteConnected = true := by
  by_cases htype : type = uoeEvent
  · subst htype
    obtain ⟨hport, hremote, hlog⟩ := uoeHcdEventSwitch_connection uoe event
    change (uoeHcdEventSwitch uoe event).Port usbPortStatConnection ↔
      (uoeHcdEventSwitch uoe event).remoteConnected = true
    rw [hport, hremote]
    by_cases htold : event = uoeEventConnect ∨ event = uoeEventDisconnect
    · rcases htold with rfl | rfl
      · simp
      · simp
    · have hbefore : ConnectionKnown uoe := by
        simp only [ConnectionKnown, uoeHcdEvent, if_false, not_true_eq_false, ne_eq, UoeHcd.emit,
          hlog, List.mem_cons, reduceCtorEq, false_or, HubEffect.processed.injEq] at hknown
        rcases hknown with (heq | hmem) | (heq | hmem)
        · exact absurd (Or.inl heq.symm) htold
        · exact Or.inl hmem
        · exact absurd (Or.inr heq.symm) htold
        · exact Or.inr hmem
      rw [h hbefore]
  · rw [uoeHcdEvent_ignored htype] at hknown ⊢
    exact h hknown

/-- A request or a bus call keeps the port's agreement with the remote. -/
theorem Requested.remote {t : UoeHcd} (hreq : Requested uoe t) (h : ConnectionKnown uoe →
    (uoe.Port usbPortStatConnection ↔ uoe.remoteConnected = true)) (hknown : ConnectionKnown t) :
    t.Port usbPortStatConnection ↔ t.remoteConnected = true := by
  have hport : t.Port usbPortStatConnection ↔ uoe.Port usbPortStatConnection :=
    hreq.edit.any_iff usbPortStatConnection (by decide) (by decide)
  rw [hport, hreq.remoteConnected]
  exact h (hreq.known hknown)

/-- The status poll. -/
theorem uoeHcdHubStatus_requested : Requested uoe (uoeHcdHubStatus uoe).1 := by
  unfold uoeHcdHubStatus
  by_cases hchanged : uoe.PortChanged
  · rw [if_pos hchanged]
    exact iteInduction (fun _ => Requested.refl.emit (by simp)) fun _ => Requested.refl
  · rw [if_neg hchanged]
    exact Requested.refl

/-- Suspending the bus. -/
theorem uoeHcdBusSuspend_requested : Requested uoe (uoeHcdBusSuspend uoe).1 :=
  ⟨Edit.refl.set usbPortStatSuspend (by decide), rfl, id⟩

/-- Resuming the bus. -/
theorem uoeHcdBusResume_requested : Requested uoe (uoeHcdBusResume uoe).1 :=
  ⟨Edit.refl.clear usbPortStatSuspend (by decide), rfl, id⟩

/-- A step keeps a consistent port consistent exactly when it may be taken in its state. -/
theorem hubMachine_step_consistent (h : PortConsistent uoe) (step : HubStep) {t : UoeHcd}
    (ht : hubMachine.step uoe step = some t) : PortConsistent t ↔ PortCare uoe step := by
  obtain rfl := Option.some.inj ht
  cases step with
  | event type event =>
    have hport : PortOk (uoeHcdEvent uoe type event).portStatus ↔
        (type = uoeEvent → EventCare uoe event) := by
      by_cases htype : type = uoeEvent
      · subst htype
        simp only [true_implies]
        exact uoeHcdEventSwitch_ok h.port event
      · rw [uoeHcdEvent_ignored htype]
        simp only [htype, false_implies, iff_true]
        exact h.port
    exact ⟨fun hok => hport.mp hok.port,
      fun hcare => ⟨hport.mpr hcare, uoeHcdEvent_remote h.remote type event⟩⟩
  | hubStatus =>
    have hsame : (uoeHcdHubStatus uoe).1.portStatus = uoe.portStatus := by
      unfold uoeHcdHubStatus
      split_ifs <;> rfl
    exact ⟨fun _ => trivial, fun _ => ⟨hsame ▸ h.port, uoeHcdHubStatus_requested.remote h.remote⟩⟩
  | hubControl typeReq wValue wIndex =>
    have hport : PortOk (uoeHcdHubControl uoe typeReq wValue wIndex).1.portStatus ↔
        RequestCare uoe typeReq wValue := by
      have hsame : (uoeHcdHubControl uoe typeReq wValue wIndex).1.portStatus =
          (uoeHcdHubSwitch uoe typeReq wValue wIndex).1.portStatus := by
        dsimp only [uoeHcdHubControl]
        split_ifs <;> rfl
      rw [hsame]
      rcases uoeHcdHubSwitch_cases uoe typeReq wValue wIndex with
        ⟨rfl, heq⟩ | ⟨rfl, heq⟩ | ⟨hclear, hset, heq⟩
      · rw [heq, uoeHcdClearPortFeature_ok h.port]
        simp [RequestCare, clearPortFeature, setPortFeature]
      · rw [heq, uoeHcdSetPortFeature_ok h.port]
        simp [RequestCare, clearPortFeature, setPortFeature]
      · rw [heq]
        simp [RequestCare, hclear, hset, h.port]
    exact ⟨fun hok => hport.mp hok.port,
      fun hcare => ⟨hport.mpr hcare, (uoeHcdHubControl_requested _ _ _).remote h.remote⟩⟩
  | busSuspend =>
    exact ⟨fun hok => h.port.suspend_iff.mp hok.port,
      fun hcare => ⟨h.port.suspend_iff.mpr hcare, uoeHcdBusSuspend_requested.remote h.remote⟩⟩
  | busResume =>
    exact ⟨fun _ => trivial,
      fun _ => ⟨h.port.resume, uoeHcdBusResume_requested.remote h.remote⟩⟩

/-- A port that was just started is consistent: powered, connected, and no event processed. -/
theorem uoeHcdStart_consistent (uoe : UoeHcd) : PortConsistent (uoeHcdStart uoe) where
  port := (portOk_iff (usbPortStatPower ||| usbPortStatConnection)).mpr (by decide)
  remote hknown := by
    rcases hknown with hmem | hmem
    · exact absurd hmem List.not_mem_nil
    · exact absurd hmem List.not_mem_nil

end Calls

/-- The port stays consistent along a run exactly when every step of it may be taken in its state. -/
theorem portConsistent_iff_care (uoe : UoeHcd) (steps : List HubStep) :
    hubMachine.Always PortConsistent (uoeHcdStart uoe) steps ↔
      hubMachine.Guarded PortCare (uoeHcdStart uoe) steps :=
  hubMachine.always_iff_guarded (fun _ h => h)
    (fun _ step _ h ht hcare => (hubMachine_step_consistent h step ht).mpr hcare)
    (fun _ step _ h ht hcare hok => hcare ((hubMachine_step_consistent h step ht).mp hok))
    (uoeHcdStart_consistent uoe) steps

/-- A controller before its start. -/
def uoeHcdProbed : UoeHcd := ⟨0, 0, false, .running, []⟩

/-- A late `RESET_DONE` enables a port whose device is gone. -/
theorem portConsistent_late_resetDone :
    ¬ hubMachine.Always PortConsistent (uoeHcdStart uoeHcdProbed)
      [.event uoeEvent uoeEventDisconnect, .event uoeEvent uoeEventResetDone] := by
  rintro ⟨_, hrest⟩
  have hlast := ((hrest _ rfl).2 _ rfl).port.enable
  exact absurd (hlast (by decide)) (by decide)

end LinuxFunctionTest.DummyUsb
