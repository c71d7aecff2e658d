import LinuxFunctionTest.DummyUsb.PortStatus

/-!
# Reported connection changes

`uoe_hcd_hub_status` and `GetPortStatus` report what the upper half of `port_status` holds, and a
request clears `C_CONNECTION` there. No event sets it, so a connection change is never reported: the
hub driver is told of every change exactly in the runs without one.
-/

namespace LinuxFunctionTest.DummyUsb

open Flags

/-- The status poll and `GetPortStatus` both report a connection change. -/
structure ConnectionReported (uoe : UoeHcd) : Prop where
  bit : uoe.Port (usbPortStatCConnection <<< 16)
  hubStatus : (uoeHcdHubStatus uoe).2.2 = 1
  portStatus : ∀ wValue, ∃ status change, (uoeHcdHubControl uoe getPortStatus wValue 1).2.1 =
    .portStatus status change ∧ Any change (usbPortStatCConnection.setWidth 16)

/-- The request `ClearPortFeature(C_CONNECTION)`. -/
def ClearsConnectionChange (step : HubStep) : Prop :=
  ∃ wIndex, step = .hubControl clearPortFeature usbPortFeatCConnection wIndex

/-- Along the run every change of the connection by an event is reported from the state behind the
event until the request that clears it. -/
def ConnectionChangesReported (uoe : UoeHcd) (steps : List HubStep) : Prop :=
  ∀ front type event after, front ++ .event type event :: after <+: steps →
    (∀ step ∈ after, ¬ ClearsConnectionChange step) →
    ∀ s t u, hubMachine.run uoe front = some s → hubMachine.step s (.event type event) = some t →
      hubMachine.run t after = some u →
      ¬ (t.Port usbPortStatConnection ↔ s.Port usbPortStatConnection) → ConnectionReported u

/-- The step does not change the connection: a `CONNECT` finds the port connected, a `DISCONNECT`
finds it disconnected. -/
def ConnectionKept (uoe : UoeHcd) : HubStep → Prop
  | .event type event => type = uoeEvent →
      (event = uoeEventConnect → uoe.Port usbPortStatConnection) ∧
        (event = uoeEventDisconnect → ¬ uoe.Port usbPortStatConnection)
  | _ => True

instance (uoe : UoeHcd) (step : HubStep) : Decidable (ConnectionKept uoe step) :=
  match step with
  | .event _ _ => inferInstanceAs (Decidable (_ → _ ∧ _))
  | .hubStatus | .hubControl _ _ _ | .busSuspend | .busResume => inferInstanceAs (Decidable True)

/-- The change bit is all that the reports depend on. -/
theorem connectionReported_iff (uoe : UoeHcd) :
    ConnectionReported uoe ↔ uoe.Port (usbPortStatCConnection <<< 16) := by
  constructor
  · exact fun h => h.bit
  · intro hbit
    have hhigh : uoe.PortChanged := by
      intro hnone
      apply hbit
      have hpart : (0xffff0000 : BitVec 32) &&& usbPortStatCConnection <<< 16 =
          usbPortStatCConnection <<< 16 := by decide
      rw [← hpart, ← BitVec.and_assoc, hnone, BitVec.zero_and]
    refine ⟨hbit, ?_, fun wValue => ⟨_, _, rfl, ?_⟩⟩
    · rw [uoeHcdHubStatus, if_pos hhigh]
    · have hlow : usbPortStatCConnection.setWidth 16 = BitVec.twoPow 16 0 := by decide
      have hword : usbPortStatCConnection <<< 16 = BitVec.twoPow 32 16 := by decide
      rw [UoeHcd.Port, hword, any_twoPow] at hbit
      rw [hlow, any_twoPow, BitVec.getLsbD_setWidth, BitVec.getLsbD_ushiftRight]
      exact hbit

/-- No step sets `C_CONNECTION`. -/
theorem hubMachine_step_unreported {uoe t : UoeHcd}
    (h : ¬ uoe.Port (usbPortStatCConnection <<< 16)) (step : HubStep)
    (ht : hubMachine.step uoe step = some t) : ¬ t.Port (usbPortStatCConnection <<< 16) := by
  obtain rfl := Option.some.inj ht
  have hreq : ∀ {u : UoeHcd}, Requested uoe u → ¬ u.Port (usbPortStatCConnection <<< 16) :=
    fun hu hbit => h (hu.edit.rise _ (by decide) hbit)
  cases step with
  | event type event =>
    change ¬ (uoeHcdEvent uoe type event).Port _
    by_cases htype : type = uoeEvent
    · subst htype
      exact fun hbit => h ((uoeHcdEventSwitch_edit event).rise _ (by decide) hbit)
    · rw [uoeHcdEvent_ignored htype]
      exact h
  | hubStatus => exact hreq uoeHcdHubStatus_requested
  | hubControl typeReq wValue wIndex => exact hreq (uoeHcdHubControl_requested _ _ _)
  | busSuspend => exact hreq uoeHcdBusSuspend_requested
  | busResume => exact hreq uoeHcdBusResume_requested

/-- An event changes the connection unless it says what the port already knows. -/
theorem uoeHcdEvent_kept_iff (uoe : UoeHcd) (type event : UInt8) :
    ((uoeHcdEvent uoe type event).Port usbPortStatConnection ↔ uoe.Port usbPortStatConnection) ↔
      ConnectionKept uoe (.event type event) := by
  unfold ConnectionKept
  by_cases htype : type = uoeEvent
  · subst htype
    have hport : (uoeHcdEvent uoe uoeEvent event).Port usbPortStatConnection ↔ _ :=
      (uoeHcdEventSwitch_connection _ event).1
    rw [hport]
    simp only [true_implies]
    by_cases hconnect : event = uoeEventConnect
    · subst hconnect
      simp [uoeEventConnect, uoeEventDisconnect]
    · by_cases hdisconnect : event = uoeEventDisconnect
      · subst hdisconnect
        simp [uoeEventConnect, uoeEventDisconnect]
      · simp [hconnect, hdisconnect]
  · rw [uoeHcdEvent_ignored htype]
    simp [htype]

/-- Connection changes are reported in a run exactly when no event of it changes the connection. -/
theorem connectionChangesReported_iff_kept (uoe : UoeHcd) (steps : List HubStep) :
    ConnectionChangesReported (uoeHcdStart uoe) steps ↔
      hubMachine.Guarded ConnectionKept (uoeHcdStart uoe) steps := by
  rw [hubMachine.guarded_iff_run]
  constructor
  · intro h front step hfront s t hs ht
    have hstart : ¬ (uoeHcdStart uoe).Port (usbPortStatCConnection <<< 16) := by
      change ¬ Any (usbPortStatPower ||| usbPortStatConnection) (usbPortStatCConnection <<< 16)
      decide
    have hbefore : ¬ s.Port (usbPortStatCConnection <<< 16) :=
      hubMachine.run_invariant (fun _ step _ hu hv => hubMachine_step_unreported hu step hv) hstart hs
    have hnever := hubMachine_step_unreported hbefore step ht
    cases step with
    | event type event =>
      by_contra hchange
      have hreported := h front type event [] hfront (fun _ hmem => absurd hmem List.not_mem_nil)
        s t t hs ht rfl
      apply hnever
      apply (hreported _).bit
      obtain rfl := Option.some.inj ht
      rwa [uoeHcdEvent_kept_iff]
    | hubStatus | hubControl _ _ _ | busSuspend | busResume => trivial
  · intro h front type event after hafter _ s t u hs ht _ hchange
    have hstep : front ++ [.event type event] <+: steps := by
      obtain ⟨rest, rfl⟩ := hafter
      exact ⟨after ++ rest, by simp⟩
    have hkept := h front _ hstep s t hs ht
    obtain rfl := Option.some.inj ht
    exact absurd ((uoeHcdEvent_kept_iff s type event).mpr hkept) hchange

/-- A plugged device is invisible: after `DISCONNECT` the status poll returns 0. -/
theorem connectionChangesReported_broken :
    ¬ ConnectionChangesReported (uoeHcdStart uoeHcdProbed) [.event uoeEvent uoeEventDisconnect] := by
  intro h
  have hreported := h [] uoeEvent uoeEventDisconnect [] (List.prefix_refl _)
    (fun _ hmem => absurd hmem List.not_mem_nil) _ _ _ rfl rfl rfl (by decide)
  exact absurd hreported.hubStatus (by decide)

end LinuxFunctionTest.DummyUsb
