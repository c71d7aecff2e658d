import LinuxFunctionTest.DummyUsb.Control

/-!
# Setup callbacks during the teardown of a gadget

For a SETUP packet that `handle_control_request` leaves to the gadget driver, `uoe_udc_poll_loop`
checks the driver and counts the callback under the lock, drops the lock, reads the driver again and
calls it. The teardown turns the asynchronous callbacks off, pulls the device down, which waits for
the callbacks counted so far, and stops the controller. The loop looks neither at `ints_enabled` nor
at `pullup`. The main result is that the teardown excludes setup callbacks in every run in which no
SETUP packet passes the check after that wait.
-/

namespace LinuxFunctionTest.DummyUsb

/-- Where the loop stands in a SETUP packet: in none, past the check and about to read the driver, in
the callback, behind it, or dead after reading through a null driver. -/
inductive SetupLoop where
  | polling
  | checked
  | calling
  | called
  | crashed
  deriving DecidableEq

/-- Where the teardown stands: not begun, with asynchronous callbacks off, in the wait of
`dummy_pullup(0)`, past it, with `dummy_pullup(0)` returned, in `dummy_udc_stop`, and past it. -/
inductive Teardown where
  | bound
  | quiet
  | draining
  | drained
  | pulledDown
  | stopping
  | stopped
  deriving DecidableEq

/-- The callbacks the loop has counted and not yet discounted. -/
def SetupLoop.usage : SetupLoop → ℕ
  | .checked | .calling | .called => 1
  | .polling | .crashed => 0

/-- `dummy_pullup(0)` has not left its wait yet. -/
def Teardown.BeforeDrained : Teardown → Prop
  | .bound | .quiet | .draining => True
  | _ => False

/-- `dummy_pullup(0)` has returned. -/
def Teardown.AfterPullup : Teardown → Prop
  | .pulledDown | .stopping | .stopped => True
  | _ => False

instance (teardown : Teardown) : Decidable teardown.BeforeDrained := by
  cases teardown <;> unfold Teardown.BeforeDrained <;> infer_instance

instance (teardown : Teardown) : Decidable teardown.AfterPullup := by
  cases teardown <;> unfold Teardown.AfterPullup <;> infer_instance

/-- The controller with the fields of the setup path, the loop and the teardown. Observed: the
callbacks that began after `dummy_pullup(0)` had returned. -/
structure TeardownState where
  gadget : Gadget
  callbackUsage : ℕ
  pullup : Bool
  loop : SetupLoop
  teardown : Teardown
  lateCallbacks : ℕ

namespace TeardownState

/-- The gadget changes. -/
def setGadget (s : TeardownState) (g : Gadget) : TeardownState := { s with gadget := g }

/-- The loop moves on. -/
def setLoop (s : TeardownState) (loop : SetupLoop) : TeardownState := { s with loop := loop }

/-- The teardown moves on. -/
def setTeardown (s : TeardownState) (teardown : Teardown) : TeardownState :=
  { s with teardown := teardown }

/-- `dummy_pullup(0)` clears `pullup`. -/
def lowerPullup (s : TeardownState) : TeardownState := { s with pullup := false }

/-- The loop counts a callback and drops the lock. -/
def countCallback (s : TeardownState) : TeardownState :=
  { s with callbackUsage := s.callbackUsage + 1, loop := .checked }

/-- The loop enters the callback of the driver it has read. -/
def beginCallback (s : TeardownState) : TeardownState :=
  { s with
    loop := .calling
    lateCallbacks := s.lateCallbacks + if s.teardown.AfterPullup then 1 else 0 }

/-- The loop takes the lock again and discounts the callback. -/
def discountCallback (s : TeardownState) : TeardownState :=
  { s with callbackUsage := s.callbackUsage - 1, loop := .polling }

end TeardownState

/-- The request is left to the gadget driver and there is one. -/
def PassesCheck (g : Gadget) (setup : UsbCtrlRequest) : Prop :=
  0 < (handleControlRequest g setup).2 ∧ (handleControlRequest g setup).1.udc.driver = true

instance (g : Gadget) (setup : UsbCtrlRequest) : Decidable (PassesCheck g setup) := by
  unfold PassesCheck
  infer_instance

/-- The locked section of `uoe_udc_poll_loop` on a SETUP packet. -/
def setupPacket (s : TeardownState) (setup : UsbCtrlRequest) : TeardownState :=
  let t := s.setGadget (handleControlRequest s.gadget setup).1
  if PassesCheck s.gadget setup then t.countCallback else t

/-- The next step of the loop within a SETUP packet: it reads the driver and calls it, the callback
ends, it takes the lock again. -/
def loopStep (s : TeardownState) : Option TeardownState :=
  match s.loop with
  | .checked => some (if s.gadget.udc.driver then s.beginCallback else s.setLoop .crashed)
  | .calling => some (s.setLoop .called)
  | .called => some s.discountCallback
  | .polling | .crashed => none

/-- `dummy_udc_async_callbacks`. -/
def dummyUdcAsyncCallbacks (g : Gadget) (enable : Bool) : Gadget :=
  { g with udc := { g.udc with intsEnabled := enable } }

/-- One pass of the wait of `dummy_pullup(0)` under the lock. -/
def pullupWait (s : TeardownState) : TeardownState :=
  s.setTeardown (if 0 < s.callbackUsage then .draining else .drained)

/-- The next step of the teardown. `dummy_pullup(0)` sends its event between its wait and its
return, and `dummy_udc_stop` returns when it has dropped the driver. -/
def teardownStep (s : TeardownState) : Option TeardownState :=
  match s.teardown with
  | .bound => some ((s.setGadget (dummyUdcAsyncCallbacks s.gadget false)).setTeardown .quiet)
  | .quiet => some (pullupWait s.lowerPullup)
  | .draining => some (pullupWait s)
  | .drained => some (s.setTeardown .pulledDown)
  | .pulledDown =>
    some ((s.setGadget { s.gadget with udc := dummyUdcStop s.gadget.udc }).setTeardown .stopping)
  | .stopping => if s.gadget.udc.driver then none else some (s.setTeardown .stopped)
  | .stopped => none

/-- A SETUP packet, the next step of the loop within one, the next step of the teardown, or a step of
anything else that uses the controller. -/
inductive TeardownLabel where
  | setup (setup : UsbCtrlRequest)
  | loop
  | teardown
  | other (step : GadgetStep)

/-- Only the teardown stops the controller, and the loop takes no poll within a SETUP packet. -/
def TeardownState.allows (s : TeardownState) : GadgetStep → Bool
  | .udc .udcStop => false
  | .udc (.poll _ _) => s.loop == .polling
  | _ => true

/-- The interleavings of the loop, the teardown and everything else that uses the controller. -/
def teardownMachine : Machine TeardownState TeardownLabel where
  step s label := match label with
    | .setup setup => if s.loop = .polling then some (setupPacket s setup) else none
    | .loop => loopStep s
    | .teardown => teardownStep s
    | .other step => if s.allows step then (gadgetStep s.gadget step).map s.setGadget else none

/-- A controller in use, before its teardown. -/
def teardownStart (req : ReqRef → UsbRequest) (userBuf : ℕ → ℕ → UInt8) : TeardownState :=
  ⟨gadgetStart req userBuf, 0, true, .polling, .bound, 0⟩

/-- The loop never read through a null driver, no callback began after `dummy_pullup(0)` had
returned, and none runs once `dummy_udc_stop` has returned. -/
structure SetupExcluded (s : TeardownState) : Prop where
  alive : s.loop ≠ .crashed
  noneLate : s.lateCallbacks = 0
  noneRunning : s.teardown = .stopped → s.loop ≠ .calling

/-- A SETUP packet passes the check of the driver only before `dummy_pullup(0)` has left its wait. -/
def ChecksInTime (s : TeardownState) : TeardownLabel → Prop
  | .setup setup => PassesCheck s.gadget setup → s.teardown.BeforeDrained
  | _ => True

instance (s : TeardownState) (label : TeardownLabel) : Decidable (ChecksInTime s label) := by
  cases label <;> unfold ChecksInTime <;> infer_instance

/-- The loop is in no SETUP packet once the wait is over, and a driver is bound until then. -/
structure SetupDrained (s : TeardownState) : Prop where
  alive : s.loop ≠ .crashed
  usage : s.callbackUsage = s.loop.usage
  drained : ¬ s.teardown.BeforeDrained → s.loop = .polling
  running : s.teardown.BeforeDrained → s.gadget.udc.Running
  noneLate : s.lateCallbacks = 0

/-- `dummy_pullup(0)` returns after its wait. -/
theorem Teardown.BeforeDrained.not_afterPullup {teardown : Teardown}
    (h : teardown.BeforeDrained) : ¬ teardown.AfterPullup := by
  cases teardown <;> first | exact h.elim | exact id

/-- A loop within a SETUP packet finds the wait not over. -/
theorem SetupDrained.beforeDrained {s : TeardownState} (h : SetupDrained s)
    (hloop : s.loop ≠ .polling) : s.teardown.BeforeDrained := by
  by_contra hno
  exact hloop (h.drained hno)

/-- With no callback counted the loop is in no SETUP packet. -/
theorem SetupDrained.polling_of_unused {s : TeardownState} (h : SetupDrained s)
    (husage : ¬ 0 < s.callbackUsage) : s.loop = .polling := by
  have hzero : s.loop.usage = 0 := by
    rw [← h.usage]
    omega
  cases hloop : s.loop with
  | polling => rfl
  | crashed => exact absurd hloop h.alive
  | checked | calling | called => simp [hloop, SetupLoop.usage] at hzero

/-- The invariant implies the property. -/
theorem SetupDrained.excluded {s : TeardownState} (h : SetupDrained s) : SetupExcluded s := by
  refine ⟨h.alive, h.noneLate, fun hstopped hcalling => ?_⟩
  have hpolling := h.drained (by simp [hstopped, Teardown.BeforeDrained])
  simp [hcalling] at hpolling

/-- A SETUP packet that passes the check in time keeps the invariant. -/
theorem setupPacket_drained {s : TeardownState} (h : SetupDrained s) (hloop : s.loop = .polling)
    {setup : UsbCtrlRequest} (hcheck : PassesCheck s.gadget setup → s.teardown.BeforeDrained) :
    SetupDrained (setupPacket s setup) := by
  have hrunning : s.teardown.BeforeDrained →
      (handleControlRequest s.gadget setup).1.udc.Running := fun hbefore =>
    (handleControlRequest_sameQueues s.gadget setup).running (h.running hbefore)
  have husage : s.callbackUsage = 0 := by rw [h.usage, hloop]; rfl
  unfold setupPacket
  simp only
  split_ifs with hpasses
  · have hbefore := hcheck hpasses
    refine ⟨nofun, ?_, fun hno => absurd hbefore hno, hrunning, h.noneLate⟩
    change s.callbackUsage + 1 = 1
    rw [husage]
  · exact ⟨h.alive, h.usage, h.drained, hrunning, h.noneLate⟩

/-- The loop within a SETUP packet keeps the invariant: the driver it reads is still there. -/
theorem loopStep_drained {s t : TeardownState} (h : SetupDrained s) (ht : loopStep s = some t) :
    SetupDrained t := by
  unfold loopStep at ht
  cases hloop : s.loop with
  | polling | crashed => simp [hloop] at ht
  | checked =>
    have hbefore := h.beforeDrained (by simp [hloop])
    simp only [hloop, (h.running hbefore).1, if_true] at ht
    obtain rfl := Option.some.inj ht
    refine ⟨nofun, ?_, fun hno => absurd hbefore hno, h.running, ?_⟩
    · change s.callbackUsage = 1
      rw [h.usage, hloop]
      rfl
    · change s.lateCallbacks + (if s.teardown.AfterPullup then 1 else 0) = 0
      rw [if_neg hbefore.not_afterPullup, h.noneLate]
  | calling =>
    have hbefore := h.beforeDrained (by simp [hloop])
    simp only [hloop] at ht
    obtain rfl := Option.some.inj ht
    refine ⟨nofun, ?_, fun hno => absurd hbefore hno, h.running, h.noneLate⟩
    change s.callbackUsage = 1
    rw [h.usage, hloop]
    rfl
  | called =>
    simp only [hloop] at ht
    obtain rfl := Option.some.inj ht
    refine ⟨nofun, ?_, fun _ => rfl, h.running, h.noneLate⟩
    change s.callbackUsage - 1 = 0
    rw [h.usage, hloop]
    rfl

/-- The wait of `dummy_pullup(0)` ends only outside of SETUP packets. -/
theorem pullupWait_drained {s : TeardownState} (h : SetupDrained s)
    (hbefore : s.teardown.BeforeDrained) : SetupDrained (pullupWait s) := by
  unfold pullupWait
  split_ifs with husage
  · exact ⟨h.alive, h.usage, fun hno => absurd trivial hno, fun _ => h.running hbefore, h.noneLate⟩
  · exact ⟨h.alive, h.usage, fun _ => h.polling_of_unused husage, nofun, h.noneLate⟩

/-- The teardown keeps the invariant. -/
theorem teardownStep_drained {s t : TeardownState} (h : SetupDrained s)
    (ht : teardownStep s = some t) : SetupDrained t := by
  have hpolling : ¬ s.teardown.BeforeDrained → ∀ {u : TeardownState}, u.loop = s.loop →
      u.callbackUsage = s.callbackUsage → u.lateCallbacks = s.lateCallbacks →
      ¬ u.teardown.BeforeDrained → SetupDrained u := by
    intro hno u hloop husage hlate hafter
    exact ⟨hloop ▸ h.alive, by rw [husage, hloop]; exact h.usage, fun _ => hloop.trans (h.drained hno),
      fun hu => absurd hu hafter, hlate.trans h.noneLate⟩
  unfold teardownStep at ht
  cases hteardown : s.teardown with
  | bound =>
    simp only [hteardown] at ht
    obtain rfl := Option.some.inj ht
    have hrun := h.running (by rw [hteardown]; trivial)
    exact ⟨h.alive, h.usage, fun hno => absurd trivial hno, fun _ => hrun, h.noneLate⟩
  | quiet =>
    simp only [hteardown] at ht
    obtain rfl := Option.some.inj ht
    have hbefore : s.teardown.BeforeDrained := by rw [hteardown]; trivial
    have hlowered : SetupDrained s.lowerPullup :=
      ⟨h.alive, h.usage, h.drained, h.running, h.noneLate⟩
    exact pullupWait_drained hlowered hbefore
  | draining =>
    simp only [hteardown] at ht
    obtain rfl := Option.some.inj ht
    exact pullupWait_drained h (by rw [hteardown]; trivial)
  | drained =>
    simp only [hteardown] at ht
    obtain rfl := Option.some.inj ht
    exact hpolling (by rw [hteardown]; exact id) rfl rfl rfl id
  | pulledDown =>
    simp only [hteardown] at ht
    obtain rfl := Option.some.inj ht
    exact hpolling (by rw [hteardown]; exact id) rfl rfl rfl id
  | stopping =>
    simp only [hteardown] at ht
    split_ifs at ht
    obtain rfl := Option.some.inj ht
    exact hpolling (by rw [hteardown]; exact id) rfl rfl rfl id
  | stopped => simp [hteardown] at ht

/-- Every step that checks in time keeps the invariant. -/
theorem teardown_step_drained (s : TeardownState) (label : TeardownLabel) (t : TeardownState)
    (h : SetupDrained s) (ht : teardownMachine.step s label = some t)
    (hguard : ChecksInTime s label) : SetupDrained t := by
  cases label with
  | setup setup =>
    simp only [teardownMachine] at ht
    split_ifs at ht with hloop
    obtain rfl := Option.some.inj ht
    exact setupPacket_drained h hloop hguard
  | loop => exact loopStep_drained h ht
  | teardown => exact teardownStep_drained h ht
  | other step =>
    simp only [teardownMachine] at ht
    split_ifs at ht with hallows
    obtain ⟨g, hg, rfl⟩ := Option.map_eq_some_iff.mp ht
    have hstop : step ≠ .udc .udcStop := by
      rintro rfl
      simp [TeardownState.allows] at hallows
    exact ⟨h.alive, h.usage, h.drained, fun hbefore =>
      gadgetStep_running (h.running hbefore) hg hstop, h.noneLate⟩

/-- In every run in which SETUP packets pass the check in time, the teardown excludes them. -/
theorem excluded_of_checksInTime (req : ReqRef → UsbRequest) (userBuf : ℕ → ℕ → UInt8)
    {labels : List TeardownLabel}
    (h : teardownMachine.Guarded ChecksInTime (teardownStart req userBuf) labels) :
    teardownMachine.Always SetupExcluded (teardownStart req userBuf) labels := by
  have hinit : SetupDrained (teardownStart req userBuf) :=
    ⟨nofun, rfl, fun hno => absurd trivial hno, fun _ => ⟨rfl, nofun⟩, rfl⟩
  exact (teardownMachine.always_of_guarded teardown_step_drained hinit h).mono _
    fun s hs => hs.excluded

/-- A loop past its check after `dummy_pullup(0)` has returned begins a late callback, or reads
through a null driver. -/
theorem loopStep_not_excluded {s : TeardownState} (hchecked : s.loop = .checked)
    (hafter : s.teardown.AfterPullup) : ∃ t, loopStep s = some t ∧ ¬ SetupExcluded t := by
  refine ⟨_, by simp only [loopStep, hchecked]; rfl, fun h => ?_⟩
  split_ifs at h
  · have hlate := h.noneLate
    simp only [TeardownState.beginCallback, if_pos hafter] at hlate
    omega
  · exact h.alive rfl

/-- A SETUP packet that passes the check too late is followed by a late callback or a read through a
null driver once `dummy_pullup(0)` has returned and the loop has moved. -/
theorem setup_late_not_excluded {s : TeardownState} (hchecked : s.loop = .checked)
    (hlate : ¬ s.teardown.BeforeDrained) :
    ∃ tail t, (∀ label ∈ tail, label = .loop ∨ label = .teardown) ∧
      teardownMachine.run s tail = some t ∧ ¬ SetupExcluded t := by
  by_cases hafter : s.teardown.AfterPullup
  · obtain ⟨t, ht, hbad⟩ := loopStep_not_excluded hchecked hafter
    replace ht : teardownMachine.step s .loop = some t := ht
    refine ⟨[.loop], t, by simp, ?_, hbad⟩
    rw [Machine.run_cons_of_step teardownMachine ht, Machine.run_nil]
  · have hdrained : s.teardown = .drained := by
      cases hteardown : s.teardown with
      | drained => rfl
      | bound | quiet | draining => exact absurd (by rw [hteardown]; trivial) hlate
      | pulledDown | stopping | stopped => exact absurd (by rw [hteardown]; trivial) hafter
    have hreturn : teardownMachine.step s .teardown = some (s.setTeardown .pulledDown) := by
      simp only [teardownMachine, teardownStep, hdrained]
    obtain ⟨t, ht, hbad⟩ := loopStep_not_excluded (s := s.setTeardown .pulledDown) hchecked trivial
    replace ht : teardownMachine.step (s.setTeardown .pulledDown) .loop = some t := ht
    refine ⟨[.teardown, .loop], t, by simp, ?_, hbad⟩
    rw [Machine.run_cons_of_step teardownMachine hreturn, Machine.run_cons_of_step teardownMachine ht,
      Machine.run_nil]

/-- However the loop and the teardown go on at any point of a run, the loop never reads through a
null driver, no setup callback begins after `dummy_pullup(0)` has returned and none runs once
`dummy_udc_stop` has returned, exactly when in that run SETUP packets pass the check only before
`dummy_pullup(0)` has left its wait. -/
theorem setupExcluded_iff_checksInTime (req : ReqRef → UsbRequest) (userBuf : ℕ → ℕ → UInt8)
    (labels : List TeardownLabel) :
    (∀ front, front <+: labels → ∀ tail, (∀ label ∈ tail, label = .loop ∨ label = .teardown) →
        teardownMachine.Always SetupExcluded (teardownStart req userBuf) (front ++ tail)) ↔
      teardownMachine.Guarded ChecksInTime (teardownStart req userBuf) labels := by
  constructor
  · intro h
    rw [Machine.guarded_iff_run]
    intro front label hfront s t hs ht
    cases label with
    | loop | teardown | other => trivial
    | setup setup =>
      intro hpasses
      by_contra hlate
      -- The packet leaves the loop past its check, and the teardown past its wait.
      simp only [teardownMachine] at ht
      split_ifs at ht with hloop
      have hpacket : t = (s.setGadget (handleControlRequest s.gadget setup).1).countCallback := by
        simpa [setupPacket, hpasses] using ht.symm
      obtain ⟨tail, u, htail, hu, hbad⟩ := setup_late_not_excluded (s := t)
        (by rw [hpacket]; rfl) (by rw [hpacket]; exact hlate)
      refine hbad ((h (front ++ [.setup setup]) hfront tail htail).of_reached _
        (List.prefix_refl _) ?_)
      have hstep : teardownMachine.step s (.setup setup) = some t := by
        simp only [teardownMachine, if_pos hloop]
        exact ht
      rw [List.append_assoc, Machine.run_append, hs, Option.bind_some, List.singleton_append,
        Machine.run_cons_of_step teardownMachine hstep, hu]
  · rintro h front ⟨back, rfl⟩ tail htail
    refine excluded_of_checksInTime req userBuf ((Machine.guarded_append _ _ _ _ _).mpr
      ⟨((Machine.guarded_append _ _ _ _ _).mp h).1, fun t _ => ?_⟩)
    refine Machine.guarded_of_forall _ (fun label hlabel s => ?_) t
    obtain rfl | rfl := htail label hlabel <;> trivial

/-- A SETUP packet for the gadget driver after `dummy_pullup(0)` has returned: the callback begins.
The same packet when the teardown goes on to the end before the loop moves: the loop reads
through a null driver. -/
theorem setupExcluded_broken :
    (¬ teardownMachine.Always SetupExcluded
        (teardownStart (fun _ => ⟨.fifoBuf, 0, 0, 0, true⟩) fun _ _ => 0)
        [.teardown, .teardown, .teardown, .setup ⟨0x80, 6, 0x100, 0, 18⟩, .loop]) ∧
      ¬ teardownMachine.Always SetupExcluded
        (teardownStart (fun _ => ⟨.fifoBuf, 0, 0, 0, true⟩) fun _ _ => 0)
        [.teardown, .teardown, .teardown, .setup ⟨0x80, 6, 0x100, 0, 18⟩, .teardown, .teardown,
          .loop] := by
  constructor
  · intro h
    exact absurd (h.of_reached _ (List.prefix_refl _) rfl).noneLate (by decide)
  · intro h
    exact absurd rfl (h.of_reached _ (List.prefix_refl _) rfl).alive

end LinuxFunctionTest.DummyUsb
