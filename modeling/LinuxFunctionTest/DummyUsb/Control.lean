import LinuxFunctionTest.DummyUsb.Controller

/-!
# Control requests and halts

The part of `udc.c` that halts endpoints: `dummy_set_halt`, `dummy_set_wedge` and
`handle_control_request`, which answers the standard requests of a SETUP packet itself. It runs
under the lock of the controller, and so does everything here up to its end.
-/

namespace LinuxFunctionTest.DummyUsb

open Bytes Errno

/-- `struct usb_ctrlrequest`, in host order. -/
structure UsbCtrlRequest where
  bRequestType : UInt8
  bRequest : UInt8
  wValue : UInt16
  wIndex : UInt16
  wLength : UInt16
  deriving DecidableEq

/-- The request whose bytes are these. -/
def UsbCtrlRequest.ofBytes (bytes : List UInt8) : UsbCtrlRequest where
  bRequestType := bytes.getD 0 0
  bRequest := bytes.getD 1 0
  wValue := UInt16.ofNat (ofLE ((bytes.drop 2).take 2))
  wIndex := UInt16.ofNat (ofLE ((bytes.drop 4).take 2))
  wLength := UInt16.ofNat (ofLE ((bytes.drop 6).take 2))

/-- `USB_REQ_GET_STATUS`. -/
def usbReqGetStatus : UInt8 := 0x00

/-- `USB_REQ_CLEAR_FEATURE`. -/
def usbReqClearFeature : UInt8 := 0x01

/-- `USB_REQ_SET_FEATURE`. -/
def usbReqSetFeature : UInt8 := 0x03

/-- `USB_REQ_SET_ADDRESS`. -/
def usbReqSetAddress : UInt8 := 0x05

/-- `USB_TYPE_STANDARD | USB_RECIP_DEVICE`. -/
def usbStandardDevice : UInt8 := 0x00

/-- `USB_TYPE_STANDARD | USB_RECIP_ENDPOINT`. -/
def usbStandardEndpoint : UInt8 := 0x02

/-- `USB_DEVICE_REMOTE_WAKEUP`. -/
def usbDeviceRemoteWakeup : UInt16 := 1

/-- The bit `1 << USB_DEVICE_REMOTE_WAKEUP` of `devstatus`. -/
def remoteWakeupBit : UInt16 := 0x02

/-- A controller with its device status and, once `USB_REQ_GET_STATUS` has pointed
`fifo_req.req.buf` at an array on its stack, the bytes it left there. -/
structure Gadget where
  udc : UoeUdc
  devstatus : UInt16
  statusBuf : Option (List UInt8)

/-- The first endpoint behind endpoint 0 with a descriptor of the address a request names. -/
def namedEp (dum : UoeUdc) (wIndex : UInt16) : Option ℕ :=
  ((List.range dummyEndpoints).drop 1).find? fun i =>
    (dum.ep i).desc.any fun epAddr => epAddr.toNat = wIndex.toNat

namespace Gadget

/-- Halt an endpoint. -/
def setHalted (g : Gadget) (i : ℕ) (halted : Bool) : Gadget :=
  { g with udc := g.udc.setEp i { g.udc.ep i with halted := halted } }

/-- Set the device status. -/
def setDevstatus (g : Gadget) (devstatus : UInt16) : Gadget := { g with devstatus := devstatus }

/-- Store the address of the device. -/
def setAddress (g : Gadget) (wValue : UInt16) : Gadget :=
  { g with udc := { g.udc with address := wValue.toNat } }

/-- Hand the status array to `fifo_req`, with the length of the status. -/
def offerStatus (g : Gadget) : Gadget :=
  { g with
    udc := g.udc.setReq .fifo { g.udc.req .fifo with length := 2 }
    statusBuf := some [g.devstatus.toUInt8, 0] }

end Gadget

/-- `USB_REQ_SET_FEATURE`. -/
def setFeature (g : Gadget) (setup : UsbCtrlRequest) : Gadget × ℤ :=
  if setup.bRequestType = usbStandardDevice then
    if setup.wValue = usbDeviceRemoteWakeup then
      (g.setDevstatus (g.devstatus ||| remoteWakeupBit), 0)
    else (g, 1)
  else if setup.bRequestType = usbStandardEndpoint then
    match namedEp g.udc setup.wIndex with
    | some i => (g.setHalted i true, 0)
    | none => (g, 1)
  else (g, 1)

/-- `USB_REQ_CLEAR_FEATURE`. A wedged endpoint stays halted. -/
def clearFeature (g : Gadget) (setup : UsbCtrlRequest) : Gadget × ℤ :=
  if setup.bRequestType = usbStandardDevice then
    if setup.wValue = usbDeviceRemoteWakeup then
      (g.setDevstatus (g.devstatus &&& ~~~remoteWakeupBit), 0)
    else (g, 1)
  else if setup.bRequestType = usbStandardEndpoint then
    match namedEp g.udc setup.wIndex with
    | some i => (if (g.udc.ep i).wedged then g else g.setHalted i false, 0)
    | none => (g, 1)
  else (g, 1)

/-- `handle_control_request`: the controller after it and its result, which is positive for a
request that is left to the gadget driver. -/
def handleControlRequest (g : Gadget) (setup : UsbCtrlRequest) : Gadget × ℤ :=
  if setup.bRequest = usbReqSetAddress then
    if setup.bRequestType = usbStandardDevice then (g.setAddress setup.wValue, 0) else (g, 1)
  else if setup.bRequest = usbReqSetFeature then setFeature g setup
  else if setup.bRequest = usbReqClearFeature then clearFeature g setup
  else if setup.bRequest = usbReqGetStatus then
    if setup.bRequestType = usbStandardDevice ||| usbDirIn then (g.offerStatus, 0) else (g, 1)
  else (g, 1)

/-- `dummy_set_halt` on endpoint `i`. -/
def dummySetHalt (g : Gadget) (i : ℕ) (value : ℤ) : Gadget × ℤ :=
  let ep := g.udc.ep i
  if ¬ g.udc.driver then (g, -eshutdown)
  else if value = 0 then
    ({ g with udc := g.udc.setEp i { ep with halted := false, wedged := false } }, 0)
  else if (ep.desc.any fun epAddr => epAddr &&& usbDirIn != 0) = true ∧ ep.queue ≠ [] then
    (g, -eagain)
  else
    ({ g with
      udc := g.udc.setEp i { ep with halted := true, wedged := value == 2 || ep.wedged } }, 0)

/-- `dummy_set_wedge` on endpoint `i`. -/
def dummySetWedge (g : Gadget) (i : ℕ) : Gadget × ℤ :=
  if i = 0 then (g, -einval) else dummySetHalt g i 1

/-- The call of `dummy_queue` takes the fast path, which points `fifo_req` at `fifo_buf` again. -/
def absorbs (dum : UoeUdc) : UdcStep → Bool
  | .queue i n => decide (FastPath dum i n) && (dummyQueue dum i n).2 == 0
  | _ => false

/-- A step of the controller that is no SETUP packet. -/
inductive GadgetStep where
  | udc (step : UdcStep)
  | setHalt (i : ℕ) (value : ℤ)
  | setWedge (i : ℕ)

/-- The controller after a step of its queues has taken them to `dum`. -/
def Gadget.afterUdc (g : Gadget) (step : UdcStep) (dum : UoeUdc) : Gadget :=
  { g with udc := dum, statusBuf := if absorbs g.udc step then none else g.statusBuf }

/-- The step of a gadget driver or of a call under way. -/
def gadgetStep (g : Gadget) : GadgetStep → Option Gadget
  | .udc step => (udcMachine.step g.udc step).map (g.afterUdc step)
  | .setHalt i value => if i < dummyEndpoints then some (dummySetHalt g i value).1 else none
  | .setWedge i => if i < dummyEndpoints then some (dummySetWedge g i).1 else none

/-- The controller as it starts, with a driver bound. -/
def gadgetStart (req : ReqRef → UsbRequest) (userBuf : ℕ → ℕ → UInt8) : Gadget :=
  ⟨udcStart req userBuf, 0, none⟩

/-- Two controllers with the same queues, the same endpoint addresses, the same replies sent and the
same calls under way. -/
structure SameQueues (dum dum' : UoeUdc) : Prop where
  queue : ∀ i, (dum'.ep i).queue = (dum.ep i).queue
  desc : ∀ i, (dum'.ep i).desc = (dum.ep i).desc
  sent : dum'.sent = dum.sent
  pending : dum'.pending = dum.pending
  driver : dum'.driver = dum.driver

/-- Replacing an endpoint without touching its queue or its address. -/
theorem sameQueues_setEp (dum : UoeUdc) (i : ℕ) {ep : UoeEp} (hqueue : ep.queue = (dum.ep i).queue)
    (hdesc : ep.desc = (dum.ep i).desc) : SameQueues dum (dum.setEp i ep) := by
  refine ⟨fun j => ?_, fun j => ?_, rfl, rfl, rfl⟩ <;>
  · by_cases hj : j = i
    · subst hj
      simp only [UoeUdc.setEp, Function.update_self, hqueue, hdesc]
    · simp only [UoeUdc.setEp, Function.update_of_ne hj]

/-- Changing nothing of the queues. -/
theorem SameQueues.refl (dum : UoeUdc) : SameQueues dum dum :=
  ⟨fun _ => rfl, fun _ => rfl, rfl, rfl, rfl⟩

/-- A control request touches no queue. -/
theorem handleControlRequest_sameQueues (g : Gadget) (setup : UsbCtrlRequest) :
    SameQueues g.udc (handleControlRequest g setup).1.udc := by
  have hhalted : ∀ i halted, SameQueues g.udc (g.setHalted i halted).udc :=
    fun i _ => sameQueues_setEp g.udc i rfl rfl
  simp only [handleControlRequest, setFeature, clearFeature]
  split_ifs
  · exact ⟨fun _ => rfl, fun _ => rfl, rfl, rfl, rfl⟩
  · exact .refl _
  · exact .refl _
  · exact .refl _
  · split
    · exact hhalted _ _
    · exact .refl _
  · exact .refl _
  · exact .refl _
  · exact .refl _
  · split
    · simp only
      split_ifs
      · exact .refl _
      · exact hhalted _ _
    · exact .refl _
  · exact .refl _
  · exact ⟨fun _ => rfl, fun _ => rfl, rfl, rfl, rfl⟩
  · exact .refl _
  · exact .refl _

/-- Halting an endpoint touches no queue. -/
theorem dummySetHalt_sameQueues (g : Gadget) (i : ℕ) (value : ℤ) :
    SameQueues g.udc (dummySetHalt g i value).1.udc := by
  simp only [dummySetHalt]
  split_ifs
  · exact sameQueues_setEp g.udc i rfl rfl
  · exact .refl _
  · exact sameQueues_setEp g.udc i rfl rfl
  · exact .refl _

/-- Wedging an endpoint touches no queue. -/
theorem dummySetWedge_sameQueues (g : Gadget) (i : ℕ) :
    SameQueues g.udc (dummySetWedge g i).1.udc := by
  unfold dummySetWedge
  split_ifs
  · exact .refl _
  · exact dummySetHalt_sameQueues g i 1

/-- The driver is bound and no call under way is stopping the controller. -/
def UoeUdc.Running (dum : UoeUdc) : Prop :=
  dum.driver = true ∧ ∀ p ∈ dum.pending, ∀ i, p.after ≠ .stop i

/-- The step takes requests off the queues at most and sends nothing. -/
structure Unlinks (dum dum' : UoeUdc) : Prop where
  queue : ∀ j, (dum'.ep j).queue.Sublist (dum.ep j).queue
  sent : dum'.sent = dum.sent

/-- Nothing is taken off a queue. -/
theorem SameQueues.unlinks {dum dum' : UoeUdc} (h : SameQueues dum dum') : Unlinks dum dum' :=
  ⟨fun j => (h.queue j).symm ▸ List.Sublist.refl _, h.sent⟩

/-- The same calls are under way. -/
theorem SameQueues.running {dum dum' : UoeUdc} (h : SameQueues dum dum') (hrun : dum.Running) :
    dum'.Running :=
  ⟨h.driver.trans hrun.1, fun p hp => hrun.2 p (h.pending ▸ hp)⟩

/-- Unlinking composes. -/
theorem Unlinks.trans {a b c : UoeUdc} (hab : Unlinks a b) (hbc : Unlinks b c) : Unlinks a c :=
  ⟨fun j => (hbc.queue j).trans (hab.queue j), hbc.sent.trans hab.sent⟩

/-- Replacing an endpoint by one with fewer requests. -/
theorem unlinks_setEp (dum : UoeUdc) (i : ℕ) (ep : UoeEp)
    (hqueue : ep.queue.Sublist (dum.ep i).queue) : Unlinks dum (dum.setEp i ep) := by
  refine ⟨fun j => ?_, rfl⟩
  by_cases hj : j = i
  · subst hj
    simpa [UoeUdc.setEp] using hqueue
  · simp [UoeUdc.setEp, Function.update_of_ne hj]

/-- A pass of `nuke` unlinks. -/
theorem nukeStep_unlinks {dum dum' : UoeUdc} {i : ℕ} {after : After}
    (h : nukeStep dum i after = some dum') : Unlinks dum dum' := by
  obtain ⟨r, rest, hqueue, rfl⟩ := nukeStep_cases h
  have hunlinks := unlinks_setEp dum i { dum.ep i with queue := rest }
    (hqueue ▸ List.sublist_cons_self r rest)
  exact ⟨hunlinks.queue, rfl⟩

/-- `nuke` unlinks. -/
theorem nuke_unlinks (dum : UoeUdc) (i : ℕ) : Unlinks dum (nuke dum i) := by
  obtain ⟨-, hsame⟩ | hpass := nuke_cases dum i
  · rw [hsame]
    exact (SameQueues.refl dum).unlinks
  · exact nukeStep_unlinks hpass

/-- `nuke` stops nothing. -/
theorem nuke_running {dum : UoeUdc} (hrun : dum.Running) (i : ℕ) : (nuke dum i).Running := by
  obtain ⟨-, hsame⟩ | hpass := nuke_cases dum i
  · rw [hsame]
    exact hrun
  · obtain ⟨r, rest, -, heq⟩ := nukeStep_cases hpass
    rw [heq]
    exact ⟨hrun.1, List.forall_mem_cons.mpr ⟨nofun, hrun.2⟩⟩

/-- `stop_activity` unlinks. -/
theorem stopActivity_unlinks (dum : UoeUdc) (count : ℕ) : Unlinks dum (stopActivity dum count) := by
  obtain ⟨i, -, -, -, hpass⟩ | ⟨-, heq⟩ := stopActivity_cases dum count
  · exact nukeStep_unlinks hpass
  · rw [heq]
    exact ⟨fun _ => List.Sublist.refl _, rfl⟩

/-- Every step but a `dummy_queue` and a poll unlinks. -/
theorem udc_step_unlinks {dum dum' : UoeUdc} {step : UdcStep}
    (h : udcMachine.step dum step = some dum') (hqueue : ∀ i n, step ≠ .queue i n)
    (hpoll : ∀ epAddr seq, step ≠ .poll epAddr seq) : Unlinks dum dum' := by
  cases step with
  | prepare n length complete bytes =>
    obtain ⟨-, rfl⟩ := udcMachine_step h
    exact ⟨fun _ => List.Sublist.refl _, rfl⟩
  | enable i epAddr =>
    obtain ⟨-, rfl⟩ := udcMachine_step h
    obtain hsame | heq := dummyEnable_cases dum i epAddr
    · rw [hsame]
      exact (SameQueues.refl dum).unlinks
    · rw [heq]
      exact unlinks_setEp dum i _ (List.Sublist.refl _)
  | queue i n => exact absurd rfl (hqueue i n)
  | dequeue i n =>
    obtain ⟨-, rfl⟩ := udcMachine_step h
    obtain hsame | ⟨-, heq⟩ := dummyDequeue_cases dum i n
    · rw [hsame]
      exact (SameQueues.refl dum).unlinks
    · rw [heq]
      have hunlinks := unlinks_setEp dum i
        { dum.ep i with queue := (dum.ep i).queue.erase (.user n) } List.erase_sublist
      exact ⟨hunlinks.queue, rfl⟩
  | disable i =>
    obtain ⟨-, rfl⟩ := udcMachine_step h
    obtain hsame | heq := dummyDisable_cases dum i
    · rw [hsame]
      exact (SameQueues.refl dum).unlinks
    · rw [heq]
      have hdesc := unlinks_setEp dum i { dum.ep i with desc := none } (List.Sublist.refl _)
      exact hdesc.trans (nuke_unlinks _ i)
  | udcStop =>
    obtain rfl := Option.some.inj h
    have hunlinks := stopActivity_unlinks { dum with intsEnabled := false, address := 0 }
      dummyEndpoints
    exact ⟨hunlinks.queue, hunlinks.sent⟩
  | poll epAddr seq => exact absurd rfl (hpoll epAddr seq)
  | giveback k =>
    obtain ⟨p, hp, -, rfl⟩ := udcMachine_step h
    obtain ⟨hep, -, -, hsent, -⟩ := giveback_fields
      { dum with pending := dum.pending.set k { p with given := true } } p
    exact ⟨fun j => by rw [hep], hsent⟩
  | resume k =>
    obtain ⟨p, hp, -, rfl⟩ := udcMachine_step h
    cases hafter : p.after with
    | finish => exact ⟨fun _ => List.Sublist.refl _, rfl⟩
    | nuke i =>
      have hunlinks := nuke_unlinks { dum with pending := dum.pending.eraseIdx k } i
      exact ⟨hunlinks.queue, hunlinks.sent⟩
    | stop i =>
      have hunlinks := stopActivity_unlinks { dum with pending := dum.pending.eraseIdx k }
        (dummyEndpoints - i)
      exact ⟨hunlinks.queue, hunlinks.sent⟩

/-- What `dummy_queue` links for request `n`: the FIFO stand-in on the fast path. -/
def linkedAs (dum : UoeUdc) (i n : ℕ) : ReqRef := if FastPath dum i n then .fifo else .user n

/-- `dummy_queue` refuses a request, or links it or its stand-in at the end of the queue. -/
theorem dummyQueue_cases (dum : UoeUdc) (i n : ℕ) :
    ((dummyQueue dum i n).2 ≠ 0 ∧ (dummyQueue dum i n).1 = dum) ∨
    ((dummyQueue dum i n).2 = 0 ∧
      (dummyQueue dum i n).1.ep =
        (dum.setQueue i ((dum.ep i).queue ++ [linkedAs dum i n])).ep ∧
      (dummyQueue dum i n).1.sent = dum.sent ∧ (dummyQueue dum i n).1.driver = dum.driver ∧
      ∀ p ∈ (dummyQueue dum i n).1.pending, p ∈ dum.pending ∨ p.after = .finish) := by
  unfold dummyQueue
  simp only
  split_ifs with hrefused hdesc hdriver hfast
  · exact .inl ⟨by simp [einval], rfl⟩
  · exact .inl ⟨by simp [einval], rfl⟩
  · refine .inr ⟨rfl, by simp only [linkedAs, if_pos hfast]; rfl, rfl, rfl, ?_⟩
    exact List.forall_mem_cons.mpr ⟨.inr rfl, fun p hp => .inl hp⟩
  · exact .inr ⟨rfl, by simp only [linkedAs, if_neg hfast]; rfl, rfl, rfl, fun p hp => .inl hp⟩
  · exact .inl ⟨by simp [eshutdown], rfl⟩

/-- A poll binds no driver and leaves at most a call that only returns. -/
theorem uoeUdcPoll_running {dum : UoeUdc} (hrun : dum.Running) (epAddr : UInt8) (seq : UInt16) :
    (uoeUdcPoll dum epAddr seq).Running := by
  obtain ⟨reply, heq⟩ | ⟨i, r, rest, reply, -, -, heq⟩ := uoeUdcPoll_cases dum epAddr seq
  · rw [heq]
    exact hrun
  · rw [heq]
    exact ⟨hrun.1, List.forall_mem_cons.mpr ⟨nofun, hrun.2⟩⟩

/-- Only `dummy_udc_stop` stops a running controller. -/
theorem udc_step_running {dum dum' : UoeUdc} (hrun : dum.Running) {step : UdcStep}
    (h : udcMachine.step dum step = some dum') (hstop : step ≠ .udcStop) : dum'.Running := by
  cases step with
  | prepare n length complete bytes =>
    obtain ⟨-, rfl⟩ := udcMachine_step h
    exact hrun
  | enable i epAddr =>
    obtain ⟨-, rfl⟩ := udcMachine_step h
    obtain hsame | heq := dummyEnable_cases dum i epAddr
    · rwa [hsame]
    · rw [heq]
      exact hrun
  | queue i n =>
    obtain ⟨-, rfl⟩ := udcMachine_step h
    obtain ⟨-, hsame⟩ | ⟨-, -, -, hdriver, hpending⟩ := dummyQueue_cases dum i n
    · rwa [hsame]
    · refine ⟨hdriver.trans hrun.1, fun p hp j => ?_⟩
      rcases hpending p hp with hp | hp
      · exact hrun.2 p hp j
      · simp [hp]
  | dequeue i n =>
    obtain ⟨-, rfl⟩ := udcMachine_step h
    obtain hsame | ⟨-, heq⟩ := dummyDequeue_cases dum i n
    · rwa [hsame]
    · rw [heq]
      exact ⟨hrun.1, List.forall_mem_cons.mpr ⟨nofun, hrun.2⟩⟩
  | disable i =>
    obtain ⟨-, rfl⟩ := udcMachine_step h
    obtain hsame | heq := dummyDisable_cases dum i
    · rwa [hsame]
    · rw [heq]
      have hdesc : (dum.setEp i { dum.ep i with desc := none }).Running := hrun
      exact nuke_running hdesc i
  | udcStop => exact absurd rfl hstop
  | poll epAddr seq =>
    obtain rfl := Option.some.inj h
    exact uoeUdcPoll_running hrun epAddr seq
  | giveback k =>
    obtain ⟨p, hp, -, rfl⟩ := udcMachine_step h
    obtain ⟨-, hpending, -, -, hdriver, -⟩ := giveback_fields
      { dum with pending := dum.pending.set k { p with given := true } } p
    refine ⟨hdriver.trans hrun.1, fun q hq j => ?_⟩
    rw [hpending] at hq
    rcases List.mem_or_eq_of_mem_set hq with hq | rfl
    · exact hrun.2 q hq j
    · exact hrun.2 p (List.mem_of_getElem? hp) j
  | resume k =>
    obtain ⟨p, hp, -, rfl⟩ := udcMachine_step h
    have hrest : ({ dum with pending := dum.pending.eraseIdx k } : UoeUdc).Running :=
      ⟨hrun.1, fun q hq => hrun.2 q (List.mem_of_mem_eraseIdx hq)⟩
    cases hafter : p.after with
    | finish => exact hrest
    | nuke i => exact nuke_running hrest i
    | stop i => exact absurd hafter (hrun.2 p (List.mem_of_getElem? hp) i)

/-- Only `dummy_udc_stop` stops a running controller. -/
theorem gadgetStep_running {g g' : Gadget} (hrun : g.udc.Running) {step : GadgetStep}
    (h : gadgetStep g step = some g') (hstop : step ≠ .udc .udcStop) : g'.udc.Running := by
  cases step with
  | udc step =>
    obtain ⟨dum, hdum, rfl⟩ := Option.map_eq_some_iff.mp h
    exact udc_step_running hrun hdum fun heq => hstop (heq ▸ rfl)
  | setHalt i value =>
    simp only [gadgetStep] at h
    split_ifs at h
    obtain rfl := Option.some.inj h
    exact (dummySetHalt_sameQueues g i value).running hrun
  | setWedge i =>
    simp only [gadgetStep] at h
    split_ifs at h
    obtain rfl := Option.some.inj h
    exact (dummySetWedge_sameQueues g i).running hrun

/-- Every step but a `dummy_queue` and a poll unlinks. -/
theorem gadgetStep_unlinks {g g' : Gadget} {step : GadgetStep} (h : gadgetStep g step = some g')
    (hqueue : ∀ i n, step ≠ .udc (.queue i n))
    (hpoll : ∀ epAddr seq, step ≠ .udc (.poll epAddr seq)) : Unlinks g.udc g'.udc := by
  cases step with
  | udc step =>
    obtain ⟨dum, hdum, rfl⟩ := Option.map_eq_some_iff.mp h
    exact udc_step_unlinks hdum (fun i n heq => hqueue i n (heq ▸ rfl))
      fun epAddr seq heq => hpoll epAddr seq (heq ▸ rfl)
  | setHalt i value =>
    simp only [gadgetStep] at h
    split_ifs at h
    obtain rfl := Option.some.inj h
    exact (dummySetHalt_sameQueues g i value).unlinks
  | setWedge i =>
    simp only [gadgetStep] at h
    split_ifs at h
    obtain rfl := Option.some.inj h
    exact (dummySetWedge_sameQueues g i).unlinks

end LinuxFunctionTest.DummyUsb
