import LinuxFunctionTest.DummyUsb.Halts

/-!
# The shared FIFO request

`fifo_req` stands in on the queue for a small request that `dummy_queue` has completed already. Runs of the
controller in which it is remembered what the request it stands in for held. The queues leave it alone while it
is linked. A `USB_REQ_GET_STATUS` does not: it answers through the same object, and points it at an array on the
stack of the poll loop.
-/

namespace LinuxFunctionTest.DummyUsb

open Errno

/-- A standard request for the status of the device, which `handle_control_request` answers. -/
def UsbCtrlRequest.AsksStatus (setup : UsbCtrlRequest) : Prop :=
  setup.bRequest = usbReqGetStatus ∧ setup.bRequestType = usbStandardDevice ||| usbDirIn

instance (setup : UsbCtrlRequest) : Decidable setup.AsksStatus := inferInstanceAs (Decidable (_ ∧ _))

/-- The bytes of the request that a step queues behind `fifo_req`, if it does. -/
def absorbedBy (dum : UoeUdc) : HaltStep → Option (List UInt8)
  | .gadget (.udc (.queue i n)) =>
    if absorbs dum (.queue i n) then
      some ((List.range (dum.req (.user n)).length).map (dum.bytesAt (dum.req (.user n)).buf))
    else none
  | _ => none

/-- The controller, and the bytes of the request that `fifo_req` was last queued for. -/
structure FifoWatch where
  gadget : Gadget
  absorbed : List UInt8

/-- The runs of the controller. -/
def fifoMachine : Machine FifoWatch HaltStep where
  step s label := (haltStep s.gadget label).map fun g =>
    ⟨g, (absorbedBy s.gadget.udc label).getD s.absorbed⟩

/-- The controller as it starts. -/
def fifoStart (req : ReqRef → UsbRequest) (userBuf : ℕ → ℕ → UInt8) : FifoWatch :=
  ⟨gadgetStart req userBuf, []⟩

/-- While `fifo_req` is linked it points at `fifo_buf`, has the length of the request it stands in for, and
`fifo_buf` holds the bytes of that request. -/
def FifoKept (s : FifoWatch) : Prop :=
  s.gadget.udc.linked .fifo = true →
    (s.gadget.statusBuf = none ∧ (s.gadget.udc.req .fifo).buf = .fifoBuf) ∧
      (s.gadget.udc.req .fifo).length = s.absorbed.length ∧
      (List.range (s.gadget.udc.req .fifo).length).map s.gadget.udc.fifoBuf = s.absorbed

/-- The host does not ask for the status of the device while `fifo_req` is linked. -/
def NoStatusWhileLinked (s : FifoWatch) : HaltStep → Prop
  | .setup setup => setup.AsksStatus → s.gadget.udc.linked .fifo = false
  | .gadget _ => True
  | .udcStart => True

instance (s : FifoWatch) (label : HaltStep) : Decidable (NoStatusWhileLinked s label) := by
  cases label <;> unfold NoStatusWhileLinked <;> infer_instance

/-- Nothing happened to `fifo_req` and its buffer, but that it was unlinked perhaps. -/
structure FifoSame (dum dum' : UoeUdc) : Prop where
  buf : (dum'.req .fifo).buf = (dum.req .fifo).buf
  length : (dum'.req .fifo).length = (dum.req .fifo).length
  fifoBuf : dum'.fifoBuf = dum.fifoBuf
  linked : dum.linked .fifo = false → dum'.linked .fifo = false

section Queues

variable {dum dum' : UoeUdc}

/-- What is linked after requests were taken off the queues was linked before. -/
theorem Unlinks.linked (h : Unlinks dum dum') (r : ReqRef) (hr : dum.linked r = false) :
    dum'.linked r = false := by
  unfold UoeUdc.linked at hr ⊢
  rw [List.any_eq_false] at hr ⊢
  intro i hi hmem
  apply hr i hi
  rw [List.contains_iff_mem] at hmem ⊢
  exact (h.queue i).subset hmem

/-- Changing no request and no queue. -/
theorem fifoSame_of_eq (hep : dum'.ep = dum.ep) (hreq : dum'.req = dum.req)
    (hbuf : dum'.fifoBuf = dum.fifoBuf) : FifoSame dum dum' := by
  refine ⟨by rw [hreq], by rw [hreq], hbuf, fun h => ?_⟩
  unfold UoeUdc.linked at h ⊢
  rw [hep]
  exact h

/-- Leaving `fifo_req` alone composes. -/
theorem FifoSame.trans {a b c : UoeUdc} (hab : FifoSame a b) (hbc : FifoSame b c) : FifoSame a c where
  buf := hbc.buf.trans hab.buf
  length := hbc.length.trans hab.length
  fifoBuf := hbc.fifoBuf.trans hab.fifoBuf
  linked := fun h => hbc.linked (hab.linked h)

/-- The status and the count of a request are not what `fifo_req` keeps. -/
theorem setReq_fifo (dum : UoeUdc) (r : ReqRef) (req : UsbRequest) (hbuf : req.buf = (dum.req r).buf)
    (hlength : req.length = (dum.req r).length) :
    ((dum.setReq r req).req .fifo).buf = (dum.req .fifo).buf ∧
      ((dum.setReq r req).req .fifo).length = (dum.req .fifo).length := by
  by_cases hr : ReqRef.fifo = r
  · subst hr
    simp only [UoeUdc.setReq, Function.update_self]
    exact ⟨hbuf, hlength⟩
  · simp only [UoeUdc.setReq, Function.update_of_ne hr]
    exact ⟨trivial, trivial⟩

/-- Taking requests off a queue, and setting the result of one. -/
theorem fifoSame_unlink {dum : UoeUdc} {i : ℕ} {queue : List ReqRef}
    (hqueue : queue.Sublist (dum.ep i).queue) (r : ReqRef) (req : UsbRequest)
    (hbuf : req.buf = (dum.req r).buf) (hlength : req.length = (dum.req r).length) (p : Pending) :
    FifoSame dum (((dum.setQueue i queue).setReq r req).drop p) := by
  have hunlinks := unlinks_setEp dum i { dum.ep i with queue := queue } hqueue
  obtain ⟨hb, hl⟩ := setReq_fifo dum r req hbuf hlength
  exact ⟨hb, hl, rfl, fun h => Unlinks.linked hunlinks .fifo h⟩

/-- A pass of `nuke` leaves `fifo_req` alone. -/
theorem nukeStep_fifoSame {i : ℕ} {after : After} (h : nukeStep dum i after = some dum') :
    FifoSame dum dum' := by
  obtain ⟨r, rest, hqueue, rfl⟩ := nukeStep_cases h
  exact fifoSame_unlink (hqueue ▸ List.sublist_cons_self r rest) r
    { dum.req r with status := -eshutdown } rfl rfl ⟨r, false, after, false⟩

/-- `nuke` leaves `fifo_req` alone. -/
theorem nuke_fifoSame (dum : UoeUdc) (i : ℕ) : FifoSame dum (nuke dum i) := by
  obtain ⟨-, hsame⟩ | hpass := nuke_cases dum i
  · rw [hsame]
    exact fifoSame_of_eq rfl rfl rfl
  · exact nukeStep_fifoSame hpass

/-- `stop_activity` leaves `fifo_req` alone. -/
theorem stopActivity_fifoSame (dum : UoeUdc) (count : ℕ) : FifoSame dum (stopActivity dum count) := by
  obtain ⟨i, -, -, -, hpass⟩ | ⟨-, heq⟩ := stopActivity_cases dum count
  · exact nukeStep_fifoSame hpass
  · rw [heq]
    exact fifoSame_of_eq rfl rfl rfl

/-- A poll leaves `fifo_req` alone. -/
theorem uoeUdcPoll_fifoSame (dum : UoeUdc) (epAddr : UInt8) (seq : UInt16) :
    FifoSame dum (uoeUdcPoll dum epAddr seq) := by
  obtain ⟨reply, heq⟩ | ⟨i, r, rest, reply, -, hqueue, heq⟩ := uoeUdcPoll_cases dum epAddr seq
  · rw [heq]
    exact fifoSame_of_eq rfl rfl rfl
  · rw [heq]
    have hunlinks := unlinks_setEp dum i { dum.ep i with queue := rest }
      (hqueue ▸ List.sublist_cons_self r rest)
    exact ⟨rfl, rfl, rfl, fun h => Unlinks.linked hunlinks .fifo h⟩

/-- The giveback of a request sets its result at most. -/
theorem giveback_fifoSame (dum : UoeUdc) (p : Pending) : FifoSame dum (giveback dum p) := by
  unfold giveback
  split_ifs
  · obtain ⟨hbuf, hlength⟩ := setReq_fifo dum p.req
      { dum.req p.req with actual := (dum.req p.req).length, status := 0 } rfl rfl
    exact ⟨hbuf, hlength, rfl, id⟩
  · exact fifoSame_of_eq rfl rfl rfl

/-- The first `length` bytes of the buffer of a request. -/
def UoeUdc.bytesOf (dum : UoeUdc) (n : ℕ) : List UInt8 :=
  (List.range (dum.req (.user n)).length).map (dum.bytesAt (dum.req (.user n)).buf)

/-- A request that has passed the checks of `dummy_queue`. -/
def UoeUdc.accept (dum : UoeUdc) (n : ℕ) : UoeUdc :=
  { dum.setReq (.user n) { dum.req (.user n) with status := -einprogress, actual := 0 } with
    accepted := (n, dum.bytesOf n) :: dum.accepted }

/-- `fifo_req` as it stands in for a request that was accepted. -/
def UoeUdc.standIn (dum : UoeUdc) (n : ℕ) : UoeUdc :=
  { (dum.accept n).setReq .fifo { dum.req (.user n) with
      status := -einprogress, actual := 0, buf := .fifoBuf, complete := true } with
    fifoBuf := fun j => (dum.bytesOf n).getD j (dum.fifoBuf j) }

/-- `dummy_queue` refuses the request, or takes the fast path, or links it. -/
theorem dummyQueue_forms (dum : UoeUdc) (i n : ℕ) :
    ((dummyQueue dum i n).2 ≠ 0 ∧ (dummyQueue dum i n).1 = dum) ∨
    (FastPath dum i n ∧ dummyQueue dum i n =
      (((dum.standIn n).setQueue i ((dum.ep i).queue ++ [.fifo])).drop ⟨.user n, true, .finish, false⟩,
        0)) ∨
    (¬ FastPath dum i n ∧ dummyQueue dum i n =
      ((dum.accept n).setQueue i ((dum.ep i).queue ++ [.user n]), 0)) := by
  unfold dummyQueue
  simp only
  split_ifs with hrefused hdesc hdriver hfast
  · exact .inl ⟨by simp [einval], rfl⟩
  · exact .inl ⟨by simp [einval], rfl⟩
  · exact .inr (.inl ⟨hfast, rfl⟩)
  · exact .inr (.inr ⟨hfast, rfl⟩)
  · exact .inl ⟨by simp [eshutdown], rfl⟩

/-- A `dummy_queue` that does not take the fast path leaves `fifo_req` alone. -/
theorem dummyQueue_fifoSame {i n : ℕ} (h : absorbs dum (.queue i n) = false) :
    FifoSame dum (dummyQueue dum i n).1 := by
  obtain ⟨-, hsame⟩ | ⟨hfast, heq⟩ | ⟨-, heq⟩ := dummyQueue_forms dum i n
  · rw [hsame]
    exact fifoSame_of_eq rfl rfl rfl
  · simp [absorbs, hfast, heq] at h
  · rw [heq]
    obtain ⟨hbuf, hlength⟩ := setReq_fifo dum (.user n)
      { dum.req (.user n) with status := -einprogress, actual := 0 } rfl rfl
    refine ⟨hbuf, hlength, rfl, fun hlinked => ?_⟩
    unfold UoeUdc.linked at hlinked ⊢
    rw [List.any_eq_false] at hlinked ⊢
    intro j hj hmem
    apply hlinked j hj
    rw [List.contains_iff_mem] at hmem ⊢
    by_cases hji : j = i
    · subst hji
      simpa [UoeUdc.setQueue, UoeUdc.setEp] using hmem
    · simpa [UoeUdc.setQueue, UoeUdc.setEp, UoeUdc.accept, UoeUdc.setReq, hji] using hmem

/-- Only the fast path of `dummy_queue` touches `fifo_req` and its buffer. -/
theorem udc_step_fifoSame {step : UdcStep} (h : udcMachine.step dum step = some dum')
    (hstep : absorbs dum step = false) : FifoSame dum dum' := by
  cases step with
  | prepare n length complete bytes =>
    obtain ⟨-, rfl⟩ := udcMachine_step h
    refine ⟨?_, ?_, rfl, id⟩ <;> simp [prepare, UoeUdc.setReq]
  | enable i epAddr =>
    obtain ⟨-, rfl⟩ := udcMachine_step h
    obtain hsame | heq := dummyEnable_cases dum i epAddr
    · rw [hsame]
      exact fifoSame_of_eq rfl rfl rfl
    · rw [heq]
      have hunlinks := unlinks_setEp dum i
        { dum.ep i with desc := some epAddr, halted := false, wedged := false } (List.Sublist.refl _)
      exact ⟨rfl, rfl, rfl, fun h => hunlinks.linked .fifo h⟩
  | queue i n =>
    obtain ⟨-, rfl⟩ := udcMachine_step h
    exact dummyQueue_fifoSame hstep
  | dequeue i n =>
    obtain ⟨-, rfl⟩ := udcMachine_step h
    obtain hsame | ⟨-, heq⟩ := dummyDequeue_cases dum i n
    · rw [hsame]
      exact fifoSame_of_eq rfl rfl rfl
    · rw [heq]
      exact fifoSame_unlink List.erase_sublist (.user n)
        { dum.req (.user n) with status := -econnreset } rfl rfl ⟨.user n, false, .finish, false⟩
  | disable i =>
    obtain ⟨-, rfl⟩ := udcMachine_step h
    obtain hsame | heq := dummyDisable_cases dum i
    · rw [hsame]
      exact fifoSame_of_eq rfl rfl rfl
    · rw [heq]
      have hunlinks := unlinks_setEp dum i { dum.ep i with desc := none } (List.Sublist.refl _)
      have hdesc : FifoSame dum (dum.setEp i { dum.ep i with desc := none }) :=
        ⟨rfl, rfl, rfl, fun h => hunlinks.linked .fifo h⟩
      exact hdesc.trans (nuke_fifoSame _ i)
  | udcStop =>
    obtain rfl := Option.some.inj h
    have hfirst : FifoSame dum { dum with intsEnabled := false, address := 0 } :=
      fifoSame_of_eq rfl rfl rfl
    exact hfirst.trans (stopActivity_fifoSame _ dummyEndpoints)
  | poll epAddr seq =>
    obtain rfl := Option.some.inj h
    exact uoeUdcPoll_fifoSame dum epAddr seq
  | giveback k =>
    obtain ⟨p, -, -, rfl⟩ := udcMachine_step h
    have hfirst : FifoSame dum { dum with pending := dum.pending.set k { p with given := true } } :=
      fifoSame_of_eq rfl rfl rfl
    exact hfirst.trans (giveback_fifoSame _ p)
  | resume k =>
    obtain ⟨p, -, -, rfl⟩ := udcMachine_step h
    have hfirst : FifoSame dum { dum with pending := dum.pending.eraseIdx k } :=
      fifoSame_of_eq rfl rfl rfl
    cases p.after with
    | finish => exact hfirst
    | nuke i => exact hfirst.trans (nuke_fifoSame _ i)
    | stop i => exact hfirst.trans (stopActivity_fifoSame _ (dummyEndpoints - i))

end Queues

section Runs

/-- A control request leaves `fifo_req` alone unless it asks for the status of the device. -/
theorem handleControlRequest_fifoSame (g : Gadget) {setup : UsbCtrlRequest} (h : ¬ setup.AsksStatus) :
    FifoSame g.udc (handleControlRequest g setup).1.udc ∧
      (handleControlRequest g setup).1.statusBuf = g.statusBuf := by
  have hrefl : FifoSame g.udc g.udc := fifoSame_of_eq rfl rfl rfl
  have hhalted : ∀ i halted, FifoSame g.udc (g.setHalted i halted).udc := by
    intro i halted
    have hunlinks := unlinks_setEp g.udc i { g.udc.ep i with halted := halted } (List.Sublist.refl _)
    exact ⟨rfl, rfl, rfl, fun h => hunlinks.linked .fifo h⟩
  simp only [handleControlRequest, setFeature, clearFeature]
  split_ifs with _ _ _ _ _ _ _ _ _ _ hget htype
  · exact ⟨fifoSame_of_eq rfl rfl rfl, rfl⟩
  · exact ⟨hrefl, rfl⟩
  · exact ⟨hrefl, rfl⟩
  · exact ⟨hrefl, rfl⟩
  · split
    · exact ⟨hhalted _ _, rfl⟩
    · exact ⟨hrefl, rfl⟩
  · exact ⟨hrefl, rfl⟩
  · exact ⟨hrefl, rfl⟩
  · exact ⟨hrefl, rfl⟩
  · split
    · simp only
      split_ifs
      · exact ⟨hrefl, rfl⟩
      · exact ⟨hhalted _ _, rfl⟩
    · exact ⟨hrefl, rfl⟩
  · exact ⟨hrefl, rfl⟩
  · exact absurd ⟨hget, htype⟩ h
  · exact ⟨hrefl, rfl⟩
  · exact ⟨hrefl, rfl⟩

/-- The status of the device is offered through `fifo_req`. -/
theorem handleControlRequest_status (g : Gadget) {setup : UsbCtrlRequest} (h : setup.AsksStatus) :
    (handleControlRequest g setup).1 = g.offerStatus := by
  obtain ⟨hrequest, htype⟩ := h
  unfold handleControlRequest
  rw [hrequest, htype]
  rfl

/-- Halting an endpoint leaves `fifo_req` alone. -/
theorem dummySetHalt_fifoSame (g : Gadget) (i : ℕ) (value : ℤ) :
    FifoSame g.udc (dummySetHalt g i value).1.udc ∧
      (dummySetHalt g i value).1.statusBuf = g.statusBuf := by
  have hrefl : FifoSame g.udc g.udc := fifoSame_of_eq rfl rfl rfl
  have hflags : ∀ halted wedged,
      FifoSame g.udc (g.udc.setEp i { g.udc.ep i with halted := halted, wedged := wedged }) := by
    intro halted wedged
    have hunlinks := unlinks_setEp g.udc i { g.udc.ep i with halted := halted, wedged := wedged }
      (List.Sublist.refl _)
    exact ⟨rfl, rfl, rfl, fun h => hunlinks.linked .fifo h⟩
  simp only [dummySetHalt]
  split_ifs
  · exact ⟨hflags false false, rfl⟩
  · exact ⟨hrefl, rfl⟩
  · exact ⟨hflags true (value == 2 || (g.udc.ep i).wedged), rfl⟩
  · exact ⟨hrefl, rfl⟩

/-- A step that takes no fast path and asks for no status leaves `fifo_req` and what is remembered of it. -/
theorem haltStep_fifoSame {g g' : Gadget} {label : HaltStep} (h : haltStep g label = some g')
    (hqueue : absorbedBy g.udc label = none) (hsetup : ∀ setup, label = .setup setup → ¬ setup.AsksStatus) :
    FifoSame g.udc g'.udc ∧ g'.statusBuf = g.statusBuf := by
  cases label with
  | udcStart =>
    obtain rfl := Option.some.inj h
    exact ⟨fifoSame_of_eq rfl rfl rfl, rfl⟩
  | setup setup =>
    obtain rfl := Option.some.inj h
    exact handleControlRequest_fifoSame g (hsetup setup rfl)
  | gadget step =>
    cases step with
    | setHalt i value =>
      obtain ⟨-, h⟩ := Option.ite_none_right_eq_some.mp h
      obtain rfl := Option.some.inj h
      exact dummySetHalt_fifoSame g i value
    | setWedge i =>
      obtain ⟨-, h⟩ := Option.ite_none_right_eq_some.mp h
      obtain rfl := Option.some.inj h
      unfold dummySetWedge
      split_ifs
      · exact ⟨fifoSame_of_eq rfl rfl rfl, rfl⟩
      · exact dummySetHalt_fifoSame g i 1
    | udc step =>
      obtain ⟨dum, hdum, rfl⟩ := Option.map_eq_some_iff.mp h
      have hslow : absorbs g.udc step = false := by
        cases step with
        | queue i n =>
          by_contra habsorbs
          rw [Bool.not_eq_false] at habsorbs
          simp [absorbedBy, habsorbs] at hqueue
        | prepare | enable | dequeue | disable | udcStop | poll | giveback | resume => rfl
      refine ⟨udc_step_fifoSame hdum hslow, ?_⟩
      simp [Gadget.afterUdc, hslow]

/-- What `dummy_queue` puts behind `fifo_req`: its bytes are in `fifo_buf`. -/
theorem haltStep_absorbs {g g' : Gadget} {label : HaltStep} {bytes : List UInt8}
    (h : haltStep g label = some g') (hqueue : absorbedBy g.udc label = some bytes) :
    (g'.statusBuf = none ∧ (g'.udc.req .fifo).buf = .fifoBuf) ∧
      (g'.udc.req .fifo).length = bytes.length ∧
      (List.range (g'.udc.req .fifo).length).map g'.udc.fifoBuf = bytes := by
  cases label with
  | udcStart => simp [absorbedBy] at hqueue
  | setup setup => simp [absorbedBy] at hqueue
  | gadget step =>
    cases step with
    | setHalt i value => simp [absorbedBy] at hqueue
    | setWedge i => simp [absorbedBy] at hqueue
    | udc step =>
      cases step with
      | queue i n =>
        obtain ⟨dum, hdum, rfl⟩ := Option.map_eq_some_iff.mp h
        obtain ⟨-, rfl⟩ := udcMachine_step hdum
        obtain ⟨habsorbs, hbytes⟩ := Option.ite_none_right_eq_some.mp hqueue
        obtain rfl := Option.some.inj hbytes
        have hforms := dummyQueue_forms g.udc i n
        have hfast : FastPath g.udc i n ∧ (dummyQueue g.udc i n).2 = 0 := by
          simpa [absorbs] using habsorbs
        obtain ⟨hrefused, -⟩ | ⟨-, heq⟩ | ⟨hslow, -⟩ := hforms
        · exact absurd hfast.2 hrefused
        · have hstand : (dummyQueue g.udc i n).1.req .fifo = (g.udc.standIn n).req .fifo := by
            rw [heq]
            rfl
          have hbuf : (dummyQueue g.udc i n).1.fifoBuf = (g.udc.standIn n).fifoBuf := by
            rw [heq]
            rfl
          have hlength : ((g.udc.standIn n).req .fifo).length = (g.udc.req (.user n)).length := by
            simp [UoeUdc.standIn, UoeUdc.setReq]
          simp only [Gadget.afterUdc, habsorbs, if_true, hstand, hbuf, hlength]
          refine ⟨⟨trivial, by simp [UoeUdc.standIn, UoeUdc.setReq]⟩, by simp, ?_⟩
          apply List.map_congr_left
          intro j hj
          simp [UoeUdc.standIn, UoeUdc.bytesOf, List.mem_range.mp hj]
        · exact absurd hfast.1 hslow
      | prepare | enable | dequeue | disable | udcStop | poll | giveback | resume =>
        simp [absorbedBy] at hqueue

/-- A step that does not ask for the status while `fifo_req` is linked keeps its contents. -/
theorem fifoMachine_step_kept {s t : FifoWatch} {label : HaltStep} (hs : FifoKept s)
    (h : fifoMachine.step s label = some t) (hguard : NoStatusWhileLinked s label) : FifoKept t := by
  obtain ⟨g, hg, rfl⟩ := Option.map_eq_some_iff.mp h
  cases hqueue : absorbedBy s.gadget.udc label with
  | some bytes => exact fun _ => haltStep_absorbs hg hqueue
  | none =>
    by_cases hsetup : ∃ setup, label = .setup setup ∧ setup.AsksStatus
    · -- answering a status request writes an object that no queue holds
      obtain ⟨setup, rfl, hasks⟩ := hsetup
      obtain rfl := Option.some.inj hg
      intro hlinked
      rw [handleControlRequest_status s.gadget hasks] at hlinked
      exact absurd (hguard hasks) (by rw [show s.gadget.udc.linked .fifo = true from hlinked]; simp)
    · obtain ⟨hsame, hstatus⟩ := haltStep_fifoSame hg hqueue fun setup hlabel hasks =>
        hsetup ⟨setup, hlabel, hasks⟩
      intro hlinked
      have hbefore : s.gadget.udc.linked .fifo = true := by
        by_contra hno
        rw [Bool.not_eq_true] at hno
        exact absurd (hsame.linked hno) (by rw [show g.udc.linked .fifo = true from hlinked]; simp)
      obtain ⟨⟨hbufs, hbuf⟩, hlength, hbytes⟩ := hs hbefore
      refine ⟨⟨hstatus.trans hbufs, hsame.buf.trans hbuf⟩, hsame.length.trans hlength, ?_⟩
      rw [hsame.length, hsame.fifoBuf]
      exact hbytes

/-- The status of the device, asked for while `fifo_req` is linked, takes the place of its contents. -/
theorem fifoMachine_step_broken {s t : FifoWatch} {label : HaltStep}
    (h : fifoMachine.step s label = some t) (hguard : ¬ NoStatusWhileLinked s label) : ¬ FifoKept t := by
  obtain ⟨g, hg, rfl⟩ := Option.map_eq_some_iff.mp h
  cases label with
  | gadget step => exact absurd trivial hguard
  | udcStart => exact absurd trivial hguard
  | setup setup =>
    obtain rfl := Option.some.inj hg
    obtain ⟨hasks, hlinked⟩ := Classical.not_imp.mp hguard
    intro hkept
    unfold FifoKept at hkept
    simp only [handleControlRequest_status s.gadget hasks] at hkept
    have hstill : s.gadget.offerStatus.udc.linked .fifo = s.gadget.udc.linked .fifo := rfl
    have hstatus := (hkept (hstill.trans (by simpa using hlinked))).1.1
    simp [Gadget.offerStatus] at hstatus

/-- `fifo_req` keeps the contents of the request it stands in for in every state of a run exactly when the
host never asks for the status of the device while it is linked. -/
theorem fifoKept_iff_noStatusWhileLinked (req : ReqRef → UsbRequest) (userBuf : ℕ → ℕ → UInt8)
    (labels : List HaltStep) :
    fifoMachine.Always FifoKept (fifoStart req userBuf) labels ↔
      fifoMachine.Guarded NoStatusWhileLinked (fifoStart req userBuf) labels := by
  apply fifoMachine.always_iff_guarded (fun _ h => h)
    (fun _ _ _ hs h hguard => fifoMachine_step_kept hs h hguard)
    (fun _ _ _ _ h hguard => fifoMachine_step_broken h hguard)
  intro hlinked
  have hempty : (fifoStart req userBuf).gadget.udc.linked .fifo = false := rfl
  exact absurd (hempty.symm.trans hlinked) (by simp)

/-- A request of three bytes queued on an IN endpoint, and a status request before the host has polled
for it. -/
theorem fifoKept_broken :
    ¬ ∀ (req : ReqRef → UsbRequest) (userBuf : ℕ → ℕ → UInt8) (labels : List HaltStep),
      fifoMachine.Always FifoKept (fifoStart req userBuf) labels := by
  intro h
  have hrun := h (fun _ => ⟨.user 1, 3, 0, 0, true⟩) (fun _ _ => 0x41)
    [.gadget (.udc (.enable 1 0x81)), .gadget (.udc (.queue 1 1)),
      .setup ⟨0x80, usbReqGetStatus, 0, 0, 2⟩]
  have hkept := hrun.of_reached fifoMachine (List.prefix_refl _) rfl
  have hstatus := (hkept (by decide)).1.1
  exact absurd hstatus (by decide)

end Runs

end LinuxFunctionTest.DummyUsb
