import LinuxFunctionTest.DummyUsb.Transport
import LinuxFunctionTest.Library.Machine
import Mathlib.Logic.Function.Basic

/-!
# The USB device controller

`udc.c`: the endpoint queues, the requests linked on them, and the functions that link requests and
give them back. Each function runs under the lock of the controller and drops it around the
completion handler of a request. What is left of a call after such a point is an entry of
`pending`: the request it has still to give back, and how it goes on once it has the lock again.
A handler that queues requests is a step of the same machine as every other caller.

Requests of gadget drivers are numbered. The controller has one request of its own, `fifo_req`.
-/

namespace LinuxFunctionTest.DummyUsb

open Errno

/-- `FIFO_SIZE`. -/
def fifoSize : ℕ := 64

/-- `DUMMY_ENDPOINTS`. -/
def dummyEndpoints : ℕ := 14

/-- `USB_DIR_IN`. -/
def usbDirIn : UInt8 := 0x80

/-- A request: the controller's own, or one that a gadget driver allocated. -/
inductive ReqRef where
  | fifo
  | user (n : ℕ)
  deriving DecidableEq

/-- The buffer a request points to. -/
inductive BufRef where
  | fifoBuf
  | user (n : ℕ)
  deriving DecidableEq

/-- The fields of `struct usb_request` that the controller uses; `complete` says that there is a
completion handler. -/
structure UsbRequest where
  buf : BufRef
  length : ℕ
  actual : ℕ
  status : ℤ
  complete : Bool
  deriving DecidableEq

/-- `struct uoe_ep`; `desc` is the endpoint address of the descriptor, if any. -/
structure UoeEp where
  desc : Option UInt8
  halted : Bool
  wedged : Bool
  queue : List ReqRef
  deriving DecidableEq

/-- How a call goes on after it gave a request back: it only returns, or it goes on emptying the
queue of an endpoint, for `dummy_disable` or for `stop_activity`. -/
inductive After where
  | finish
  | nuke (i : ℕ)
  | stop (i : ℕ)
  deriving DecidableEq

/-- A call between dropping the lock and its end. `fast` marks the fast path of `dummy_queue`, which
sets the result of the request without the lock; `given` tells whether the request was given
back already. -/
structure Pending where
  req : ReqRef
  fast : Bool
  after : After
  given : Bool
  deriving DecidableEq

/-- A completed request as its handler sees it. -/
structure Giveback where
  req : ReqRef
  length : ℕ
  actual : ℕ
  status : ℤ
  deriving DecidableEq

/-- A reply to a poll. -/
inductive Reply where
  | data (epAddr : UInt8) (seq : UInt16) (payload : List UInt8)
  | nak (epAddr : UInt8) (seq : UInt16)
  | stall (epAddr : UInt8) (seq : UInt16)
  deriving DecidableEq

/-- The fields of `struct uoe_udc` that these functions use, with the requests, the buffers of the
gadget drivers and the calls under way. Observed, newest first: the accepted requests with the
first `length` bytes of their buffers, the requests given back, and the replies sent. -/
structure UoeUdc where
  ep : ℕ → UoeEp
  address : ℕ
  driver : Bool
  intsEnabled : Bool
  req : ReqRef → UsbRequest
  fifoBuf : ℕ → UInt8
  userBuf : ℕ → ℕ → UInt8
  pending : List Pending
  accepted : List (ℕ × List UInt8)
  givenBack : List Giveback
  sent : List Reply

namespace UoeUdc

/-- The request is linked on some endpoint queue: its list head is not empty. -/
def linked (dum : UoeUdc) (r : ReqRef) : Bool :=
  (List.range dummyEndpoints).any fun i => (dum.ep i).queue.contains r

/-- Replace an endpoint. -/
def setEp (dum : UoeUdc) (i : ℕ) (ep : UoeEp) : UoeUdc :=
  { dum with ep := Function.update dum.ep i ep }

/-- Replace the queue of an endpoint. -/
def setQueue (dum : UoeUdc) (i : ℕ) (queue : List ReqRef) : UoeUdc :=
  dum.setEp i { dum.ep i with queue := queue }

/-- Replace a request. -/
def setReq (dum : UoeUdc) (r : ReqRef) (req : UsbRequest) : UoeUdc :=
  { dum with req := Function.update dum.req r req }

/-- The bytes behind a buffer pointer. -/
def bytesAt (dum : UoeUdc) : BufRef → ℕ → UInt8
  | .fifoBuf => dum.fifoBuf
  | .user n => dum.userBuf n

/-- Drop the lock with a request to give back. -/
def drop (dum : UoeUdc) (p : Pending) : UoeUdc := { dum with pending := p :: dum.pending }

/-- Send a reply. -/
def reply (dum : UoeUdc) (r : Reply) : UoeUdc := { dum with sent := r :: dum.sent }

end UoeUdc

/-- One pass of the loop of `nuke`: unlink the first request and drop the lock to give it back. The
queue is empty when there is none. -/
def nukeStep (dum : UoeUdc) (i : ℕ) (after : After) : Option UoeUdc :=
  match (dum.ep i).queue with
  | [] => none
  | r :: rest =>
    let dum := dum.setQueue i rest
    let dum := dum.setReq r { dum.req r with status := -eshutdown }
    some (dum.drop ⟨r, false, after, false⟩)

/-- `nuke` under the lock, up to the next point where it drops it. -/
def nuke (dum : UoeUdc) (i : ℕ) : UoeUdc := (nukeStep dum i (.nuke i)).getD dum

/-- `stop_activity` with `count` endpoints left, up to the next point where it drops the lock, and
then the end of `dummy_udc_stop`. -/
def stopActivity (dum : UoeUdc) : ℕ → UoeUdc
  | 0 => { dum with driver := false }
  | count + 1 =>
    let i := dummyEndpoints - (count + 1)
    match nukeStep dum i (.stop i) with
    | some dum => dum
    | none => stopActivity dum count

/-- `dummy_enable` once its checks have passed. -/
def dummyEnable (dum : UoeUdc) (i : ℕ) (epAddr : UInt8) : UoeUdc × ℤ :=
  if (dum.ep i).desc.isSome ∨ i = 0 then (dum, -einval)
  else if ¬ dum.driver then (dum, -eshutdown)
  else
    (dum.setEp i { dum.ep i with desc := some epAddr, halted := false, wedged := false }, 0)

/-- `dummy_disable` up to the first point where it drops the lock. -/
def dummyDisable (dum : UoeUdc) (i : ℕ) : UoeUdc × ℤ :=
  if (dum.ep i).desc.isNone ∨ i = 0 then (dum, -einval)
  else (nuke (dum.setEp i { dum.ep i with desc := none }) i, 0)

/-- The condition of the fast path of `dummy_queue`. -/
def FastPath (dum : UoeUdc) (i n : ℕ) : Prop :=
  ((dum.ep i).desc.any fun epAddr => epAddr &&& usbDirIn != 0) = true ∧
    dum.linked .fifo = false ∧ (dum.ep i).queue = [] ∧ (dum.req (.user n)).length ≤ fifoSize

instance (dum : UoeUdc) (i n : ℕ) : Decidable (FastPath dum i n) := by
  unfold FastPath
  infer_instance

/-- `dummy_queue` for request `n` on endpoint `i`, up to the point where it drops the lock. -/
def dummyQueue (dum : UoeUdc) (i n : ℕ) : UoeUdc × ℤ :=
  let req := dum.req (.user n)
  if dum.linked (.user n) ∨ ¬ req.complete then (dum, -einval)
  else if (dum.ep i).desc.isNone ∧ i ≠ 0 then (dum, -einval)
  else if ¬ dum.driver then (dum, -eshutdown)
  else
    let req := { req with status := -einprogress, actual := 0 }
    let bytes := (List.range req.length).map (dum.bytesAt req.buf)
    let fast := FastPath dum i n
    let dum := dum.setReq (.user n) req
    let dum := { dum with accepted := (n, bytes) :: dum.accepted }
    if fast then
      let dum := dum.setReq .fifo { req with buf := .fifoBuf, complete := true }
      let dum := { dum with fifoBuf := fun j => bytes.getD j (dum.fifoBuf j) }
      let dum := dum.setQueue i ((dum.ep i).queue ++ [.fifo])
      (dum.drop ⟨.user n, true, .finish, false⟩, 0)
    else (dum.setQueue i ((dum.ep i).queue ++ [.user n]), 0)

/-- `dummy_dequeue` for request `n` on endpoint `i`, up to the point where it drops the lock. -/
def dummyDequeue (dum : UoeUdc) (i n : ℕ) : UoeUdc × ℤ :=
  if ¬ dum.driver then (dum, -eshutdown)
  else if .user n ∈ (dum.ep i).queue then
    let dum := dum.setQueue i ((dum.ep i).queue.erase (.user n))
    let dum := dum.setReq (.user n) { dum.req (.user n) with status := -econnreset }
    (dum.drop ⟨.user n, false, .finish, false⟩, 0)
  else (dum, -einval)

/-- `dummy_udc_stop` up to the first point where it drops the lock. -/
def dummyUdcStop (dum : UoeUdc) : UoeUdc :=
  stopActivity { dum with intsEnabled := false, address := 0 } dummyEndpoints

/-- The endpoint a poll addresses: the first with a descriptor of that address, or endpoint 0. -/
def polledEp (dum : UoeUdc) (epAddr : UInt8) : Option ℕ :=
  match (List.range dummyEndpoints).find? fun i => (dum.ep i).desc = some epAddr with
  | some i => some i
  | none => if epAddr = 0 then some 0 else none

/-- `uoe_udc_poll_loop` on a poll, up to the point where it drops the lock. Both kinds of poll are
handled alike. -/
def uoeUdcPoll (dum : UoeUdc) (epAddr : UInt8) (seq : UInt16) : UoeUdc :=
  match polledEp dum epAddr with
  | none => dum.reply (.nak epAddr seq)
  | some i =>
    match (dum.ep i).queue with
    | r :: rest =>
      let dum := dum.setQueue i rest
      let req := dum.req r
      let dum := dum.reply (.data epAddr seq ((List.range req.actual).map (dum.bytesAt req.buf)))
      dum.drop ⟨r, false, .finish, false⟩
    | [] => dum.reply (if (dum.ep i).halted then .stall epAddr seq else .nak epAddr seq)

/-- The giveback of a pending call, with what the fast path sets before it. -/
def giveback (dum : UoeUdc) (p : Pending) : UoeUdc :=
  let dum :=
    if p.fast then
      dum.setReq p.req { dum.req p.req with actual := (dum.req p.req).length, status := 0 }
    else dum
  let req := dum.req p.req
  { dum with givenBack := ⟨p.req, req.length, req.actual, req.status⟩ :: dum.givenBack }

/-- A call that was given its request back takes the lock and goes on. -/
def resume (dum : UoeUdc) : After → UoeUdc
  | .finish => dum
  | .nuke i => nuke dum i
  | .stop i => stopActivity dum (dummyEndpoints - i)

/-- A step of the controller: a call by a gadget driver, a poll, a giveback by a call under way, or
the end of one. A gadget driver fills in a request only while it owns it. -/
inductive UdcStep where
  | prepare (n length : ℕ) (complete : Bool) (bytes : ℕ → UInt8)
  | enable (i : ℕ) (epAddr : UInt8)
  | queue (i n : ℕ)
  | dequeue (i n : ℕ)
  | disable (i : ℕ)
  | udcStop
  | poll (epAddr : UInt8) (seq : UInt16)
  | giveback (k : ℕ)
  | resume (k : ℕ)

/-- The gadget driver owns the request: it is neither linked nor about to be given back. -/
def Owned (dum : UoeUdc) (n : ℕ) : Prop :=
  dum.linked (.user n) = false ∧ ∀ p ∈ dum.pending, p.given = false → p.req ≠ .user n

instance (dum : UoeUdc) (n : ℕ) : Decidable (Owned dum n) := by unfold Owned; infer_instance

/-- Write request `n` and its buffer. -/
def prepare (dum : UoeUdc) (n length : ℕ) (complete : Bool) (bytes : ℕ → UInt8) : UoeUdc :=
  let req := { dum.req (.user n) with buf := .user n, length := length, complete := complete }
  { dum.setReq (.user n) req with userBuf := Function.update dum.userBuf n bytes }

/-- The runs of the controller. -/
def udcMachine : Machine UoeUdc UdcStep where
  step dum label := match label with
    | .prepare n length complete bytes =>
      if Owned dum n then some (prepare dum n length complete bytes) else none
    | .enable i epAddr => if i < dummyEndpoints then some (dummyEnable dum i epAddr).1 else none
    | .queue i n => if i < dummyEndpoints then some (dummyQueue dum i n).1 else none
    | .dequeue i n => if i < dummyEndpoints then some (dummyDequeue dum i n).1 else none
    | .disable i => if i < dummyEndpoints then some (dummyDisable dum i).1 else none
    | .udcStop => some (dummyUdcStop dum)
    | .poll epAddr seq => some (uoeUdcPoll dum epAddr seq)
    | .giveback k =>
      match dum.pending[k]? with
      | some p =>
        if p.given then none
        else some (giveback { dum with pending := dum.pending.set k { p with given := true } } p)
      | none => none
    | .resume k =>
      match dum.pending[k]? with
      | some p =>
        if p.given then some (resume { dum with pending := dum.pending.eraseIdx k } p.after)
        else none
      | none => none

/-- What a step needs and what it does. -/
theorem udcMachine_step {dum dum' : UoeUdc} {step : UdcStep} (h : udcMachine.step dum step = some dum') :
    match step with
    | .prepare n length complete bytes => Owned dum n ∧ dum' = prepare dum n length complete bytes
    | .enable i epAddr => i < dummyEndpoints ∧ dum' = (dummyEnable dum i epAddr).1
    | .queue i n => i < dummyEndpoints ∧ dum' = (dummyQueue dum i n).1
    | .dequeue i n => i < dummyEndpoints ∧ dum' = (dummyDequeue dum i n).1
    | .disable i => i < dummyEndpoints ∧ dum' = (dummyDisable dum i).1
    | .udcStop => dum' = dummyUdcStop dum
    | .poll epAddr seq => dum' = uoeUdcPoll dum epAddr seq
    | .giveback k => ∃ p, dum.pending[k]? = some p ∧ p.given = false ∧
        dum' = giveback { dum with pending := dum.pending.set k { p with given := true } } p
    | .resume k => ∃ p, dum.pending[k]? = some p ∧ p.given = true ∧
        dum' = resume { dum with pending := dum.pending.eraseIdx k } p.after := by
  cases step with
  | prepare | enable | queue | dequeue | disable =>
    simp only [udcMachine, Option.ite_none_right_eq_some, Option.some.injEq] at h
    exact ⟨h.1, h.2.symm⟩
  | udcStop | poll => exact (Option.some.inj h).symm
  | giveback k =>
    simp only [udcMachine] at h
    split at h
    · next p hp =>
      simp only [Option.ite_none_left_eq_some, Option.some.injEq] at h
      exact ⟨p, hp, by simpa using h.1, h.2.symm⟩
    · exact absurd h (by simp)
  | resume k =>
    simp only [udcMachine] at h
    split at h
    · next p hp =>
      simp only [Option.ite_none_right_eq_some, Option.some.injEq] at h
      exact ⟨p, hp, h.1, h.2.symm⟩
    · exact absurd h (by simp)

/-- The controller as `init_dummy_udc_hw` leaves it, with a driver bound by `dummy_udc_start`. -/
def udcStart (req : ReqRef → UsbRequest) (userBuf : ℕ → ℕ → UInt8) : UoeUdc where
  ep := fun _ => ⟨none, false, false, []⟩
  address := 0
  driver := true
  intsEnabled := true
  req := req
  fifoBuf := fun _ => 0
  userBuf := userBuf
  pending := []
  accepted := []
  givenBack := []
  sent := []

/-- A pass of `nuke` unlinks the first request and leaves a call that has to give it back. -/
theorem nukeStep_cases {dum dum' : UoeUdc} {i : ℕ} {after : After}
    (h : nukeStep dum i after = some dum') :
    ∃ r rest, (dum.ep i).queue = r :: rest ∧
      dum' = ((dum.setQueue i rest).setReq r { dum.req r with status := -eshutdown }).drop
        ⟨r, false, after, false⟩ := by
  unfold nukeStep at h
  cases hqueue : (dum.ep i).queue with
  | nil => simp [hqueue] at h
  | cons r rest =>
    simp only [hqueue, Option.some.injEq] at h
    exact ⟨r, rest, rfl, h.symm⟩

/-- `nuke` makes a pass, or finds the queue empty. -/
theorem nuke_cases (dum : UoeUdc) (i : ℕ) :
    ((dum.ep i).queue = [] ∧ nuke dum i = dum) ∨ nukeStep dum i (.nuke i) = some (nuke dum i) := by
  cases hqueue : (dum.ep i).queue with
  | nil => exact .inl ⟨rfl, by simp [nuke, nukeStep, hqueue]⟩
  | cons r rest => exact .inr (by simp [nuke, nukeStep, hqueue])

/-- `stop_activity` makes a pass at the first endpoint that has requests, or drops the driver. -/
theorem stopActivity_cases (dum : UoeUdc) (count : ℕ) :
    (∃ i, dummyEndpoints - count ≤ i ∧ i < dummyEndpoints ∧
      (∀ j, dummyEndpoints - count ≤ j → j < i → (dum.ep j).queue = []) ∧
      nukeStep dum i (.stop i) = some (stopActivity dum count)) ∨
    ((∀ j, dummyEndpoints - count ≤ j → j < dummyEndpoints → (dum.ep j).queue = []) ∧
      stopActivity dum count = { dum with driver := false }) := by
  induction count with
  | zero => exact .inr ⟨fun j hle hlt => absurd hlt (by omega), rfl⟩
  | succ count ih =>
    have hfirst : ∀ j, dummyEndpoints - (count + 1) ≤ j →
        j = dummyEndpoints - (count + 1) ∨ dummyEndpoints - count ≤ j := by omega
    unfold stopActivity
    simp only
    cases hstep : nukeStep dum (dummyEndpoints - (count + 1)) (.stop (dummyEndpoints - (count + 1))) with
    | some dum' =>
      exact .inl ⟨dummyEndpoints - (count + 1), le_refl _, by unfold dummyEndpoints; omega,
        fun j hle hlt => absurd hlt (by omega), hstep⟩
    | none =>
      have hempty : (dum.ep (dummyEndpoints - (count + 1))).queue = [] := by
        cases hqueue : (dum.ep (dummyEndpoints - (count + 1))).queue with
        | nil => rfl
        | cons r rest => simp [nukeStep, hqueue] at hstep
      simp only
      obtain ⟨i, hle, hlt, hbefore, hpass⟩ | ⟨hall, heq⟩ := ih
      · refine .inl ⟨i, by omega, hlt, fun j hj hji => ?_, hpass⟩
        obtain rfl | hj := hfirst j hj
        · exact hempty
        · exact hbefore j hj hji
      · refine .inr ⟨fun j hj hlt => ?_, heq⟩
        obtain rfl | hj := hfirst j hj
        · exact hempty
        · exact hall j hj hlt

/-- `dummy_enable` sets the descriptor and clears the flags, or refuses. -/
theorem dummyEnable_cases (dum : UoeUdc) (i : ℕ) (epAddr : UInt8) :
    (dummyEnable dum i epAddr).1 = dum ∨
      (dummyEnable dum i epAddr).1 =
        dum.setEp i { dum.ep i with desc := some epAddr, halted := false, wedged := false } := by
  unfold dummyEnable
  split_ifs
  · exact .inl rfl
  · exact .inr rfl
  · exact .inl rfl

/-- `dummy_disable` clears the descriptor and drains the queue, or refuses. -/
theorem dummyDisable_cases (dum : UoeUdc) (i : ℕ) :
    (dummyDisable dum i).1 = dum ∨
      (dummyDisable dum i).1 = nuke (dum.setEp i { dum.ep i with desc := none }) i := by
  unfold dummyDisable
  split_ifs
  · exact .inl rfl
  · exact .inr rfl

/-- `dummy_dequeue` unlinks the request and leaves a call that has to give it back, or refuses. -/
theorem dummyDequeue_cases (dum : UoeUdc) (i n : ℕ) :
    (dummyDequeue dum i n).1 = dum ∨
      .user n ∈ (dum.ep i).queue ∧
        (dummyDequeue dum i n).1 =
          ((dum.setQueue i ((dum.ep i).queue.erase (.user n))).setReq (.user n)
            { dum.req (.user n) with status := -econnreset }).drop ⟨.user n, false, .finish, false⟩ := by
  unfold dummyDequeue
  split_ifs with _ hmem
  · exact .inr ⟨hmem, rfl⟩
  · exact .inl rfl
  · exact .inl rfl

/-- A poll takes the first request off the queue of the endpoint and leaves a call that has to give it back,
or sends a reply at most. -/
theorem uoeUdcPoll_cases (dum : UoeUdc) (epAddr : UInt8) (seq : UInt16) :
    (∃ reply, uoeUdcPoll dum epAddr seq = dum.reply reply) ∨
      ∃ i r rest reply, polledEp dum epAddr = some i ∧ (dum.ep i).queue = r :: rest ∧
        uoeUdcPoll dum epAddr seq =
          ((dum.setQueue i rest).reply reply).drop ⟨r, false, .finish, false⟩ := by
  unfold uoeUdcPoll
  cases hep : polledEp dum epAddr with
  | none => exact .inl ⟨_, rfl⟩
  | some i =>
    cases hqueue : (dum.ep i).queue with
    | nil =>
      simp only [hqueue]
      exact .inl ⟨_, rfl⟩
    | cons r rest =>
      simp only [hqueue]
      exact .inr ⟨i, r, rest, _, rfl, hqueue, rfl⟩

/-- Setting the results of the fast path touches neither queues nor the other logs. -/
theorem giveback_fields (dum : UoeUdc) (p : Pending) :
    (giveback dum p).ep = dum.ep ∧ (giveback dum p).pending = dum.pending ∧
      (giveback dum p).accepted = dum.accepted ∧ (giveback dum p).sent = dum.sent ∧
      (giveback dum p).driver = dum.driver ∧
      ∃ g : Giveback, g.req = p.req ∧ (giveback dum p).givenBack = g :: dum.givenBack := by
  unfold giveback
  split_ifs <;> exact ⟨rfl, rfl, rfl, rfl, rfl, _, rfl, rfl⟩

end LinuxFunctionTest.DummyUsb
