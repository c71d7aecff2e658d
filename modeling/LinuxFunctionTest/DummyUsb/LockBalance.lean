import LinuxFunctionTest.DummyUsb.Halts
import LinuxFunctionTest.Library.SpinLock

/-!
# The lock of the controller

The functions of `udc.c` that take `dum->lock`, with every operation on the lock. A function runs up to where it
drops the lock around a callback and goes on when the callback is back, with whatever the callback and others have
made of the controller. All of them keep the lock in order. The interrupts they do not: where `dummy_dequeue` has
found its request it releases the lock with `spin_unlock` and returns from the callback, with interrupts off.
-/

namespace LinuxFunctionTest.DummyUsb

/-- What `uoe_udc_poll_loop` finds in an iteration: an error, no packet, a poll, a SETUP packet or another one. -/
inductive PollInput where
  | failed
  | nothing
  | poll (epAddr : UInt8) (seq : UInt16)
  | setup (setup : UsbCtrlRequest)
  | other

/-- A call of one of the functions that take the lock; the last is an iteration of `uoe_udc_poll_loop`. -/
inductive UdcCall where
  | queue (i n : ℕ)
  | dequeue (i n : ℕ)
  | disable (i : ℕ)
  | pullup (value : ℤ)
  | udcStart (speedAccepted : Bool)
  | udcStop
  | asyncCallbacks (enable : Bool)
  | pollIteration (input : PollInput)

/-- Where a call has dropped the lock: around a completion handler, in the wait of `dummy_pullup(0)`, or around
the `setup` callback. -/
inductive DroppedIn where
  | queue (after : After)
  | dequeue
  | disable (after : After)
  | udcStop (after : After)
  | poll
  | pullup
  | setup
  deriving DecidableEq

/-- The controller, the lock with the interrupts, and the call under way, if any, that has dropped the lock; `flags`
is what the call has saved, and `entryIrqs` tells whether interrupts were on when it was entered. -/
structure LockedUdc where
  gadget : Gadget
  callbackUsage : ℤ
  pullup : Bool
  lock : SpinLock
  flags : Option Bool
  entryIrqs : Bool
  dropped : Option DroppedIn

namespace LockedUdc

/-- Take the lock. -/
def spinLock (s : LockedUdc) : LockedUdc := { s with lock := s.lock.lock }

/-- Release the lock. -/
def spinUnlock (s : LockedUdc) : LockedUdc := { s with lock := s.lock.unlock }

/-- Take the lock with interrupts off. -/
def spinLockIrq (s : LockedUdc) : LockedUdc := { s with lock := s.lock.lockIrq }

/-- Release the lock and turn interrupts on. -/
def spinUnlockIrq (s : LockedUdc) : LockedUdc := { s with lock := s.lock.unlockIrq }

/-- Take the lock with interrupts off, and save how they were. -/
def spinLockIrqsave (s : LockedUdc) : LockedUdc :=
  { s with lock := s.lock.lockIrqsave.1, flags := some s.lock.lockIrqsave.2 }

/-- Release the lock and restore the interrupts. -/
def spinUnlockIrqrestore (s : LockedUdc) : LockedUdc :=
  { s with lock := s.lock.unlockIrqrestore (s.flags.getD s.lock.irqs) }

/-- Change the controller. -/
def setUdc (s : LockedUdc) (dum : UoeUdc) : LockedUdc := { s with gadget := { s.gadget with udc := dum } }

/-- Go on outside the lock, until the callback is back. -/
def leaveTo (s : LockedUdc) (dropped : DroppedIn) : LockedUdc := { s with dropped := some dropped }

/-- Return. -/
def ret (s : LockedUdc) : LockedUdc := { s with dropped := none }

/-- A locked section that has changed the queues: it has unlinked a request, which is given back outside the lock,
or the call releases the lock and returns. -/
def lockedSection (s : LockedUdc) (dum : UoeUdc) (dropped : After → DroppedIn) (release : LockedUdc → LockedUdc) :
    LockedUdc :=
  match dum.pending.take (dum.pending.length - s.gadget.udc.pending.length) with
  | p :: _ => (s.setUdc dum).spinUnlock.leaveTo (dropped p.after)
  | [] => (release (s.setUdc dum)).ret

/-- `dummy_queue`; what it refuses it refuses before it takes the lock. -/
def queueCall (s : LockedUdc) (i n : ℕ) : LockedUdc :=
  if (dummyQueue s.gadget.udc i n).2 ≠ 0 then s
  else s.spinLockIrqsave.lockedSection (dummyQueue s.gadget.udc i n).1 .queue spinUnlockIrqrestore

/-- `dummy_dequeue`. -/
def dequeueCall (s : LockedUdc) (i n : ℕ) : LockedUdc :=
  if ¬ s.gadget.udc.driver then s
  else s.spinLockIrqsave.lockedSection (dummyDequeue s.gadget.udc i n).1 (fun _ => .dequeue) spinUnlockIrqrestore

/-- `dummy_disable`. -/
def disableCall (s : LockedUdc) (i : ℕ) : LockedUdc :=
  if (dummyDisable s.gadget.udc i).2 ≠ 0 then s
  else s.spinLockIrqsave.lockedSection (dummyDisable s.gadget.udc i).1 .disable spinUnlockIrqrestore

/-- The condition of the wait of `dummy_pullup(0)` with the lock held. -/
def pullupWait (s : LockedUdc) : LockedUdc :=
  if 0 < s.callbackUsage then s.spinUnlockIrqrestore.leaveTo .pullup else s.spinUnlockIrqrestore.ret

/-- `dummy_pullup` up to where it sends its event. -/
def pullupCall (s : LockedUdc) (value : ℤ) : LockedUdc :=
  let s := { s.spinLockIrqsave with pullup := value != 0 }
  if value = 0 then s.pullupWait else s.spinUnlockIrqrestore.ret

/-- `dummy_udc_start`. -/
def udcStartCall (s : LockedUdc) (speedAccepted : Bool) : LockedUdc :=
  if speedAccepted then
    let s := s.spinLockIrq
    ({ s with gadget := dummyUdcStart s.gadget }.spinUnlockIrq).ret
  else s

/-- `dummy_udc_stop`. -/
def udcStopCall (s : LockedUdc) : LockedUdc :=
  s.spinLockIrq.lockedSection (dummyUdcStop s.gadget.udc) .udcStop spinUnlockIrq

/-- `dummy_udc_async_callbacks`. -/
def asyncCall (s : LockedUdc) (enable : Bool) : LockedUdc :=
  ((s.spinLockIrq.setUdc { s.gadget.udc with intsEnabled := enable }).spinUnlockIrq).ret

/-- The SETUP branch of `uoe_udc_poll_loop`. -/
def setupCall (s : LockedUdc) (setup : UsbCtrlRequest) : LockedUdc :=
  let value := (handleControlRequest s.gadget setup).2
  let s : LockedUdc := { s.spinLock with gadget := (handleControlRequest s.gadget setup).1 }
  if 0 < value ∧ s.gadget.udc.driver = true then
    ({ s with callbackUsage := s.callbackUsage + 1 }.spinUnlock).leaveTo .setup
  else s.spinUnlock.ret

/-- An iteration of `uoe_udc_poll_loop`. -/
def pollCall (s : LockedUdc) : PollInput → LockedUdc
  | .failed => s
  | .nothing => s
  | .poll epAddr seq =>
    s.spinLock.lockedSection (uoeUdcPoll s.gadget.udc epAddr seq) (fun _ => .poll) spinUnlock
  | .setup setup => s.setupCall setup
  | .other => s

/-- A call from its entry. -/
def enter (s : LockedUdc) : UdcCall → LockedUdc
  | .queue i n => s.queueCall i n
  | .dequeue i n => s.dequeueCall i n
  | .disable i => s.disableCall i
  | .pullup value => s.pullupCall value
  | .udcStart speedAccepted => s.udcStartCall speedAccepted
  | .udcStop => s.udcStopCall
  | .asyncCallbacks enable => s.asyncCall enable
  | .pollIteration input => s.pollCall input

/-- A call goes on when the callback is back. -/
def goOn (s : LockedUdc) : DroppedIn → LockedUdc
  | .queue after => s.spinLock.lockedSection (resume s.gadget.udc after) .queue spinUnlockIrqrestore
  | .dequeue => s.ret
  | .disable after => s.spinLock.lockedSection (resume s.gadget.udc after) .disable spinUnlockIrqrestore
  | .udcStop after => s.spinLock.lockedSection (resume s.gadget.udc after) .udcStop spinUnlockIrq
  | .poll => s.ret
  | .pullup => s.spinLockIrqsave.pullupWait
  | .setup =>
    let s := s.spinLock
    ({ s with callbackUsage := s.callbackUsage - 1 }.spinUnlock).ret

end LockedUdc

/-- A function is called, with interrupts on or off and any contents of the controller, or the callback is back, and
leaves the interrupts as it found them. -/
inductive LockStep where
  | call (call : UdcCall) (irqs : Bool) (gadget : Gadget) (callbackUsage : ℤ)
  | back (gadget : Gadget) (callbackUsage : ℤ)

/-- One call after another. -/
def lockMachine : Machine LockedUdc LockStep where
  step s label := match label, s.dropped with
    | .call call irqs gadget callbackUsage, none =>
      some ({ s with
        gadget := gadget
        callbackUsage := callbackUsage
        lock := { s.lock with irqs := irqs }
        flags := none
        entryIrqs := irqs }.enter call)
    | .back gadget callbackUsage, some dropped =>
      some ({ s with gadget := gadget, callbackUsage := callbackUsage }.goOn dropped)
    | _, _ => none

/-- The controller before the first call, with the lock free. -/
def lockStart (gadget : Gadget) : LockedUdc where
  gadget := gadget
  callbackUsage := 0
  pullup := false
  lock := ⟨false, true, false⟩
  flags := none
  entryIrqs := true
  dropped := none

/-- The lock was never taken while it was held nor released while it was not. A call that has returned has left it
free and, if it had saved the interrupts, left them as it found them. -/
structure LockBalanced (s : LockedUdc) : Prop where
  proper : s.lock.misused = false
  free : s.dropped = none → s.lock.held = false
  irqs : s.dropped = none → s.flags.isSome → s.lock.irqs = s.entryIrqs

/-- A `dummy_dequeue` that gave its request back was entered with interrupts off. -/
def DequeuedQuietly (s : LockedUdc) : LockStep → Prop
  | .call _ _ _ _ => True
  | .back _ _ => s.dropped = some .dequeue → s.entryIrqs = false

/-- What a call that has dropped the lock relies on: what it has saved, or that it has saved nothing. -/
def DroppedIn.Relies (s : LockedUdc) : DroppedIn → Prop
  | .queue _ => s.flags = some s.entryIrqs
  | .dequeue => s.flags = some s.entryIrqs ∧ s.lock.irqs = false
  | .disable _ => s.flags = some s.entryIrqs
  | .udcStop _ => s.flags = none
  | .poll => s.flags = none
  | .pullup => s.lock.irqs = s.entryIrqs
  | .setup => s.flags = none

/-- The invariant: the lock is free, between calls and where a call has dropped it. -/
structure LockInv (s : LockedUdc) : Prop where
  free : s.lock.Free
  irqs : s.dropped = none → s.flags.isSome → s.lock.irqs = s.entryIrqs
  relies : ∀ dropped, s.dropped = some dropped → dropped.Relies s

section Calls

variable {s : LockedUdc}

/-- The lock is held in a call that has saved the interrupts. -/
structure Saved (s : LockedUdc) : Prop where
  held : s.lock.Held
  flags : s.flags = some s.entryIrqs

/-- The lock is held in a call that has not. -/
structure Unsaved (s : LockedUdc) : Prop where
  held : s.lock.Held
  flags : s.flags = none

/-- A call that has saved the interrupts releases the lock, restores them and returns. -/
theorem Saved.ret (h : Saved s) : LockInv s.spinUnlockIrqrestore.ret := by
  refine ⟨h.held.unlockIrqrestore _, fun _ _ => ?_, fun _ hdropped => absurd hdropped (by simp [LockedUdc.ret])⟩
  change (s.flags.getD s.lock.irqs) = s.entryIrqs
  rw [h.flags]
  rfl

/-- A call that has saved nothing releases the lock and returns. -/
theorem Unsaved.ret (h : Unsaved s) : LockInv s.spinUnlock.ret ∧ LockInv s.spinUnlockIrq.ret := by
  have hnone : ∀ l : SpinLock, s.flags.isSome = true → l.irqs = s.entryIrqs := fun _ hsome => by
    rw [h.flags] at hsome
    exact absurd hsome (by simp)
  exact ⟨⟨h.held.unlock, fun _ => hnone _, fun _ hdropped => absurd hdropped (by simp [LockedUdc.ret])⟩,
    ⟨h.held.unlockIrq, fun _ => hnone _, fun _ hdropped => absurd hdropped (by simp [LockedUdc.ret])⟩⟩

/-- A call drops the lock, with what it relies on. -/
theorem leaveTo_inv {dropped : DroppedIn} (hfree : s.lock.Free) (hrelies : dropped.Relies s) :
    LockInv (s.leaveTo dropped) := by
  refine ⟨hfree, fun hnone => absurd hnone (by simp [LockedUdc.leaveTo]), fun d hd => ?_⟩
  obtain rfl : dropped = d := Option.some.inj hd
  cases dropped <;> exact hrelies

/-- A locked section ends where the call drops the lock or where it returns. -/
theorem lockedSection_inv (hheld : s.lock.Held) (dum : UoeUdc) {dropped : After → DroppedIn}
    {release : LockedUdc → LockedUdc} (hrelies : ∀ after, (dropped after).Relies (s.setUdc dum).spinUnlock)
    (hrelease : LockInv (release (s.setUdc dum)).ret) : LockInv (s.lockedSection dum dropped release) := by
  unfold LockedUdc.lockedSection
  split
  · exact leaveTo_inv hheld.unlock (hrelies _)
  · exact hrelease

/-- A call that takes the lock and saves the interrupts. -/
theorem spinLockIrqsave_saved (hfree : s.lock.Free) (hirqs : s.lock.irqs = s.entryIrqs) :
    Saved s.spinLockIrqsave ∧ s.spinLockIrqsave.lock.irqs = false :=
  ⟨⟨hfree.lockIrq, congrArg some hirqs⟩, rfl⟩

/-- The wait of `dummy_pullup(0)` keeps the interrupts as they were. -/
theorem pullupWait_inv (h : Saved s) : LockInv s.pullupWait := by
  unfold LockedUdc.pullupWait
  split_ifs
  · refine leaveTo_inv (h.held.unlockIrqrestore _) ?_
    change (s.flags.getD s.lock.irqs) = s.entryIrqs
    rw [h.flags]
    rfl
  · exact h.ret

/-- A call from its entry: nothing saved yet, the lock free, the interrupts as they are. -/
theorem enter_inv (hfree : s.lock.Free) (hflags : s.flags = none) (hirqs : s.lock.irqs = s.entryIrqs)
    (hidle : s.dropped = none) (call : UdcCall) : LockInv (s.enter call) := by
  have hrefused : LockInv s :=
    ⟨hfree, fun _ hsome => by simp [hflags] at hsome, fun _ hdropped => by simp [hidle] at hdropped⟩
  obtain ⟨hsaved, hoff⟩ := spinLockIrqsave_saved hfree hirqs
  have hsavedUdc : ∀ dum, Saved (s.spinLockIrqsave.setUdc dum) := fun dum => ⟨hsaved.held, hsaved.flags⟩
  have hplain : ∀ gadget, Unsaved { s.spinLock with gadget := gadget } := fun _ => ⟨hfree.lock, hflags⟩
  have hirq : ∀ gadget, Unsaved { s.spinLockIrq with gadget := gadget } := fun _ => ⟨hfree.lockIrq, hflags⟩
  cases call with
  | queue i n =>
    change LockInv (s.queueCall i n)
    unfold LockedUdc.queueCall
    split_ifs
    · exact hrefused
    · exact lockedSection_inv hsaved.held _ (fun _ => hsaved.flags) (hsavedUdc _).ret
  | dequeue i n =>
    change LockInv (s.dequeueCall i n)
    unfold LockedUdc.dequeueCall
    split_ifs
    · exact lockedSection_inv hsaved.held _ (fun _ => ⟨hsaved.flags, hoff⟩) (hsavedUdc _).ret
    · exact hrefused
  | disable i =>
    change LockInv (s.disableCall i)
    unfold LockedUdc.disableCall
    split_ifs
    · exact hrefused
    · exact lockedSection_inv hsaved.held _ (fun _ => hsaved.flags) (hsavedUdc _).ret
  | pullup value =>
    change LockInv (s.pullupCall value)
    unfold LockedUdc.pullupCall
    have hset : Saved { s.spinLockIrqsave with pullup := value != 0 } := ⟨hsaved.held, hsaved.flags⟩
    simp only
    split_ifs
    · exact pullupWait_inv hset
    · exact hset.ret
  | udcStart speedAccepted =>
    change LockInv (s.udcStartCall speedAccepted)
    unfold LockedUdc.udcStartCall
    split_ifs
    · exact (hirq _).ret.2
    · exact hrefused
  | udcStop => exact lockedSection_inv hfree.lockIrq _ (fun _ => hflags) (hirq _).ret.2
  | asyncCallbacks enable => exact (hirq _).ret.2
  | pollIteration input =>
    cases input with
    | failed => exact hrefused
    | nothing => exact hrefused
    | poll epAddr seq =>
      have hrelies : ∀ dum, DroppedIn.poll.Relies (s.spinLock.setUdc dum).spinUnlock := fun _ => hflags
      exact lockedSection_inv hfree.lock _ (fun _ => hrelies _) (hplain _).ret.1
    | setup setup =>
      change LockInv (s.setupCall setup)
      unfold LockedUdc.setupCall
      simp only
      split_ifs
      · exact leaveTo_inv hfree.lock.unlock hflags
      · exact (hplain _).ret.1
    | other => exact hrefused

/-- A call that goes on when the callback is back, unless it is a `dummy_dequeue` that was entered with interrupts
on. -/
theorem goOn_inv (hfree : s.lock.Free) {dropped : DroppedIn} (hrelies : dropped.Relies s)
    (hquiet : dropped = .dequeue → s.entryIrqs = false) : LockInv (s.goOn dropped) := by
  cases dropped with
  | queue after =>
    exact lockedSection_inv hfree.lock _ (fun _ => hrelies) (Saved.ret ⟨hfree.lock, hrelies⟩)
  | dequeue =>
    refine ⟨hfree, fun _ _ => ?_, fun _ hdropped => absurd hdropped (by simp [LockedUdc.goOn, LockedUdc.ret])⟩
    exact hrelies.2.trans (hquiet rfl).symm
  | disable after =>
    exact lockedSection_inv hfree.lock _ (fun _ => hrelies) (Saved.ret ⟨hfree.lock, hrelies⟩)
  | udcStop after =>
    have hunsaved : ∀ dum, Unsaved (s.spinLock.setUdc dum) := fun _ => ⟨hfree.lock, hrelies⟩
    exact lockedSection_inv hfree.lock _ (fun _ => hrelies) (hunsaved _).ret.2
  | poll =>
    refine ⟨hfree, fun _ hsome => ?_, fun _ hdropped => absurd hdropped (by simp [LockedUdc.goOn, LockedUdc.ret])⟩
    have hflags : s.flags = none := hrelies
    change s.flags.isSome = true at hsome
    simp [hflags] at hsome
  | pullup => exact pullupWait_inv (spinLockIrqsave_saved hfree hrelies).1
  | setup =>
    have hunsaved : Unsaved { s.spinLock with callbackUsage := s.callbackUsage - 1 } := ⟨hfree.lock, hrelies⟩
    exact hunsaved.ret.1

end Calls

section Runs

variable {s t : LockedUdc} {label : LockStep}

/-- A step in which no `dummy_dequeue` leaves interrupts off keeps the invariant. -/
theorem lockMachine_step_inv (h : LockInv s) (hstep : lockMachine.step s label = some t)
    (hguard : DequeuedQuietly s label) : LockInv t := by
  cases label with
  | call call irqs gadget callbackUsage =>
    cases hdropped : s.dropped with
    | some dropped => simp [lockMachine, hdropped] at hstep
    | none =>
      simp only [lockMachine, hdropped, Option.some.injEq] at hstep
      subst hstep
      refine enter_inv ?_ ?_ ?_ ?_ call
      · exact ⟨h.free.free, h.free.proper⟩
      · rfl
      · rfl
      · rfl
  | back gadget callbackUsage =>
    cases hdropped : s.dropped with
    | none => simp [lockMachine, hdropped] at hstep
    | some dropped =>
      simp only [lockMachine, hdropped, Option.some.injEq] at hstep
      subst hstep
      have hrelies := h.relies dropped hdropped
      have hquiet : dropped = .dequeue → s.entryIrqs = false := fun hdequeue => hguard (hdequeue ▸ hdropped)
      refine goOn_inv ?_ ?_ ?_
      · exact h.free
      · cases dropped <;> exact hrelies
      · exact hquiet

/-- A `dummy_dequeue` that was entered with interrupts on returns with interrupts off. -/
theorem lockMachine_step_unbalanced (h : LockInv s) (hstep : lockMachine.step s label = some t)
    (hguard : ¬ DequeuedQuietly s label) : ¬ LockBalanced t := by
  cases label with
  | call call irqs gadget callbackUsage => exact absurd trivial hguard
  | back gadget callbackUsage =>
    obtain ⟨hdropped, hentry⟩ := Classical.not_imp.mp hguard
    obtain ⟨hflags, hoff⟩ : s.flags = some s.entryIrqs ∧ s.lock.irqs = false := h.relies .dequeue hdropped
    simp only [lockMachine, hdropped, Option.some.injEq] at hstep
    subst hstep
    intro hbalanced
    have hirqs : s.lock.irqs = s.entryIrqs := hbalanced.irqs rfl (by
      change s.flags.isSome = true
      rw [hflags]
      rfl)
    exact hentry (hirqs.symm.trans hoff)

/-- The lock and the interrupts are balanced along every run of calls exactly when no `dummy_dequeue` that finds its
request is entered with interrupts on. -/
theorem lockBalanced_iff_dequeuedQuietly (gadget : Gadget) (labels : List LockStep) :
    lockMachine.Always LockBalanced (lockStart gadget) labels ↔
      lockMachine.Guarded DequeuedQuietly (lockStart gadget) labels := by
  refine lockMachine.always_iff_guarded
    (fun s (h : LockInv s) => ⟨h.free.proper, fun _ => h.free.free, h.irqs⟩)
    (fun _ _ _ h hstep hguard => lockMachine_step_inv h hstep hguard)
    (fun _ _ _ h hstep hguard => lockMachine_step_unbalanced h hstep hguard) ?_ labels
  exact ⟨⟨rfl, rfl⟩, fun _ hsome => absurd hsome (by simp [lockStart]),
    fun _ hdropped => absurd hdropped (by simp [lockStart])⟩

/-- An endpoint with request 7 on its queue. -/
def dequeuable : Gadget :=
  { gadgetStart (fun _ => ⟨.user 7, 100, 0, 0, true⟩) (fun _ _ => 0) with
    udc := { udcStart (fun _ => ⟨.user 7, 100, 0, 0, true⟩) (fun _ _ => 0) with
      ep := fun _ => ⟨some 0x01, false, false, [.user 7]⟩ } }

/-- Request 7 is dequeued with interrupts on. -/
theorem lockBalanced_dequeue : ¬ lockMachine.Always LockBalanced (lockStart dequeuable)
    [.call (.dequeue 1 7) true dequeuable 0, .back dequeuable 0] := by
  intro h
  have hbalanced := h.of_reached lockMachine (List.prefix_refl _) rfl
  exact absurd (hbalanced.irqs rfl rfl) (by decide)

end Runs

end LinuxFunctionTest.DummyUsb
