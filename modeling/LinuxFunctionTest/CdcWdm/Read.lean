import LinuxFunctionTest.Library.Errno
import LinuxFunctionTest.Library.Machine
import LinuxFunctionTest.Library.SpinLock

/-!
# Reading from a WDM device

`wdm_read` with `service_outstanding_interrupt`, one access to what it shares with others a step. The flags can
change between any two steps, and what `iuspin` protects can change while the call does not hold it. Where the
response has no bytes, the loop goes back to its start, or to its end, with `iuspin` still held.
-/

namespace LinuxFunctionTest.CdcWdm

open Errno

/-- The bits of `desc->flags` that a read tests or changes. -/
structure WdmFlags where
  disconnecting : Bool
  read : Bool
  responding : Bool
  resetting : Bool
  overflow : Bool
  deriving DecidableEq

/-- The fields that `iuspin` protects: how many bytes came last, how many wait in `ubuf`, the error of the last
response, and how many responses the device has announced. -/
structure WdmData where
  reslength : ℕ
  length : ℕ
  rerr : ℤ
  respCount : ℤ
  ubuf : ℕ → UInt8

/-- The two places at which `wdm_read` calls `service_outstanding_interrupt`: the response has no bytes, or the last
byte was read. -/
inductive ServiceCaller where
  | zeroLength
  | lastByte
  deriving DecidableEq

/-- Where `service_outstanding_interrupt` stands. -/
inductive ServicePoint where
  | respCount
  | disconnecting
  | resetting
  | submit
  | relock (rv : ℤ)
  | submitted (rv : ℤ)
  deriving DecidableEq

/-- Where `wdm_read` stands: before the operation on a lock or the test that the name tells. `woken` and `resetting`
are the tests behind the wait, and `copied` is behind `copy_to_user`. -/
inductive ReadPoint where
  | mutexLock
  | length
  | retry
  | overflow
  | nonblock
  | wait
  | woken
  | resetting
  | spinLock
  | rerr
  | lostRace
  | reslength
  | service (caller : ServiceCaller) (point : ServicePoint)
  | copy
  | copied
  | shift
  | err
  | returned
  deriving DecidableEq

/-- The arguments of a call: whether the file is open with `O_NONBLOCK`, and how many bytes are asked for. -/
structure ReadCall where
  nonblock : Bool
  count : ℕ

/-- The device and a call of `wdm_read`. `rlock` tells whether the call holds the mutex, and `buffer` has the bytes
that it has copied to user space. -/
structure WdmRead where
  flags : WdmFlags
  data : WdmData
  iuspin : SpinLock
  rlock : Bool
  pc : ReadPoint
  rv : ℤ
  cntr : ℕ
  buffer : List UInt8

namespace WdmRead

/-- Go on elsewhere. -/
def goto (s : WdmRead) (pc : ReadPoint) : WdmRead := { s with pc := pc }

/-- `goto err` with an error. -/
def fail (s : WdmRead) (rv : ℤ) : WdmRead := { s with rv := rv, pc := .err }

/-- `spin_lock_irq` on `iuspin`: a call that holds the lock already spins where it is. -/
def spinLockIrq (s : WdmRead) (next : ReadPoint) : WdmRead :=
  { s with iuspin := s.iuspin.lockIrq, pc := if s.iuspin.held then s.pc else next }

/-- `spin_unlock_irq` on `iuspin`. -/
def spinUnlockIrq (s : WdmRead) : WdmRead := { s with iuspin := s.iuspin.unlockIrq }

/-- The end of `wdm_read` behind the copy. -/
def finish (s : WdmRead) : WdmRead := { s.spinUnlockIrq with rv := s.cntr, pc := .err }

/-- `wdm_read` goes on when `service_outstanding_interrupt` has returned. -/
def serviced (s : WdmRead) (caller : ServiceCaller) (rv : ℤ) : WdmRead :=
  match caller with
  | .zeroLength => if rv < 0 then s.fail rv else { s with rv := rv, pc := .retry }
  | .lastByte => s.finish

/-- A step of `service_outstanding_interrupt`. -/
def serviceOutstandingInterrupt (s : WdmRead) (caller : ServiceCaller) : ServicePoint → Option WdmRead
  | .respCount =>
    if s.data.respCount = 0 then some (s.serviced caller 0)
    else
      let s : WdmRead := { s with data := { s.data with respCount := s.data.respCount - 1 } }
      if s.data.respCount = 0 then some (s.serviced caller 0)
      else some (s.goto (.service caller .disconnecting))
  | .disconnecting =>
    if s.flags.disconnecting then some (s.serviced caller (-enodev)) else some (s.goto (.service caller .resetting))
  | .resetting =>
    if s.flags.resetting then some (s.serviced caller (-eio))
    else some ({ s with flags := { s.flags with responding := true } }.spinUnlockIrq.goto (.service caller .submit))
  | .submit => none
  | .relock rv => some (s.spinLockIrq (.service caller (.submitted rv)))
  | .submitted rv =>
    if rv = 0 then some (s.serviced caller rv)
    else
      let s : WdmRead :=
        { s with flags := { s.flags with responding := false }, data := { s.data with respCount := 0 } }
      some (s.serviced caller rv)

/-- A step of `wdm_read` that leaves no choice to the kernel. -/
def advance (usbTranslateErrors : ℤ → ℤ) (call : ReadCall) (s : WdmRead) : Option WdmRead :=
  match s.pc with
  | .mutexLock => some { s with rlock := true, rv := 0, pc := .length }
  | .length =>
    let s : WdmRead := { s with cntr := s.data.length }
    if s.cntr = 0 then some (s.goto .retry) else some (s.goto .copy)
  | .retry => if s.flags.disconnecting then some (s.fail (-enodev)) else some (s.goto .overflow)
  | .overflow =>
    if s.flags.overflow then some ({ s with flags := { s.flags with overflow := false } }.fail (-enobufs))
    else some (s.goto (if call.nonblock then .nonblock else .wait))
  | .nonblock => if s.flags.read then some { s with rv := 0, pc := .woken } else some (s.fail (-eagain))
  | .wait => if s.flags.read then some { s with rv := 0, pc := .woken } else none
  | .woken => if s.flags.disconnecting then some (s.fail (-enodev)) else some (s.goto .resetting)
  | .resetting =>
    if s.flags.resetting then some (s.fail (-eio))
    else if s.rv < 0 then some (s.fail (-erestartsys))
    else some (s.goto .spinLock)
  | .spinLock => some (s.spinLockIrq .rerr)
  | .rerr =>
    if s.data.rerr ≠ 0 then
      some ({ s with data := { s.data with rerr := 0 } }.spinUnlockIrq.fail (usbTranslateErrors s.data.rerr))
    else some (s.goto .lostRace)
  | .lostRace => if s.flags.read then some (s.goto .reslength) else some (s.spinUnlockIrq.goto .retry)
  | .reslength =>
    if s.data.reslength = 0 then
      some ({ s with flags := { s.flags with read := false } }.goto (.service .zeroLength .respCount))
    else some ({ s with cntr := s.data.length }.spinUnlockIrq.goto .copy)
  | .service caller point => s.serviceOutstandingInterrupt caller point
  | .copy => none
  | .copied => some (s.spinLockIrq .shift)
  | .shift =>
    let rest := s.data.length - s.cntr
    let ubuf : ℕ → UInt8 := fun i => if i < rest then s.data.ubuf (i + s.cntr) else s.data.ubuf i
    let s : WdmRead := { s with data := { s.data with length := rest, ubuf := ubuf } }
    if rest = 0 then
      some ({ s with flags := { s.flags with read := false } }.goto (.service .lastByte .respCount))
    else some s.finish
  | .err => some { s with rlock := false, pc := .returned }
  | .returned => none

/-- `copy_to_user`, which leaves `left` bytes out. -/
def copyToUser (count left : ℕ) (s : WdmRead) : Option WdmRead :=
  let cntr := min s.cntr count
  if s.pc ≠ .copy ∨ cntr < left then none
  else
    let s : WdmRead := { s with cntr := cntr, buffer := (List.range (cntr - left)).map s.data.ubuf }
    if 0 < left then some (s.fail (-efault)) else some { s with rv := 0, pc := .copied }

/-- A signal ends the wait for the mutex or for a response. -/
def signal (s : WdmRead) : Option WdmRead :=
  match s.pc with
  | .mutexLock => some { s with rv := -erestartsys, pc := .returned }
  | .wait => if s.flags.read then none else some { s with rv := -erestartsys, pc := .woken }
  | _ => none

end WdmRead

/-- A step of the call, with the choices of the kernel, or of others: they change the flags at any time, and what
`iuspin` protects while the call does not hold it. -/
inductive ReadStep where
  | run
  | signal
  | submitted (rv : ℤ)
  | copied (left : ℕ)
  | setFlags (flags : WdmFlags)
  | setData (data : WdmData)

/-- `wdm_read` among others. While it holds the mutex, others only add to what waits in `ubuf`. -/
def readMachine (usbTranslateErrors : ℤ → ℤ) (call : ReadCall) : Machine WdmRead ReadStep where
  step s
    | .run => s.advance usbTranslateErrors call
    | .signal => s.signal
    | .submitted rv =>
      match s.pc with
      | .service caller .submit => some (s.goto (.service caller (.relock rv)))
      | _ => none
    | .copied left => s.copyToUser call.count left
    | .setFlags flags => some { s with flags := flags }
    | .setData data =>
      if s.iuspin.held = true ∨ (s.rlock = true ∧ data.length < s.data.length) then none
      else some { s with data := data }

/-- The call is entered, with interrupts on and no lock held. -/
def wdmReadStart (flags : WdmFlags) (data : WdmData) : WdmRead :=
  ⟨flags, data, ⟨false, true, false⟩, false, .mutexLock, 0, 0, []⟩

/-- What the code means to hold where it stands, and whether it has found a response without bytes. -/
structure Discipline where
  iuspin : Bool
  rlock : Bool
  foundEmpty : Bool
  deriving DecidableEq

/-- The helper is entered and left with `iuspin` held, and drops it to submit the request. -/
def ServicePoint.locks : ServicePoint → Bool
  | .submit | .relock _ => false
  | _ => true

namespace ReadPoint

/-- What the code means to hold here. -/
def means : ReadPoint → Discipline
  | .mutexLock | .returned => ⟨false, false, false⟩
  | .rerr | .lostRace | .reslength | .shift => ⟨true, true, false⟩
  | .service caller point => ⟨point.locks, true, decide (caller = .zeroLength)⟩
  | _ => ⟨false, true, false⟩

end ReadPoint

namespace WdmRead

/-- The call is where it can sleep: it takes the mutex, waits for a response while there is none, copies to user
space, or submits the request. -/
def sleeps (s : WdmRead) : Bool :=
  match s.pc with
  | .mutexLock | .copy | .service _ .submit => true
  | .wait => !s.flags.read
  | _ => false

/-- A run that stops here is complete: the call has returned, waits for a response, or spins on a lock it holds. -/
def Ends (s : WdmRead) : Prop :=
  s.pc = .returned ∨ s.pc = .wait ∧ s.flags.read = false ∨ s.iuspin.misused = true

end WdmRead

/-- The call has not taken `iuspin` while it held it, or released it while it did not; it does not hold it
where it sleeps; and it has returned without a lock. -/
structure Balanced (s : WdmRead) : Prop where
  proper : s.iuspin.misused = false
  awake : s.sleeps = true → s.iuspin.held = false
  released : s.pc = .returned → s.iuspin.held = false ∧ s.rlock = false

/-- The step does not find a response without bytes. -/
def FindsBytes (s : WdmRead) : ReadStep → Prop
  | .run => s.pc = .reslength → s.data.reslength ≠ 0
  | _ => True

/-- What a step does with the locks. A step that takes `iuspin` without success stays; a leak goes on outside the
locked sections with `iuspin` held. -/
inductive LockMove (s : WdmRead) (label : ReadStep) (t : WdmRead) : Prop
  | keep (lock : t.iuspin = s.iuspin) (mutex : t.rlock = s.rlock) (means : t.pc.means = s.pc.means)
  | take (locks : s.pc.means.iuspin = false) (lock : t.iuspin = s.iuspin.lockIrq) (mutex : t.rlock = s.rlock)
      (means : s.iuspin.held = false → t.pc.means = { s.pc.means with iuspin := true })
  | release (locks : s.pc.means.iuspin = true) (lock : t.iuspin = s.iuspin.unlockIrq) (mutex : t.rlock = s.rlock)
      (means : t.pc.means = { s.pc.means with iuspin := false })
  | find (run : label = .run) (pc : s.pc = .reslength) (empty : s.data.reslength = 0) (lock : t.iuspin = s.iuspin)
      (mutex : t.rlock = s.rlock) (next : t.pc = .service .zeroLength .respCount)
  | leak (locks : s.pc.means.iuspin = true) (found : s.pc.means.foundEmpty = true) (lock : t.iuspin = s.iuspin)
      (next : t.pc.means.iuspin = false)
  | enter (pc : s.pc = .mutexLock) (lock : t.iuspin = s.iuspin) (mutex : t.rlock = true) (next : t.pc = .length)
  | leave (pc : s.pc = .err) (lock : t.iuspin = s.iuspin) (mutex : t.rlock = false) (next : t.pc = .returned)

section Moves

variable {usbTranslateErrors : ℤ → ℤ} {call : ReadCall} {s s' t : WdmRead} {label : ReadStep}
variable {caller : ServiceCaller} {point : ServicePoint} {pc : ReadPoint}

/-- A step between two points at which the code means to hold the same locks. -/
theorem lockMove_keep (hpc : s.pc = pc) (hlock : t.iuspin = s.iuspin) (hmutex : t.rlock = s.rlock)
    (hmeans : t.pc.means = pc.means) : LockMove s label t :=
  .keep hlock hmutex (hpc ▸ hmeans)

/-- `spin_lock_irq` takes the lock, if the call does not hold it. -/
theorem lockMove_take {next : ReadPoint} (hpc : s.pc = pc) (hlocks : pc.means.iuspin = false)
    (hmeans : next.means = { pc.means with iuspin := true }) : LockMove s label (s.spinLockIrq next) := by
  subst hpc
  refine .take hlocks rfl rfl fun hfree => ?_
  rw [← hmeans]
  simp [WdmRead.spinLockIrq, hfree]

/-- `spin_unlock_irq` at the end of a locked section. -/
theorem lockMove_release (hpc : s.pc = pc) (hlocks : pc.means.iuspin = true)
    (hlock : t.iuspin = s.iuspin.unlockIrq) (hmutex : t.rlock = s.rlock)
    (hmeans : t.pc.means = { pc.means with iuspin := false }) : LockMove s label t := by
  subst hpc
  exact .release hlocks hlock hmutex hmeans

/-- A test that makes the same move on both branches. -/
theorem lockMove_ite {c : Prop} [Decidable c] {yes no : WdmRead} (h : (if c then some yes else some no) = some t)
    (hyes : LockMove s label yes) (hno : LockMove s label no) : LockMove s label t := by
  split_ifs at h
  · exact Option.some.inj h ▸ hyes
  · exact Option.some.inj h ▸ hno

/-- When the helper returns, the lock is released behind the last byte, and leaks behind a response without
bytes. -/
theorem lockMove_serviced (hpc : s.pc = .service caller point) (hlocks : point.locks = true)
    (hlock : s'.iuspin = s.iuspin) (hmutex : s'.rlock = s.rlock) (rv : ℤ) :
    LockMove s label (s'.serviced caller rv) := by
  have hmeans : s.pc.means.iuspin = true := by rw [hpc]; exact hlocks
  cases caller with
  | zeroLength =>
    have hfound : s.pc.means.foundEmpty = true := by rw [hpc]; rfl
    unfold WdmRead.serviced
    by_cases hrv : rv < 0
    · rw [if_pos hrv]
      exact .leak hmeans hfound hlock rfl
    · rw [if_neg hrv]
      exact .leak hmeans hfound hlock rfl
  | lastByte => exact lockMove_release hpc hlocks (congrArg SpinLock.unlockIrq hlock) hmutex rfl

/-- A step of `service_outstanding_interrupt`. -/
theorem lockMove_service (hpc : s.pc = .service caller point)
    (h : s.serviceOutstandingInterrupt caller point = some t) : LockMove s label t := by
  cases point with
  | respCount =>
    simp only [WdmRead.serviceOutstandingInterrupt] at h
    split_ifs at h
    · exact Option.some.inj h ▸ lockMove_serviced hpc rfl rfl rfl 0
    · obtain rfl := Option.some.inj h
      refine lockMove_serviced hpc rfl ?_ ?_ 0
      · rfl
      · rfl
    · exact Option.some.inj h ▸ lockMove_keep hpc rfl rfl rfl
  | disconnecting =>
    simp only [WdmRead.serviceOutstandingInterrupt] at h
    exact lockMove_ite h (lockMove_serviced hpc rfl rfl rfl (-enodev)) (lockMove_keep hpc rfl rfl rfl)
  | resetting =>
    simp only [WdmRead.serviceOutstandingInterrupt] at h
    exact lockMove_ite h (lockMove_serviced hpc rfl rfl rfl (-eio)) (lockMove_release hpc rfl rfl rfl rfl)
  | submit => exact absurd h (by simp [WdmRead.serviceOutstandingInterrupt])
  | relock rv =>
    obtain rfl := Option.some.inj h
    exact lockMove_take hpc rfl rfl
  | submitted rv =>
    simp only [WdmRead.serviceOutstandingInterrupt] at h
    split_ifs at h
    · exact Option.some.inj h ▸ lockMove_serviced hpc rfl rfl rfl rv
    · obtain rfl := Option.some.inj h
      refine lockMove_serviced hpc rfl ?_ ?_ rv
      · rfl
      · rfl

/-- A step of `wdm_read` that leaves no choice to the kernel. -/
theorem lockMove_advance (h : s.advance usbTranslateErrors call = some t) : LockMove s .run t := by
  unfold WdmRead.advance at h
  cases hpc : s.pc with
  | mutexLock =>
    simp only [hpc] at h
    exact Option.some.inj h ▸ .enter hpc rfl rfl rfl
  | length =>
    simp only [hpc] at h
    exact lockMove_ite h (lockMove_keep hpc rfl rfl rfl) (lockMove_keep hpc rfl rfl rfl)
  | retry =>
    simp only [hpc] at h
    exact lockMove_ite h (lockMove_keep hpc rfl rfl rfl) (lockMove_keep hpc rfl rfl rfl)
  | overflow =>
    simp only [hpc] at h
    split_ifs at h
    · exact Option.some.inj h ▸ lockMove_keep hpc rfl rfl rfl
    · exact Option.some.inj h ▸ lockMove_keep hpc rfl rfl rfl
    · exact Option.some.inj h ▸ lockMove_keep hpc rfl rfl rfl
  | nonblock =>
    simp only [hpc] at h
    exact lockMove_ite h (lockMove_keep hpc rfl rfl rfl) (lockMove_keep hpc rfl rfl rfl)
  | wait =>
    simp only [hpc] at h
    split_ifs at h
    exact Option.some.inj h ▸ lockMove_keep hpc rfl rfl rfl
  | woken =>
    simp only [hpc] at h
    exact lockMove_ite h (lockMove_keep hpc rfl rfl rfl) (lockMove_keep hpc rfl rfl rfl)
  | resetting =>
    simp only [hpc] at h
    split_ifs at h
    · exact Option.some.inj h ▸ lockMove_keep hpc rfl rfl rfl
    · exact Option.some.inj h ▸ lockMove_keep hpc rfl rfl rfl
    · exact Option.some.inj h ▸ lockMove_keep hpc rfl rfl rfl
  | spinLock =>
    simp only [hpc] at h
    exact Option.some.inj h ▸ lockMove_take hpc rfl rfl
  | rerr =>
    simp only [hpc] at h
    exact lockMove_ite h (lockMove_release hpc rfl rfl rfl rfl) (lockMove_keep hpc rfl rfl rfl)
  | lostRace =>
    simp only [hpc] at h
    exact lockMove_ite h (lockMove_keep hpc rfl rfl rfl) (lockMove_release hpc rfl rfl rfl rfl)
  | reslength =>
    simp only [hpc] at h
    split_ifs at h with hempty
    · exact Option.some.inj h ▸ .find rfl hpc hempty rfl rfl rfl
    · exact Option.some.inj h ▸ lockMove_release hpc rfl rfl rfl rfl
  | service caller point =>
    simp only [hpc] at h
    exact lockMove_service hpc h
  | copied =>
    simp only [hpc] at h
    exact Option.some.inj h ▸ lockMove_take hpc rfl rfl
  | shift =>
    simp only [hpc] at h
    exact lockMove_ite h (lockMove_keep hpc rfl rfl rfl) (lockMove_release hpc rfl rfl rfl rfl)
  | err =>
    simp only [hpc] at h
    exact Option.some.inj h ▸ .leave hpc rfl rfl rfl
  | copy => exact absurd h (by simp [hpc])
  | returned => exact absurd h (by simp [hpc])

/-- What each step does with the locks. -/
theorem lockMove_step (h : (readMachine usbTranslateErrors call).step s label = some t) : LockMove s label t := by
  cases label with
  | run => exact lockMove_advance h
  | signal =>
    simp only [readMachine, WdmRead.signal] at h
    split at h
    · rename_i hpc
      exact Option.some.inj h ▸ lockMove_keep hpc rfl rfl rfl
    · rename_i hpc
      split_ifs at h
      exact Option.some.inj h ▸ lockMove_keep hpc rfl rfl rfl
    · cases h
  | submitted rv =>
    simp only [readMachine] at h
    split at h
    · rename_i caller hpc
      exact Option.some.inj h ▸ lockMove_keep hpc rfl rfl rfl
    · cases h
  | copied left =>
    simp only [readMachine, WdmRead.copyToUser] at h
    split_ifs at h with hno hfault
    · obtain ⟨hpc, -⟩ := not_or.mp hno
      exact Option.some.inj h ▸ lockMove_keep (not_not.mp hpc) rfl rfl rfl
    · obtain ⟨hpc, -⟩ := not_or.mp hno
      exact Option.some.inj h ▸ lockMove_keep (not_not.mp hpc) rfl rfl rfl
  | setFlags flags => exact Option.some.inj h ▸ .keep rfl rfl rfl
  | setData data =>
    simp only [readMachine] at h
    split_ifs at h
    exact Option.some.inj h ▸ .keep rfl rfl rfl

end Moves

/-- The call holds what the code means it to hold, and has found no response without bytes. -/
structure InOrder (s : WdmRead) : Prop where
  proper : s.iuspin.misused = false
  iuspin : s.iuspin.held = s.pc.means.iuspin
  rlock : s.rlock = s.pc.means.rlock
  found : s.pc.means.foundEmpty = false

/-- The call has found a response without bytes: it is still in the helper, or holds `iuspin` where the code does
not mean it to. -/
def Leaks (s : WdmRead) : Prop :=
  s.pc.means.foundEmpty = true ∧ s.iuspin.held = s.pc.means.iuspin ∨
    s.iuspin.held = true ∧ s.pc.means.iuspin = false

section Runs

variable {usbTranslateErrors : ℤ → ℤ} {call : ReadCall} {s t : WdmRead} {label : ReadStep}

/-- The code does not mean to hold `iuspin` where it sleeps. -/
theorem means_of_sleeps (h : s.sleeps = true) : s.pc.means.iuspin = false := by
  unfold WdmRead.sleeps at h
  split at h
  · rename_i hpc
    rw [hpc]
    rfl
  · rename_i hpc
    rw [hpc]
    rfl
  · rename_i hpc
    rw [hpc]
    rfl
  · rename_i hpc
    rw [hpc]
    rfl
  · cases h

/-- A call in order is balanced. -/
theorem InOrder.balanced (h : InOrder s) : Balanced s := by
  refine ⟨h.proper, fun hsleeps => ?_, fun hpc => ?_⟩
  · rw [h.iuspin, means_of_sleeps hsleeps]
  · rw [h.iuspin, h.rlock, hpc]
    exact ⟨rfl, rfl⟩

/-- A step that finds no response without bytes keeps the call in order. -/
theorem inOrder_step (hs : InOrder s) (h : (readMachine usbTranslateErrors call).step s label = some t)
    (hguard : FindsBytes s label) : InOrder t := by
  cases lockMove_step h with
  | keep lock mutex means =>
    exact ⟨lock ▸ hs.proper, by rw [lock, means, hs.iuspin], by rw [mutex, means, hs.rlock], means ▸ hs.found⟩
  | take locks lock mutex means =>
    have hfree : s.iuspin.held = false := hs.iuspin.trans locks
    have hheld : s.iuspin.lockIrq.Held := SpinLock.Free.lockIrq ⟨hfree, hs.proper⟩
    have hmeans := means hfree
    refine ⟨lock ▸ hheld.proper, ?_, ?_, ?_⟩
    · rw [lock, hmeans, hheld.held]
    · rw [mutex, hmeans, hs.rlock]
    · rw [hmeans, hs.found]
  | release locks lock mutex means =>
    have hfree : s.iuspin.unlockIrq.Free := SpinLock.Held.unlockIrq ⟨hs.iuspin.trans locks, hs.proper⟩
    refine ⟨lock ▸ hfree.proper, ?_, ?_, ?_⟩
    · rw [lock, means, hfree.free]
    · rw [mutex, means, hs.rlock]
    · rw [means, hs.found]
  | find run pc empty lock mutex next =>
    subst run
    exact absurd empty (hguard pc)
  | leak locks found lock next => exact absurd found (by simp [hs.found])
  | enter pc lock mutex next =>
    have hmeans : s.iuspin.held = false := by rw [hs.iuspin, pc]; rfl
    exact ⟨lock ▸ hs.proper, by rw [lock, hmeans, next]; rfl, by rw [mutex, next]; rfl, by rw [next]; rfl⟩
  | leave pc lock mutex next =>
    have hmeans : s.iuspin.held = false := by rw [hs.iuspin, pc]; rfl
    exact ⟨lock ▸ hs.proper, by rw [lock, hmeans, next]; rfl, by rw [mutex, next]; rfl, by rw [next]; rfl⟩

/-- A call in order that finds a response without bytes leaks the lock. -/
theorem leaks_of_empty (hs : InOrder s) (h : (readMachine usbTranslateErrors call).step s label = some t)
    (hguard : ¬ FindsBytes s label) : Leaks t := by
  cases label with
  | run =>
    obtain ⟨hpc, hempty⟩ : s.pc = .reslength ∧ s.data.reslength = 0 := by
      simpa only [FindsBytes, Classical.not_imp, not_not] using hguard
    simp only [readMachine, WdmRead.advance, hpc, hempty, if_true] at h
    obtain rfl := Option.some.inj h
    refine .inl ⟨rfl, ?_⟩
    exact hs.iuspin.trans (by rw [hpc]; rfl)
  | signal => exact absurd trivial hguard
  | submitted rv => exact absurd trivial hguard
  | copied left => exact absurd trivial hguard
  | setFlags flags => exact absurd trivial hguard
  | setData data => exact absurd trivial hguard

/-- A call that leaks the lock goes on leaking it, as long as it is balanced. -/
theorem leaks_step (hs : Leaks s) (h : (readMachine usbTranslateErrors call).step s label = some t)
    (ht : Balanced t) : Leaks t := by
  cases lockMove_step h with
  | keep lock mutex means =>
    unfold Leaks
    rw [lock, means]
    exact hs
  | take locks lock mutex means =>
    obtain ⟨hfound, hheld⟩ | ⟨hheld, -⟩ := hs
    · have hmeans := means (hheld.trans locks)
      refine .inl ⟨?_, ?_⟩
      · rw [hmeans, hfound]
      · rw [lock, hmeans]
        rfl
    · have hmisused := ht.proper
      rw [lock] at hmisused
      exact absurd hmisused (by simp [SpinLock.lockIrq, SpinLock.lock, hheld])
  | release locks lock mutex means =>
    obtain ⟨hfound, -⟩ | ⟨-, hstray⟩ := hs
    · refine .inl ⟨?_, ?_⟩
      · rw [means, hfound]
      · rw [lock, means]
        rfl
    · exact absurd (hstray.symm.trans locks) Bool.false_ne_true
  | find run pc empty lock mutex next =>
    refine .inl ⟨by rw [next]; rfl, ?_⟩
    obtain ⟨hfound, -⟩ | ⟨-, hstray⟩ := hs
    · exact absurd hfound (by rw [pc]; decide)
    · exact absurd hstray (by rw [pc]; decide)
  | leak locks found lock next =>
    obtain ⟨-, hheld⟩ | ⟨hheld, -⟩ := hs
    · exact .inr ⟨by rw [lock, hheld, locks], next⟩
    · exact .inr ⟨lock ▸ hheld, next⟩
  | enter pc lock mutex next =>
    obtain ⟨hfound, -⟩ | ⟨hheld, -⟩ := hs
    · exact absurd hfound (by rw [pc]; decide)
    · exact .inr ⟨lock ▸ hheld, by rw [next]; rfl⟩
  | leave pc lock mutex next =>
    obtain ⟨hfound, -⟩ | ⟨hheld, -⟩ := hs
    · exact absurd hfound (by rw [pc]; decide)
    · exact .inr ⟨lock ▸ hheld, by rw [next]; rfl⟩

/-- A complete run that leaks the lock is not balanced at its end. -/
theorem Leaks.not_balanced (hs : Leaks s) (hend : s.Ends) : ¬ Balanced s := by
  intro hbalanced
  have hheld : s.pc.means.foundEmpty = false → s.iuspin.held = true := by
    intro hfound
    obtain ⟨hfound', -⟩ | ⟨hheld, -⟩ := hs
    · exact absurd (hfound.symm.trans hfound') Bool.false_ne_true
    · exact hheld
  obtain hpc | ⟨hpc, hread⟩ | hmisused := hend
  · have hfree := (hbalanced.released hpc).1
    rw [hheld (by rw [hpc]; rfl)] at hfree
    cases hfree
  · have hfree := hbalanced.awake (by simp [WdmRead.sleeps, hpc, hread])
    rw [hheld (by rw [hpc]; rfl)] at hfree
    cases hfree
  · exact absurd (hbalanced.proper.symm.trans hmisused) Bool.false_ne_true

end Runs

section Calls

variable (usbTranslateErrors : ℤ → ℤ) (call : ReadCall) (flags : WdmFlags) (data : WdmData) (labels : List ReadStep)

/-- A call that finds no response without bytes is balanced in every state it reaches. -/
theorem balanced_of_findsBytes
    (h : (readMachine usbTranslateErrors call).Guarded FindsBytes (wdmReadStart flags data) labels) :
    (readMachine usbTranslateErrors call).Always Balanced (wdmReadStart flags data) labels := by
  have hinOrder := Machine.always_of_guarded _ (fun _ _ _ => inOrder_step)
    (show InOrder (wdmReadStart flags data) from ⟨rfl, rfl, rfl, rfl⟩) h
  exact hinOrder.mono _ fun _ => InOrder.balanced

/-- A complete call that was balanced in every state it reached found no response without bytes. -/
theorem findsBytes_of_balanced {s : WdmRead}
    (h : (readMachine usbTranslateErrors call).Always Balanced (wdmReadStart flags data) labels)
    (hrun : (readMachine usbTranslateErrors call).run (wdmReadStart flags data) labels = some s) (hend : s.Ends) :
    (readMachine usbTranslateErrors call).Guarded FindsBytes (wdmReadStart flags data) labels := by
  have hspoiled := Machine.guarded_or_spoiled _ (fun _ _ _ => inOrder_step) (fun _ _ _ => leaks_of_empty)
    (fun _ _ _ => leaks_step) (show InOrder (wdmReadStart flags data) from ⟨rfl, rfl, rfl, rfl⟩) h hrun
  refine hspoiled.resolve_right fun hleaks => hleaks.not_balanced hend ?_
  exact h.of_reached _ (List.prefix_refl _) hrun

/-- **The locks of `wdm_read`.** In every run in which no response without bytes is found, the call is balanced in
every state it reaches. In every other run that stops where the call has returned, waits or spins, it is not. -/
theorem balanced_iff_findsBytes :
    ((readMachine usbTranslateErrors call).Guarded FindsBytes (wdmReadStart flags data) labels →
        (readMachine usbTranslateErrors call).Always Balanced (wdmReadStart flags data) labels) ∧
      ∀ s, (readMachine usbTranslateErrors call).run (wdmReadStart flags data) labels = some s → s.Ends →
        ((readMachine usbTranslateErrors call).Always Balanced (wdmReadStart flags data) labels ↔
          (readMachine usbTranslateErrors call).Guarded FindsBytes (wdmReadStart flags data) labels) := by
  refine ⟨balanced_of_findsBytes _ _ _ _ _, fun s hrun hend => ⟨fun h => ?_, balanced_of_findsBytes _ _ _ _ _⟩⟩
  exact findsBytes_of_balanced _ _ _ _ _ h hrun hend

end Calls

/-- A response without bytes, read with `O_NONBLOCK`: the call returns `-EAGAIN` and still holds `iuspin`. -/
theorem not_balanced : ¬ ∀ usbTranslateErrors call flags data labels,
    (readMachine usbTranslateErrors call).Always Balanced (wdmReadStart flags data) labels := by
  intro h
  have hreturn := (h id ⟨true, 64⟩ ⟨false, true, false, false, false⟩ ⟨0, 0, 0, 0, fun _ => 0⟩
    (List.replicate 16 .run)).of_reached _ (List.prefix_refl _) rfl
  exact absurd (hreturn.released rfl).1 (by decide)

end LinuxFunctionTest.CdcWdm
