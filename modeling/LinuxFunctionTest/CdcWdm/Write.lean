import LinuxFunctionTest.Library.Errno
import LinuxFunctionTest.Library.Machine
import Mathlib.Data.Finset.Erase
import Mathlib.Data.Finset.Insert
import Mathlib.Data.Int.Notation
import Mathlib.Logic.Function.Basic

/-!
# Writing to a WDM device

Any number of calls of `wdm_write`, the completion of the command they send, a reset and the removal of
the device, one access to what they share a step. All commands use one request block, so no command
may be sent while another is on its way, and a command must be freed once, by its writer or
by the completion. Readers, with whom the writers share `iuspin`, are not here: nobody else holds it for long.
-/

namespace LinuxFunctionTest.CdcWdm

open Errno

/-- Where `wdm_write` stands: before the step that the name tells. `gone` is the second test for a removed device,
and `unlockSubmitted` the way out with a command under way. -/
inductive WritePoint where
  | werr
  | memdupUser
  | mutexLock
  | disconnecting
  | autopm
  | wait
  | resetting
  | gone
  | fillUrb
  | setInUse
  | setOutbuf
  | submitUrb
  | dropOutbuf
  | dropInUse
  | unlock
  | kfree
  | unlockSubmitted
  | returned
  deriving DecidableEq

/-- A call of `wdm_write`: where it stands, its arguments and its variables. -/
structure Writer where
  pc : WritePoint
  nonblock : Bool
  count : ℕ
  r : ℤ
  rv : ℤ
  buf : ℕ

/-- Where `wdm_out_callback` stands. -/
inductive OutPoint where
  | werr
  | kfree
  | clearOutbuf
  | clearInUse
  deriving DecidableEq

/-- The request block of commands: at rest, on its way with a buffer, or completing. -/
inductive Command where
  | idle
  | submitted (buf : ℕ)
  | completing (buf : ℕ) (status : ℤ) (point : OutPoint)
  deriving DecidableEq

/-- Where `wdm_pre_reset` and `wdm_post_reset` stand; `between` is while the device is reset. -/
inductive ResetPoint where
  | idle
  | clearInUse
  | mutexLock
  | poison
  | drain
  | between
  | clearResetting
  | unlock
  deriving DecidableEq

/-- Where `wdm_disconnect` stands. -/
inductive DisconnectPoint where
  | idle
  | mutexLock
  | poison
  | drain
  | unlock
  | returned
  deriving DecidableEq

/-- Who holds the mutex of writers. -/
inductive Wlock (ι : Type*) where
  | writer (i : ι)
  | reset
  | disconnect
  deriving DecidableEq

/-- The device and all who write to it. `live` has the buffers that are allocated, `transferBuffer` is what the
request block was filled with, and `misused` remembers a buffer freed twice or a request block filled or submitted
while it is on its way. -/
structure WdmWrite (ι : Type*) where
  writers : ι → Writer
  wlock : Option (Wlock ι)
  inUse : Bool
  disconnecting : Bool
  resetting : Bool
  werr : ℤ
  outbuf : Option ℕ
  command : Command
  transferBuffer : ℕ
  poisoned : ℕ
  reset : ResetPoint
  disconnect : DisconnectPoint
  live : Finset ℕ
  next : ℕ
  misused : Bool

/-- The steps, with the choices of the kernel and of the device. -/
inductive WriteLabel (ι : Type*) where
  | call (i : ι) (nonblock : Bool) (count : ℕ)
  | run (i : ι)
  | memdupFails (i : ι) (err : ℤ)
  | signal (i : ι)
  | autopm (i : ι) (r : ℤ)
  | submitUrb (i : ι) (rv : ℤ)
  | complete (status : ℤ)
  | outCallback
  | reset
  | disconnect
  | waitForResponse

namespace WdmWrite

variable {ι : Type*} [DecidableEq ι]

/-- A call goes on with other variables. -/
def set (s : WdmWrite ι) (i : ι) (w : Writer) : WdmWrite ι := { s with writers := Function.update s.writers i w }

/-- A call goes on elsewhere. -/
def goto (s : WdmWrite ι) (i : ι) (pc : WritePoint) : WdmWrite ι := s.set i { s.writers i with pc := pc }

/-- A call goes on elsewhere with a result. -/
def leave (s : WdmWrite ι) (i : ι) (rv : ℤ) (pc : WritePoint) : WdmWrite ι :=
  s.set i { s.writers i with rv := rv, pc := pc }

/-- `kfree` -/
def free (s : WdmWrite ι) (buf : ℕ) : WdmWrite ι :=
  { s with live := s.live.erase buf, misused := s.misused || decide (buf ∉ s.live) }

/-- A step of `wdm_write` that leaves no choice to the kernel. -/
def run (usbTranslateErrors : ℤ → ℤ) (s : WdmWrite ι) (i : ι) : Option (WdmWrite ι) :=
  let w := s.writers i
  match w.pc with
  | .werr =>
    let we := s.werr
    let s : WdmWrite ι := { s with werr := 0 }
    some (if we < 0 then s.leave i (usbTranslateErrors we) .returned else s.goto i .memdupUser)
  | .memdupUser =>
    let s' : WdmWrite ι := { s with live := insert s.next s.live, next := s.next + 1 }
    some (s'.set i { w with buf := s.next, pc := .mutexLock })
  | .mutexLock =>
    if s.wlock.isNone then some ({ s with wlock := some (.writer i) }.leave i (-erestartsys) .disconnecting)
    else none
  | .disconnecting => some (if s.disconnecting then s.leave i (-enodev) .unlock else s.goto i .autopm)
  | .autopm => none
  | .wait =>
    if w.nonblock then
      some (s.set i { w with r := if s.inUse then -eagain else w.r, pc := .resetting })
    else if s.inUse then none
    else some (s.set i { w with r := 0, pc := .resetting })
  | .resetting => some (s.set i { w with r := if s.resetting then -eio else w.r, pc := .gone })
  | .gone =>
    let r := if s.disconnecting then -enodev else w.r
    some (if r < 0 then s.set i { w with r := r, rv := r, pc := .unlock }
      else s.set i { w with r := r, pc := .fillUrb })
  | .fillUrb =>
    let misused := s.misused || decide (s.command ≠ Command.idle)
    some ({ s with transferBuffer := w.buf, misused := misused }.goto i .setInUse)
  | .setInUse => some ({ s with inUse := true }.goto i .setOutbuf)
  | .setOutbuf => some ({ s with outbuf := some w.buf }.goto i .submitUrb)
  | .submitUrb => none
  | .dropOutbuf => some ({ s with outbuf := none }.goto i .dropInUse)
  | .dropInUse => some ({ s with inUse := false }.leave i (usbTranslateErrors w.rv) .unlock)
  | .unlock => some ({ s with wlock := none }.goto i .kfree)
  | .kfree => some ((s.free w.buf).goto i .returned)
  | .unlockSubmitted => some ({ s with wlock := none }.leave i w.count .returned)
  | .returned => none

/-- `usb_submit_urb` for the command, which is refused while the request block is poisoned. -/
def submit (s : WdmWrite ι) (i : ι) (rv : ℤ) : WdmWrite ι :=
  let rv := if 0 < s.poisoned then -eperm else rv
  if rv < 0 then s.leave i rv .dropOutbuf
  else
    { s with
      command := .submitted s.transferBuffer
      misused := s.misused || decide (s.command ≠ Command.idle) }.leave i rv .unlockSubmitted

/-- A step of `wdm_out_callback`. -/
def outCallback (s : WdmWrite ι) : Option (WdmWrite ι) :=
  match s.command with
  | .completing buf status .werr => some { s with werr := status, command := .completing buf status .kfree }
  | .completing buf status .kfree =>
    -- freeing no buffer does nothing
    some { s.outbuf.elim s s.free with command := .completing buf status .clearOutbuf }
  | .completing buf status .clearOutbuf =>
    some { s with outbuf := none, command := .completing buf status .clearInUse }
  | .completing _ _ .clearInUse => some { s with inUse := false, command := .idle }
  | _ => none

/-- A step of `wdm_pre_reset` or `wdm_post_reset`. -/
def resetStep (s : WdmWrite ι) : Option (WdmWrite ι) :=
  match s.reset with
  | .idle => some { s with resetting := true, reset := .clearInUse }
  | .clearInUse => some { s with inUse := false, reset := .mutexLock }
  | .mutexLock => if s.wlock.isNone then some { s with wlock := some .reset, reset := .poison } else none
  | .poison => some { s with poisoned := s.poisoned + 1, reset := .drain }
  | .drain => if s.command = .idle then some { s with reset := .between } else none
  | .between => some { s with poisoned := s.poisoned - 1, reset := .clearResetting }
  | .clearResetting => some { s with resetting := false, reset := .unlock }
  | .unlock => some { s with wlock := none, reset := .idle }

/-- A step of `wdm_disconnect`. -/
def disconnectStep (s : WdmWrite ι) : Option (WdmWrite ι) :=
  match s.disconnect with
  | .idle => some { s with disconnecting := true, disconnect := .mutexLock }
  | .mutexLock => if s.wlock.isNone then some { s with wlock := some .disconnect, disconnect := .poison } else none
  | .poison => some { s with poisoned := s.poisoned + 1, disconnect := .drain }
  | .drain => if s.command = .idle then some { s with disconnect := .unlock } else none
  | .unlock => some { s with wlock := none, disconnect := .returned }
  | .returned => none

end WdmWrite

/-- All who write to the device, as a machine. -/
def writeMachine {ι : Type*} [DecidableEq ι] (usbTranslateErrors : ℤ → ℤ) (wMaxCommand : ℕ) :
    Machine (WdmWrite ι) (WriteLabel ι) where
  step s
    | .call i nonblock count =>
      if (s.writers i).pc = .returned then some (s.set i ⟨.werr, nonblock, min count wMaxCommand, 0, -emsgsize, 0⟩)
      else none
    | .run i => s.run usbTranslateErrors i
    | .memdupFails i err => if (s.writers i).pc = .memdupUser then some (s.leave i err .returned) else none
    | .signal i =>
      if (s.writers i).pc = .mutexLock then some (s.leave i (-erestartsys) .kfree)
      else if (s.writers i).pc = .wait ∧ (s.writers i).nonblock = false ∧ s.inUse then
        some (s.set i { s.writers i with r := -erestartsys, pc := .resetting })
      else none
    | .autopm i r =>
      if (s.writers i).pc = .autopm then
        some (if r < 0 then s.leave i (usbTranslateErrors r) .unlock
          else s.set i { s.writers i with r := r, pc := .wait })
      else none
    | .submitUrb i rv => if (s.writers i).pc = .submitUrb then some (s.submit i rv) else none
    | .complete status =>
      match s.command with
      | .submitted buf => some { s with command := .completing buf status .werr }
      | _ => none
    | .outCallback => s.outCallback
    | .reset => s.resetStep
    | .disconnect => s.disconnectStep
    | .waitForResponse => some { s with werr := 0 }

/-- A device to which nobody writes. -/
def wdmWriteStart (ι : Type*) : WdmWrite ι where
  writers _ := ⟨.returned, false, 0, 0, 0, 0⟩
  wlock := none
  inUse := false
  disconnecting := false
  resetting := false
  werr := 0
  outbuf := none
  command := .idle
  transferBuffer := 0
  poisoned := 0
  reset := .idle
  disconnect := .idle
  live := ∅
  next := 0
  misused := false

/-- Inside the section of the mutex. -/
def WritePoint.locked : WritePoint → Bool
  | .werr | .memdupUser | .mutexLock | .kfree | .returned => false
  | _ => true

/-- Between the allocation of the buffer and its release, by the call itself or with the command. -/
def WritePoint.owns : WritePoint → Bool
  | .werr | .memdupUser | .unlockSubmitted | .returned => false
  | _ => true

/-- From filling the request block to its submission, or to the end of a submission that failed. -/
def WritePoint.sends : WritePoint → Bool
  | .fillUrb | .setInUse | .setOutbuf | .submitUrb | .dropOutbuf | .dropInUse => true
  | _ => false

/-- Between filling the request block and its submission. -/
def WritePoint.filled : WritePoint → Bool
  | .setInUse | .setOutbuf | .submitUrb => true
  | _ => false

/-- Between marking the request block as in use and its submission. -/
def WritePoint.marked : WritePoint → Bool
  | .setOutbuf | .submitUrb => true
  | _ => false

/-- The buffer that the completion has still to free. -/
def Command.buffer : Command → Option ℕ
  | .submitted buf | .completing buf _ .werr | .completing buf _ .kfree => some buf
  | _ => none

/-- Inside the section of the mutex. -/
def ResetPoint.locked : ResetPoint → Bool
  | .idle | .clearInUse | .mutexLock => false
  | _ => true

/-- Between the two accesses that announce the reset and call it off. -/
def ResetPoint.announced : ResetPoint → Bool
  | .idle | .unlock => false
  | _ => true

/-- Behind the wait for the command to complete. -/
def ResetPoint.drained : ResetPoint → Bool
  | .between | .clearResetting | .unlock => true
  | _ => false

/-- Inside the section of the mutex. -/
def DisconnectPoint.locked : DisconnectPoint → Bool
  | .poison | .drain | .unlock => true
  | _ => false

namespace WdmWrite

variable {ι : Type*}

/-- What a call knows about the request block where it stands. -/
structure Ready (s : WdmWrite ι) (w : Writer) : Prop where
  resetting : w.pc = .resetting → 0 ≤ w.r → s.command = .idle ∨ s.resetting = true
  gone : w.pc = .gone → 0 ≤ w.r → s.command = .idle
  sends : w.pc.sends = true → s.command = .idle
  filled : w.pc.filled = true → s.transferBuffer = w.buf
  outbuf : w.pc = .submitUrb → s.outbuf = some w.buf
  marked : w.pc.marked = true → s.inUse = true ∨ s.resetting = true

/-- The mutex is held by who is inside its section. -/
structure Locks (s : WdmWrite ι) : Prop where
  writer : ∀ i, (s.writers i).pc.locked = true ↔ s.wlock = some (.writer i)
  reset : s.reset.locked = true ↔ s.wlock = some .reset
  disconnect : s.disconnect.locked = true ↔ s.wlock = some .disconnect

/-- The call is the one to free the buffer, unless it hands it on with the command. -/
def Owns (s : WdmWrite ι) (i : ι) (k : ℕ) : Prop := (s.writers i).pc.owns = true ∧ (s.writers i).buf = k

/-- Every buffer that is allocated belongs to one call or goes with the command. -/
structure Owned (s : WdmWrite ι) : Prop where
  distinct : ∀ i j k, s.Owns i k → s.Owns j k → i = j
  apart : ∀ i k, s.Owns i k → s.command.buffer ≠ some k
  live : ∀ k, k ∈ s.live ↔ (∃ i, s.Owns i k) ∨ s.command.buffer = some k
  bounded : ∀ k ∈ s.live, k < s.next

/-- The invariant of all who write. -/
structure Inv (s : WdmWrite ι) : Prop where
  locks : Locks s
  owned : Owned s
  ready : ∀ i, Ready s (s.writers i)
  busy : s.command ≠ .idle → s.inUse = true ∨ s.resetting = true
  outbuf : ∀ k, s.command.buffer = some k → s.outbuf = some k
  drained : s.reset.drained = true → s.command = .idle
  proper : s.misused = false

section Shared

variable {s : WdmWrite ι} {i : ι} {w : Writer}

/-- Two calls inside the section are one. -/
theorem Locks.eq {j : ι} (h : Locks s) (hi : (s.writers i).pc.locked = true) (hj : (s.writers j).pc.locked = true) :
    i = j := by
  have hwlock := ((h.writer i).mp hi).symm.trans ((h.writer j).mp hj)
  exact Wlock.writer.inj (Option.some.inj hwlock)

/-- Nothing is known of the request block at most points. -/
theorem Ready.of_pc (h : w.pc = .werr ∨ w.pc = .memdupUser ∨ w.pc = .mutexLock ∨ w.pc = .disconnecting ∨
    w.pc = .autopm ∨ w.pc = .wait ∨ w.pc = .unlock ∨ w.pc = .kfree ∨ w.pc = .unlockSubmitted ∨ w.pc = .returned) :
    Ready s w := by
  constructor <;> rcases h with h | h | h | h | h | h | h | h | h | h <;>
    simp [h, WritePoint.sends, WritePoint.filled, WritePoint.marked]

/-- Nothing is known of the request block outside of the section. -/
theorem Ready.of_unlocked (h : w.pc.locked = false) : Ready s w :=
  .of_pc (by cases hpc : w.pc <;> simp_all [WritePoint.locked])

/-- Away from the steps that send, it is enough that the request block is at rest. -/
theorem Ready.of_idle (hidle : s.command = .idle) (hfilled : w.pc.filled = false) (hpc : w.pc ≠ .submitUrb)
    (hmarked : w.pc.marked = false) : Ready s w :=
  ⟨fun _ _ => .inl hidle, fun _ _ => hidle, fun _ => hidle, by simp [hfilled], fun h => absurd h hpc,
    by simp [hmarked]⟩

/-- The error of the last command, poisoning and removal do not matter. -/
theorem Inv.quiet (h : Inv s) (werr : ℤ) (poisoned : ℕ) (disconnecting : Bool) :
    Inv { s with werr := werr, poisoned := poisoned, disconnecting := disconnecting } :=
  ⟨{ h.locks with }, { h.owned with }, fun i => { h.ready i with }, h.busy, h.outbuf, h.drained, h.proper⟩

/-- The request block may be marked as in use at any time, and as free while the device is reset or nothing is
sent. -/
theorem Inv.mark (h : Inv s) {inUse : Bool} (hfree : inUse = true ∨ s.resetting = true ∨
    (s.command = .idle ∧ ∀ j, (s.writers j).pc.marked = false)) : Inv { s with inUse := inUse } := by
  refine ⟨{ h.locks with }, { h.owned with }, fun j => { h.ready j with marked := fun hj => ?_ }, fun hbusy => ?_,
    h.outbuf, h.drained, h.proper⟩
  · rcases hfree with huse | hreset | ⟨_, hnone⟩
    · exact .inl huse
    · exact .inr hreset
    · exact absurd hj (by simp [hnone j])
  · rcases hfree with huse | hreset | ⟨hidle, _⟩
    · exact .inl huse
    · exact .inr hreset
    · exact absurd hidle hbusy

/-- The request block may be filled by who is in the section and about to. -/
theorem Inv.fill (h : Inv s) (hpc : (s.writers i).pc = .fillUrb) (buf : ℕ) :
    Inv { s with transferBuffer := buf, misused := s.misused || decide (s.command ≠ Command.idle) } := by
  have hidle : s.command = .idle := (h.ready i).sends (by rw [hpc]; rfl)
  refine ⟨{ h.locks with }, { h.owned with }, fun j => ?_, h.busy, h.outbuf, h.drained, by simp [h.proper, hidle]⟩
  refine { h.ready j with filled := fun hfilled => ?_ }
  have hlocked : (s.writers j).pc.locked = true := by
    cases hj : (s.writers j).pc <;> simp_all [WritePoint.filled, WritePoint.locked]
  obtain rfl := h.locks.eq hlocked (show (s.writers i).pc.locked = true by rw [hpc]; rfl)
  exact absurd hfilled (by rw [hpc]; decide)

/-- The buffer under way may be noted or forgotten by who is in the section and not about to submit it, while the
request block is at rest. -/
theorem Inv.note (h : Inv s) (hlocked : (s.writers i).pc.locked = true) (hpc : (s.writers i).pc ≠ .submitUrb)
    (hidle : s.command = .idle) (outbuf : Option ℕ) : Inv { s with outbuf := outbuf } := by
  refine ⟨{ h.locks with }, { h.owned with }, fun j => ?_, h.busy, by simp [hidle, Command.buffer], h.drained,
    h.proper⟩
  refine { h.ready j with outbuf := fun hj => ?_ }
  obtain rfl := h.locks.eq (show (s.writers j).pc.locked = true by rw [hj]; rfl) hlocked
  exact absurd hj hpc

/-- A command under way goes on, with the buffer that is to be freed noted. -/
theorem Inv.callback (h : Inv s) (hbusy : s.command ≠ .idle) {command : Command} {o : Option ℕ} {inUse : Bool}
    (werr : ℤ) (hbuffer : command.buffer = s.command.buffer) (houtbuf : ∀ k, command.buffer = some k → o = some k)
    (hinUse : command = .idle ∨ inUse = s.inUse) :
    Inv { s with werr := werr, command := command, outbuf := o, inUse := inUse } := by
  have hsends : ∀ j, (s.writers j).pc.sends = false := fun j =>
    Bool.eq_false_iff.mpr fun hsends => hbusy ((h.ready j).sends hsends)
  refine ⟨{ h.locks with }, ⟨h.owned.distinct, fun j k hj => ?_, fun k => ?_, h.owned.bounded⟩, fun j => ?_,
    fun hcommand => ?_, houtbuf, fun hdrained => absurd (h.drained hdrained) hbusy, h.proper⟩
  · exact hbuffer ▸ h.owned.apart j k hj
  · exact hbuffer ▸ h.owned.live k
  · refine ⟨fun hpc hr => ?_, fun hpc hr => absurd ((h.ready j).gone hpc hr) hbusy, fun hpc => ?_,
      (h.ready j).filled, fun hpc => ?_, fun hpc => ?_⟩
    · exact .inr (((h.ready j).resetting hpc hr).resolve_left hbusy)
    · exact absurd hpc (by simp [hsends j])
    · have hj : (s.writers j).pc = .submitUrb := hpc
      exact absurd (hsends j) (by rw [hj]; decide)
    · have hsent := hsends j
      cases hj : (s.writers j).pc <;> simp_all [WritePoint.sends, WritePoint.marked]
  · have huse := hinUse.resolve_left hcommand
    rw [huse]
    exact h.busy hbusy

/-- The completion frees the buffer of the command. -/
theorem Inv.freed (h : Inv s) {buf : ℕ} {status : ℤ} (hcommand : s.command = .completing buf status .kfree) :
    Inv { s.free buf with command := .completing buf status .clearOutbuf } := by
  have hbuffer : s.command.buffer = some buf := by rw [hcommand]; rfl
  have hbusy : s.command ≠ .idle := by simp [hcommand]
  refine ⟨{ h.locks with }, ⟨h.owned.distinct, fun j k _ => ?_, fun k => ?_, fun k hk => ?_⟩, fun j => ?_,
    fun _ => h.busy hbusy, fun k hk => ?_, fun hdrained => absurd (h.drained hdrained) hbusy, ?_⟩
  · simp [Command.buffer]
  · refine Finset.mem_erase.trans ?_
    rw [h.owned.live k, hbuffer]
    constructor
    · rintro ⟨hne, hown | hsent⟩
      · exact .inl hown
      · exact absurd (Option.some.inj hsent).symm hne
    · rintro (⟨j, hj⟩ | hsent)
      · exact ⟨fun hk => h.owned.apart j k hj (hk ▸ hbuffer), .inl ⟨j, hj⟩⟩
      · exact absurd hsent (by simp [Command.buffer])
  · exact h.owned.bounded k (Finset.mem_of_mem_erase hk)
  · have hready := h.ready j
    exact
      { hready with
        resetting := fun hpc hr => .inr ((hready.resetting hpc hr).resolve_left hbusy)
        gone := fun hpc hr => absurd (hready.gone hpc hr) hbusy
        sends := fun hpc => absurd (hready.sends hpc) hbusy }
  · exact absurd hk (by simp [Command.buffer])
  · have hlive : buf ∈ s.live := (h.owned.live _).mpr (.inr hbuffer)
    simp [WdmWrite.free, h.proper, hlive]

/-- A reset may be announced at any time. -/
theorem Inv.announce (h : Inv s) (hreset : s.reset = .idle) :
    Inv { s with resetting := true, reset := .clearInUse } := by
  refine ⟨⟨h.locks.writer, ?_, h.locks.disconnect⟩, { h.owned with }, fun j => ?_, fun _ => .inr rfl, h.outbuf, ?_,
    h.proper⟩
  · exact (iff_of_eq (by rw [hreset]; rfl)).trans h.locks.reset
  · exact { h.ready j with resetting := fun _ _ => .inr rfl, marked := fun _ => .inr rfl }
  · simp [ResetPoint.drained]

/-- A reset that has been announced frees the writers that wait. -/
theorem Inv.unblock (h : Inv s) (hreset : s.reset = .clearInUse) (hresetting : s.resetting = true) :
    Inv { s with inUse := false, reset := .mutexLock } := by
  refine ⟨⟨h.locks.writer, ?_, h.locks.disconnect⟩, { h.owned with }, fun j => ?_, fun _ => .inr hresetting,
    h.outbuf, ?_, h.proper⟩
  · exact (iff_of_eq (by rw [hreset]; rfl)).trans h.locks.reset
  · exact { h.ready j with marked := fun _ => .inr hresetting }
  · simp [ResetPoint.drained]

/-- While the mutex passes between nobody and one holder, the others do not have it. -/
theorem held_iff {held held' : Option (Wlock ι)} {holder other : Wlock ι} (hheld : held = none ∨ held = some holder)
    (hnew : held' = none ∨ held' = some holder) (hne : holder ≠ other) :
    held = some other ↔ held' = some other := by
  refine iff_of_false (fun h => ?_) (fun h => ?_)
  · rcases hheld with hheld | hheld <;> simp [hheld, hne] at h
  · rcases hnew with hnew | hnew <;> simp [hnew, hne] at h

/-- A reset that takes or keeps the mutex goes on, behind its wait with the request block at rest. -/
theorem Inv.resets (h : Inv s) {reset : ResetPoint} {wlock : Option (Wlock ι)} (poisoned : ℕ)
    (hheld : s.wlock = none ∨ s.wlock = some .reset) (hnew : wlock = none ∨ wlock = some .reset)
    (hlocked : reset.locked = true ↔ wlock = some .reset) (hdrained : reset.drained = true → s.command = .idle) :
    Inv { s with poisoned := poisoned, reset := reset, wlock := wlock } := by
  exact ⟨⟨fun j => (h.locks.writer j).trans (held_iff hheld hnew (by simp)), hlocked,
    h.locks.disconnect.trans (held_iff hheld hnew (by simp))⟩, { h.owned with }, fun j => { h.ready j with },
    h.busy, h.outbuf, hdrained, h.proper⟩

/-- The removal, when it takes or keeps the mutex, goes on. -/
theorem Inv.disconnects (h : Inv s) {disconnect : DisconnectPoint} {wlock : Option (Wlock ι)} (poisoned : ℕ)
    (hheld : s.wlock = none ∨ s.wlock = some .disconnect) (hnew : wlock = none ∨ wlock = some .disconnect)
    (hlocked : disconnect.locked = true ↔ wlock = some .disconnect) :
    Inv { s with poisoned := poisoned, disconnect := disconnect, wlock := wlock } := by
  exact ⟨⟨fun j => (h.locks.writer j).trans (held_iff hheld hnew (by simp)),
    h.locks.reset.trans (held_iff hheld hnew (by simp)), hlocked⟩, { h.owned with }, fun j => { h.ready j with },
    h.busy, h.outbuf, h.drained, h.proper⟩

/-- The end of a reset frees the writers, none of which is inside the section. -/
theorem Inv.endReset (h : Inv s) (hreset : s.reset = .clearResetting) :
    Inv { s with resetting := false, reset := .unlock } := by
  have hidle : s.command = .idle := h.drained (by rw [hreset]; rfl)
  have hwlock : s.wlock = some .reset := h.locks.reset.mp (by rw [hreset]; rfl)
  have hout : ∀ j, (s.writers j).pc.locked = false := fun j =>
    Bool.eq_false_iff.mpr fun hin => by simpa [hwlock] using (h.locks.writer j).mp hin
  refine ⟨⟨h.locks.writer, ?_, h.locks.disconnect⟩, { h.owned with }, fun j => .of_unlocked (hout j),
    fun hbusy => absurd hidle hbusy, h.outbuf, fun _ => hidle, h.proper⟩
  exact (iff_of_eq (by rw [hreset]; rfl)).trans h.locks.reset

/-- The steps of `wdm_out_callback` keep the invariant. -/
theorem Inv.outCallback_step {s' : WdmWrite ι} (h : Inv s) (hstep : s.outCallback = some s') : Inv s' := by
  rcases hcommand : s.command with _ | buf | ⟨buf, status, point⟩
  · simp [WdmWrite.outCallback, hcommand] at hstep
  · simp [WdmWrite.outCallback, hcommand] at hstep
  have hbusy : s.command ≠ .idle := by simp [hcommand]
  cases point <;> simp only [WdmWrite.outCallback, hcommand, Option.some.injEq] at hstep <;> subst hstep
  case werr =>
    exact h.callback (o := s.outbuf) hbusy status (by rw [hcommand]; rfl)
      (fun k hk => h.outbuf k (by rw [hcommand]; exact hk)) (.inr rfl)
  case kfree =>
    rw [h.outbuf buf (by rw [hcommand]; rfl)]
    exact h.freed hcommand
  case clearOutbuf => exact h.callback hbusy s.werr (by rw [hcommand]; rfl) (by simp [Command.buffer]) (.inr rfl)
  case clearInUse => exact h.callback hbusy s.werr (by rw [hcommand]; rfl) (by simp [Command.buffer]) (.inl rfl)

/-- The steps of a reset keep the invariant. -/
theorem Inv.resetStep_step {s' : WdmWrite ι} (h : Inv s) (hresetting : s.resetting = s.reset.announced)
    (hstep : s.resetStep = some s') : Inv s' := by
  cases hreset : s.reset <;> simp only [WdmWrite.resetStep, hreset] at hstep
  case idle =>
    obtain rfl := Option.some.inj hstep
    exact h.announce hreset
  case clearInUse =>
    obtain rfl := Option.some.inj hstep
    exact h.unblock hreset (by rw [hresetting, hreset]; rfl)
  case mutexLock =>
    split_ifs at hstep with hfree
    obtain rfl := Option.some.inj hstep
    exact h.resets s.poisoned (.inl (Option.isNone_iff_eq_none.mp hfree)) (.inr rfl) (by simp [ResetPoint.locked])
      (by simp [ResetPoint.drained])
  case clearResetting =>
    obtain rfl := Option.some.inj hstep
    exact h.endReset hreset
  all_goals
    have hheld : s.wlock = some .reset := h.locks.reset.mp (by rw [hreset]; rfl)
  case poison =>
    obtain rfl := Option.some.inj hstep
    exact h.resets (s.poisoned + 1) (.inr hheld) (.inr hheld) (by simp [ResetPoint.locked, hheld])
      (by simp [ResetPoint.drained])
  case drain =>
    split_ifs at hstep with hidle
    obtain rfl := Option.some.inj hstep
    exact h.resets s.poisoned (.inr hheld) (.inr hheld) (by simp [ResetPoint.locked, hheld]) (fun _ => hidle)
  case between =>
    obtain rfl := Option.some.inj hstep
    exact h.resets (s.poisoned - 1) (.inr hheld) (.inr hheld) (by simp [ResetPoint.locked, hheld])
      (fun _ => h.drained (by rw [hreset]; rfl))
  case unlock =>
    obtain rfl := Option.some.inj hstep
    exact h.resets s.poisoned (.inr hheld) (.inl rfl) (by simp [ResetPoint.locked]) (by simp [ResetPoint.drained])

/-- The steps of the removal keep the invariant. -/
theorem Inv.disconnectStep_step {s' : WdmWrite ι} (h : Inv s) (hstep : s.disconnectStep = some s') : Inv s' := by
  cases hdisconnect : s.disconnect <;> simp only [WdmWrite.disconnectStep, hdisconnect] at hstep
  case idle =>
    obtain rfl := Option.some.inj hstep
    have hlocks : Locks { s with disconnecting := true, disconnect := .mutexLock } :=
      ⟨h.locks.writer, h.locks.reset, (iff_of_eq (by rw [hdisconnect]; rfl)).trans h.locks.disconnect⟩
    exact ⟨hlocks, { h.owned with }, fun j => { h.ready j with }, h.busy, h.outbuf, h.drained, h.proper⟩
  case mutexLock =>
    split_ifs at hstep with hfree
    obtain rfl := Option.some.inj hstep
    exact h.disconnects s.poisoned (.inl (Option.isNone_iff_eq_none.mp hfree)) (.inr rfl)
      (by simp [DisconnectPoint.locked])
  case returned => exact absurd hstep (by simp)
  all_goals
    have hheld : s.wlock = some .disconnect := h.locks.disconnect.mp (by rw [hdisconnect]; rfl)
  case poison =>
    obtain rfl := Option.some.inj hstep
    exact h.disconnects (s.poisoned + 1) (.inr hheld) (.inr hheld) (by simp [DisconnectPoint.locked, hheld])
  case drain =>
    split_ifs at hstep with hidle
    obtain rfl := Option.some.inj hstep
    exact h.disconnects s.poisoned (.inr hheld) (.inr hheld) (by simp [DisconnectPoint.locked, hheld])
  case unlock =>
    obtain rfl := Option.some.inj hstep
    exact h.disconnects s.poisoned (.inr hheld) (.inl rfl) (by simp [DisconnectPoint.locked])

end Shared

variable [DecidableEq ι]

section Moves

variable {s : WdmWrite ι} {i : ι} {w : Writer}

/-- Other calls stay where they are. -/
@[simp] theorem set_writers (s : WdmWrite ι) (i j : ι) (w : Writer) :
    (s.set i w).writers j = if j = i then w else s.writers j := by
  simp [WdmWrite.set, Function.update_apply]

/-- The mutex stays with who holds it when a call moves inside or outside of the section. -/
theorem Locks.move (h : Locks s) (hlocked : w.pc.locked = (s.writers i).pc.locked) : Locks (s.set i w) := by
  refine ⟨fun j => ?_, h.reset, h.disconnect⟩
  have hwriter := h.writer j
  rw [set_writers]
  split
  · rename_i hj
    subst hj
    rw [hlocked]
    exact hwriter
  · exact hwriter

/-- A free mutex goes to a call that enters the section. -/
theorem Locks.acquire (h : Locks s) (hfree : s.wlock = none) (hlocked : w.pc.locked = true) :
    Locks ({ s with wlock := some (.writer i) }.set i w) := by
  refine ⟨fun j => ?_, ?_, ?_⟩
  · have hwriter := h.writer j
    rw [hfree] at hwriter
    rw [set_writers]
    split
    · rename_i hj
      subst hj
      exact iff_of_true hlocked rfl
    · rename_i hj
      exact iff_of_false (fun hlock => by simpa using hwriter.mp hlock) fun heq =>
        hj (Wlock.writer.inj (Option.some.inj heq)).symm
  · exact iff_of_false (fun hlock => by simpa [hfree] using h.reset.mp hlock) (by simp [WdmWrite.set])
  · exact iff_of_false (fun hlock => by simpa [hfree] using h.disconnect.mp hlock) (by simp [WdmWrite.set])

/-- The mutex is free when its holder leaves the section. -/
theorem Locks.release (h : Locks s) (hheld : (s.writers i).pc.locked = true) (hlocked : w.pc.locked = false) :
    Locks ({ s with wlock := none }.set i w) := by
  have hwlock := (h.writer i).mp hheld
  refine ⟨fun j => ?_, ?_, ?_⟩
  · rw [set_writers]
    split
    · exact iff_of_false (by simp [hlocked]) (by simp [WdmWrite.set])
    · rename_i hj
      exact iff_of_false (fun hlock => hj (h.eq hlock hheld)) (by simp [WdmWrite.set])
  · exact iff_of_false (fun hlock => by simpa [hwlock] using h.reset.mp hlock) (by simp [WdmWrite.set])
  · exact iff_of_false (fun hlock => by simpa [hwlock] using h.disconnect.mp hlock) (by simp [WdmWrite.set])

/-- What a call that moves on owns. -/
theorem owns_set {j : ι} {k : ℕ} :
    (s.set i w).Owns j k ↔ if j = i then w.pc.owns = true ∧ w.buf = k else s.Owns j k := by
  rw [WdmWrite.Owns, set_writers]
  split <;> rfl

/-- A call that lets go of its buffer leaves the others theirs. -/
theorem owns_released {j : ι} {k : ℕ} (hw : w.pc.owns = false) : (s.set i w).Owns j k ↔ j ≠ i ∧ s.Owns j k := by
  rw [owns_set]
  split
  · rename_i hj
    simp [hj, hw]
  · rename_i hj
    exact (and_iff_right hj).symm

/-- A call that keeps its buffer keeps the invariant, if the mutex is where it belongs. -/
theorem Inv.relock (h : Inv s) {wlock : Option (Wlock ι)} (hlocks : Locks ({ s with wlock := wlock }.set i w))
    (howns : w.pc.owns = (s.writers i).pc.owns) (hbuf : w.pc.owns = true → w.buf = (s.writers i).buf)
    (hready : Ready s w) : Inv ({ s with wlock := wlock }.set i w) := by
  have hsame : ∀ j k, ({ s with wlock := wlock }.set i w).Owns j k ↔ s.Owns j k := by
    intro j k
    rw [owns_set]
    split
    · rename_i hj
      subst hj
      rw [WdmWrite.Owns, ← howns]
      exact and_congr_right fun hown => by rw [hbuf hown]
    · rfl
  refine ⟨hlocks, ⟨fun j l k hj hl => ?_, fun j k hj => ?_, fun k => ?_, h.owned.bounded⟩, fun j => ?_, h.busy,
    h.outbuf, h.drained, h.proper⟩
  · exact h.owned.distinct j l k ((hsame j k).mp hj) ((hsame l k).mp hl)
  · exact h.owned.apart j k ((hsame j k).mp hj)
  · exact (h.owned.live k).trans (or_congr_left (exists_congr fun j => (hsame j k).symm))
  · rw [set_writers]
    split
    · exact { hready with }
    · exact { h.ready j with }

/-- A call that stays inside or outside of the section, with the same buffer, keeps the invariant. -/
theorem Inv.move (h : Inv s) (hlocked : w.pc.locked = (s.writers i).pc.locked)
    (howns : w.pc.owns = (s.writers i).pc.owns) (hbuf : w.pc.owns = true → w.buf = (s.writers i).buf)
    (hready : Ready s w) : Inv (s.set i w) :=
  h.relock (h.locks.move hlocked) howns hbuf hready

/-- A buffer is allocated. -/
theorem Inv.alloc (h : Inv s) (hpc : (s.writers i).pc = .memdupUser) (hwpc : w.pc = .mutexLock)
    (hbuf : w.buf = s.next) :
    Inv ({ s with live := insert s.next s.live, next := s.next + 1 }.set i w) := by
  have hold : ∀ j k, s.Owns j k → k < s.next := fun j k hj =>
    h.owned.bounded k ((h.owned.live k).mpr (.inl ⟨j, hj⟩))
  have hsent : ∀ k, s.command.buffer = some k → k < s.next := fun k hk =>
    h.owned.bounded k ((h.owned.live k).mpr (.inr hk))
  have howns : ∀ j k, ({ s with live := insert s.next s.live, next := s.next + 1 }.set i w).Owns j k ↔
      (j = i ∧ k = s.next) ∨ s.Owns j k := by
    intro j k
    rw [owns_set]
    split
    · rename_i hj
      subst hj
      have hnone : ¬ s.Owns j k := fun hown => absurd hown.1 (by rw [hpc]; decide)
      rw [hwpc, hbuf]
      simp [hnone, WritePoint.owns, eq_comm]
    · rename_i hj
      simp only [hj, false_and, false_or]
      rfl
  have hlocks : Locks { s with live := insert s.next s.live, next := s.next + 1 } := { h.locks with }
  refine ⟨hlocks.move (by rw [hwpc, hpc]; rfl), ⟨fun j l k hj hl => ?_, fun j k hj => ?_, fun k => ?_,
    fun k hk => ?_⟩, fun j => ?_, h.busy, h.outbuf, h.drained, h.proper⟩
  · rcases (howns j k).mp hj with ⟨rfl, rfl⟩ | hj
    · rcases (howns l s.next).mp hl with ⟨rfl, _⟩ | hl
      · rfl
      · exact absurd (hold l _ hl) (Nat.lt_irrefl _)
    · rcases (howns l k).mp hl with ⟨_, rfl⟩ | hl
      · exact absurd (hold j _ hj) (Nat.lt_irrefl _)
      · exact h.owned.distinct j l k hj hl
  · rcases (howns j k).mp hj with ⟨_, rfl⟩ | hj
    · exact fun hsub => absurd (hsent _ hsub) (Nat.lt_irrefl _)
    · exact h.owned.apart j k hj
  · refine Finset.mem_insert.trans ?_
    rw [h.owned.live k]
    simp only [howns, exists_or, exists_eq_left, or_assoc]
    rfl
  · rcases Finset.mem_insert.mp hk with rfl | hk
    · exact Nat.lt_succ_self _
    · exact Nat.lt_succ_of_lt (h.owned.bounded k hk)
  · rw [set_writers]
    split
    · exact .of_pc (.inr (.inr (.inl hwpc)))
    · exact { h.ready j with }

/-- A call frees the buffer it owns. -/
theorem Inv.free (h : Inv s) (hpc : (s.writers i).pc = .kfree) (hwpc : w.pc = .returned) :
    Inv ((s.free (s.writers i).buf).set i w) := by
  have hown : s.Owns i (s.writers i).buf := ⟨by rw [hpc]; rfl, rfl⟩
  have howns : ∀ j k, ((s.free (s.writers i).buf).set i w).Owns j k ↔ j ≠ i ∧ s.Owns j k := fun j k =>
    owns_released (by rw [hwpc]; rfl)
  have hlocks : Locks (s.free (s.writers i).buf) := { h.locks with }
  refine ⟨hlocks.move (by rw [hwpc]; exact hpc ▸ rfl), ⟨fun j l k hj hl => ?_, fun j k hj => ?_, fun k => ?_,
    fun k hk => ?_⟩, fun j => ?_, h.busy, h.outbuf, h.drained, ?_⟩
  · exact h.owned.distinct j l k ((howns j k).mp hj).2 ((howns l k).mp hl).2
  · exact h.owned.apart j k ((howns j k).mp hj).2
  · refine Finset.mem_erase.trans ?_
    rw [h.owned.live k]
    simp only [howns]
    constructor
    · rintro ⟨hne, ⟨j, hj⟩ | hsent⟩
      · exact .inl ⟨j, fun hji => hne (hj.2.symm.trans (hji ▸ rfl)), hj⟩
      · exact .inr hsent
    · rintro (⟨j, hji, hj⟩ | hsent)
      · exact ⟨fun hk => hji (h.owned.distinct j i k hj (hk ▸ hown)), .inl ⟨j, hj⟩⟩
      · exact ⟨fun hk => h.owned.apart i _ hown (hk ▸ hsent), .inr hsent⟩
  · exact h.owned.bounded k (Finset.mem_of_mem_erase hk)
  · rw [set_writers]
    split
    · exact .of_pc (by simp [hwpc])
    · exact { h.ready j with }
  · have hlive : (s.writers i).buf ∈ s.live := (h.owned.live _).mpr (.inl ⟨i, hown⟩)
    simp [WdmWrite.set, WdmWrite.free, h.proper, hlive]

/-- A call hands its buffer on with the command. -/
theorem Inv.submitted (h : Inv s) (hpc : (s.writers i).pc = .submitUrb) (hwpc : w.pc = .unlockSubmitted) :
    Inv ({ s with
      command := .submitted s.transferBuffer
      misused := s.misused || decide (s.command ≠ Command.idle) }.set i w) := by
  have hready := h.ready i
  have hidle : s.command = .idle := hready.sends (by rw [hpc]; rfl)
  have hbuf : s.transferBuffer = (s.writers i).buf := hready.filled (by rw [hpc]; rfl)
  have hown : s.Owns i s.transferBuffer := ⟨by rw [hpc]; rfl, hbuf.symm⟩
  have howns : ∀ j k, ({ s with
      command := .submitted s.transferBuffer
      misused := s.misused || decide (s.command ≠ Command.idle) }.set i w).Owns j k ↔ j ≠ i ∧ s.Owns j k :=
    fun j k => owns_released (by rw [hwpc]; rfl)
  have hlocked : (s.writers i).pc.locked = true := by rw [hpc]; rfl
  have hlocks : Locks { s with
      command := .submitted s.transferBuffer
      misused := s.misused || decide (s.command ≠ Command.idle) } := { h.locks with }
  refine ⟨hlocks.move (by rw [hwpc]; exact hpc ▸ rfl), ⟨fun j l k hj hl => ?_, fun j k hj => ?_, fun k => ?_,
    h.owned.bounded⟩, fun j => ?_, fun _ => hready.marked (by rw [hpc]; rfl), fun k hk => ?_, fun hdrained => ?_,
    ?_⟩
  · exact h.owned.distinct j l k ((howns j k).mp hj).2 ((howns l k).mp hl).2
  · rintro hsub
    obtain rfl := Option.some.inj hsub
    exact ((howns j _).mp hj).1 (h.owned.distinct j i _ ((howns j _).mp hj).2 hown)
  · refine (h.owned.live k).trans ⟨?_, ?_⟩
    · rintro (⟨j, hj⟩ | hsent)
      · by_cases hji : j = i
        · exact .inr (congrArg some (hbuf.trans (hji ▸ hj.2)))
        · exact .inl ⟨j, (howns j k).mpr ⟨hji, hj⟩⟩
      · exact absurd hsent (by simp [hidle, Command.buffer])
    · rintro (⟨j, hj⟩ | hsub)
      · exact .inl ⟨j, ((howns j k).mp hj).2⟩
      · exact .inl ⟨i, Option.some.inj hsub ▸ hown⟩
  · rw [set_writers]
    split
    · exact .of_pc (by simp [hwpc])
    · rename_i hj
      have hout : (s.writers j).pc.locked = false := by
        by_contra hin
        exact hj (h.locks.eq (by simpa using hin) hlocked)
      exact .of_unlocked hout
  · exact hready.outbuf hpc ▸ hbuf ▸ hk
  · have hreset : s.reset.locked = true := by
      cases hr : s.reset <;> simp_all [ResetPoint.drained, ResetPoint.locked, WdmWrite.set]
    exact absurd ((h.locks.reset.mp hreset).symm.trans ((h.locks.writer i).mp hlocked)) (by simp)
  · simp [WdmWrite.set, h.proper, hidle]

/-- A call that stays inside or outside of the section moves on. -/
theorem Inv.goto (h : Inv s) {pc : WritePoint} (hlocked : pc.locked = (s.writers i).pc.locked)
    (howns : pc.owns = (s.writers i).pc.owns) (hready : Ready s { s.writers i with pc := pc }) :
    Inv (s.goto i pc) :=
  h.move hlocked howns (fun _ => rfl) hready

/-- A call that stays inside or outside of the section moves on with a result. -/
theorem Inv.leave (h : Inv s) {pc : WritePoint} (rv : ℤ) (hlocked : pc.locked = (s.writers i).pc.locked)
    (howns : pc.owns = (s.writers i).pc.owns) (hready : Ready s { s.writers i with rv := rv, pc := pc }) :
    Inv (s.leave i rv pc) :=
  h.move hlocked howns (fun _ => rfl) hready

/-- The steps of `wdm_write` keep the invariant. -/
theorem Inv.run_step {usbTranslateErrors : ℤ → ℤ} {s' : WdmWrite ι} (h : Inv s)
    (hstep : s.run usbTranslateErrors i = some s') : Inv s' := by
  have hready := h.ready i
  cases hpc : (s.writers i).pc <;> simp only [WdmWrite.run, hpc] at hstep
  case werr =>
    have hquiet := h.quiet 0 s.poisoned s.disconnecting
    split_ifs at hstep <;> obtain rfl := Option.some.inj hstep
    · exact hquiet.leave _ (by rw [hpc]; rfl) (by rw [hpc]; rfl) (.of_pc (by simp))
    · exact hquiet.goto (by rw [hpc]; rfl) (by rw [hpc]; rfl) (.of_pc (by simp))
  case memdupUser =>
    obtain rfl := Option.some.inj hstep
    exact h.alloc hpc rfl rfl
  case mutexLock =>
    split_ifs at hstep with hfree
    obtain rfl := Option.some.inj hstep
    exact h.relock (h.locks.acquire (Option.isNone_iff_eq_none.mp hfree) rfl) (by rw [hpc]; rfl) (fun _ => rfl)
      (.of_pc (by simp))
  case disconnecting =>
    split_ifs at hstep <;> obtain rfl := Option.some.inj hstep
    · exact h.leave _ (by rw [hpc]; rfl) (by rw [hpc]; rfl) (.of_pc (by simp))
    · exact h.goto (by rw [hpc]; rfl) (by rw [hpc]; rfl) (.of_pc (by simp))
  case autopm => exact absurd hstep (by simp)
  case wait =>
    -- a call that does not wait, or waits no more, goes on with a free request block, or to a reset
    have hfree : s.inUse = false → s.command = .idle ∨ s.resetting = true := by
      intro hfree
      by_cases hidle : s.command = .idle
      · exact .inl hidle
      · exact .inr ((h.busy hidle).resolve_left (by simp [hfree]))
    split_ifs at hstep with hnonblock huse huse <;> obtain rfl := Option.some.inj hstep
    all_goals
      refine h.move (by rw [hpc]; rfl) (by rw [hpc]; rfl) (fun _ => rfl) ?_
      refine ⟨fun _ hr => ?_, by simp, by simp [WritePoint.sends], by simp [WritePoint.filled], by simp,
        by simp [WritePoint.marked]⟩
    · exact absurd hr (by simp [eagain])
    · exact hfree (by simpa using huse)
    · exact hfree (by simpa using huse)
  case resetting =>
    obtain rfl := Option.some.inj hstep
    refine h.move (by rw [hpc]; rfl) (by rw [hpc]; rfl) (fun _ => rfl) ?_
    refine ⟨by simp, fun _ hr => ?_, by simp [WritePoint.sends], by simp [WritePoint.filled], by simp,
      by simp [WritePoint.marked]⟩
    by_cases hreset : s.resetting = true
    · simp only [hreset, if_true] at hr
      exact absurd hr (by decide)
    · simp only [hreset] at hr
      exact (hready.resetting hpc hr).resolve_right hreset
  case gone =>
    split_ifs at hstep with hgone hr hr <;> obtain rfl := Option.some.inj hstep
    · exact h.move (by rw [hpc]; rfl) (by rw [hpc]; rfl) (fun _ => rfl) (.of_pc (by simp))
    · exact absurd (by decide) hr
    · exact h.move (by rw [hpc]; rfl) (by rw [hpc]; rfl) (fun _ => rfl) (.of_pc (by simp))
    · refine h.move (by rw [hpc]; rfl) (by rw [hpc]; rfl) (fun _ => rfl) (.of_idle ?_ (by rfl) (by simp) (by rfl))
      exact hready.gone hpc (Int.not_lt.mp hr)
  case fillUrb =>
    obtain rfl := Option.some.inj hstep
    refine (h.fill hpc (s.writers i).buf).goto (by rw [hpc]; rfl) (by rw [hpc]; rfl) ?_
    exact ⟨by simp, by simp, fun _ => hready.sends (by rw [hpc]; rfl), fun _ => rfl, by simp,
      by simp [WritePoint.marked]⟩
  case setInUse =>
    obtain rfl := Option.some.inj hstep
    refine (h.mark (.inl rfl)).goto (by rw [hpc]; rfl) (by rw [hpc]; rfl) ?_
    exact ⟨by simp, by simp, fun _ => hready.sends (by rw [hpc]; rfl), fun _ => hready.filled (by rw [hpc]; rfl),
      by simp, fun _ => .inl rfl⟩
  case setOutbuf =>
    obtain rfl := Option.some.inj hstep
    have hidle : s.command = .idle := hready.sends (by rw [hpc]; rfl)
    have hnote := h.note (i := i) (by rw [hpc]; rfl) (by simp [hpc]) hidle (some (s.writers i).buf)
    refine hnote.goto (by rw [hpc]; rfl) (by rw [hpc]; rfl) ?_
    exact ⟨by simp, by simp, fun _ => hidle, fun _ => hready.filled (by rw [hpc]; rfl), fun _ => rfl,
      fun _ => hready.marked (by rw [hpc]; rfl)⟩
  case submitUrb => exact absurd hstep (by simp)
  case dropOutbuf =>
    obtain rfl := Option.some.inj hstep
    have hidle : s.command = .idle := hready.sends (by rw [hpc]; rfl)
    exact (h.note (i := i) (by rw [hpc]; rfl) (by simp [hpc]) hidle none).goto (by rw [hpc]; rfl) (by rw [hpc]; rfl)
      (.of_idle hidle (by rfl) (by simp) (by rfl))
  case dropInUse =>
    obtain rfl := Option.some.inj hstep
    have hidle : s.command = .idle := hready.sends (by rw [hpc]; rfl)
    refine (h.mark (.inr (.inr ⟨hidle, fun j => ?_⟩))).leave _ (by rw [hpc]; rfl) (by rw [hpc]; rfl)
      (.of_pc (by simp))
    refine Bool.eq_false_iff.mpr fun hmarked => ?_
    have hlocked : (s.writers j).pc.locked = true := by
      cases hj : (s.writers j).pc <;> simp_all [WritePoint.marked, WritePoint.locked]
    obtain rfl := h.locks.eq hlocked (show (s.writers i).pc.locked = true by rw [hpc]; rfl)
    exact absurd hmarked (by rw [hpc]; decide)
  case unlock =>
    obtain rfl := Option.some.inj hstep
    exact h.relock (h.locks.release (by rw [hpc]; rfl) rfl) (by rw [hpc]; rfl) (fun _ => rfl) (.of_pc (by simp))
  case kfree =>
    obtain rfl := Option.some.inj hstep
    exact h.free hpc rfl
  case unlockSubmitted =>
    obtain rfl := Option.some.inj hstep
    exact h.relock (h.locks.release (by rw [hpc]; rfl) rfl) (by rw [hpc]; rfl) (fun _ => rfl) (.of_pc (by simp))
  case returned => exact absurd hstep (by simp)

/-- The submission of the command, accepted or refused, keeps the invariant. -/
theorem Inv.submit_step (h : Inv s) (hpc : (s.writers i).pc = .submitUrb) (rv : ℤ) : Inv (s.submit i rv) := by
  have hidle : s.command = .idle := (h.ready i).sends (by rw [hpc]; rfl)
  simp only [WdmWrite.submit]
  generalize (if 0 < s.poisoned then -eperm else rv) = result
  split_ifs
  · exact h.leave _ (by rw [hpc]; rfl) (by rw [hpc]; rfl) (.of_idle hidle rfl (by simp) rfl)
  · exact h.submitted hpc rfl

/-- Every step keeps the invariant. -/
theorem Inv.step {usbTranslateErrors : ℤ → ℤ} {wMaxCommand : ℕ} {s' : WdmWrite ι} {l : WriteLabel ι} (h : Inv s)
    (hresetting : s.resetting = s.reset.announced)
    (hstep : (writeMachine usbTranslateErrors wMaxCommand).step s l = some s') : Inv s' := by
  cases l <;> simp only [writeMachine] at hstep
  case call i nonblock count =>
    split_ifs at hstep with hpc
    obtain rfl := Option.some.inj hstep
    exact h.move (by rw [hpc]; rfl) (by rw [hpc]; rfl) (by simp [WritePoint.owns]) (.of_pc (by simp))
  case run i => exact h.run_step hstep
  case memdupFails i err =>
    split_ifs at hstep with hpc
    obtain rfl := Option.some.inj hstep
    exact h.leave _ (by rw [hpc]; rfl) (by rw [hpc]; rfl) (.of_pc (by simp))
  case signal i =>
    split_ifs at hstep with hlock hwait <;> obtain rfl := Option.some.inj hstep
    · exact h.leave _ (by rw [hlock]; rfl) (by rw [hlock]; rfl) (.of_pc (by simp))
    · refine h.move (by rw [hwait.1]; rfl) (by rw [hwait.1]; rfl) (fun _ => rfl) ?_
      exact ⟨fun _ hr => absurd hr (by simp [erestartsys]), by simp, by simp [WritePoint.sends],
        by simp [WritePoint.filled], by simp, by simp [WritePoint.marked]⟩
  case autopm i r =>
    split_ifs at hstep with hpc hr <;> obtain rfl := Option.some.inj hstep
    · exact h.leave _ (by rw [hpc]; rfl) (by rw [hpc]; rfl) (.of_pc (by simp))
    · exact h.move (by rw [hpc]; rfl) (by rw [hpc]; rfl) (fun _ => rfl) (.of_pc (by simp))
  case submitUrb i rv =>
    split_ifs at hstep with hpc
    obtain rfl := Option.some.inj hstep
    exact h.submit_step hpc rv
  case complete status =>
    rcases hcommand : s.command with _ | buf | ⟨buf, _, _⟩ <;> simp only [hcommand, reduceCtorEq] at hstep
    obtain rfl := Option.some.inj hstep
    exact h.callback (o := s.outbuf) (by simp [hcommand]) s.werr (by rw [hcommand]; rfl)
      (fun k hk => h.outbuf k (by rw [hcommand]; exact hk)) (.inr rfl)
  case outCallback => exact h.outCallback_step hstep
  case reset => exact h.resetStep_step hresetting hstep
  case disconnect => exact h.disconnectStep_step hstep
  case waitForResponse =>
    obtain rfl := Option.some.inj hstep
    exact h.quiet 0 s.poisoned s.disconnecting

end Moves

end WdmWrite

end LinuxFunctionTest.CdcWdm
