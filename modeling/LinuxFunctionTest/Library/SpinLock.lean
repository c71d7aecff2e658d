import Mathlib.Order.Basic

/-!
# Spin locks and interrupts

A spin lock as one thread of control uses it, with the interrupts of the processor it runs on. The plain
operations leave the interrupts alone, the `irq` operations turn them off and on, and the `irqsave` operations
save and restore them. Taking a lock that is held and releasing one that is free is remembered as misuse.
-/

namespace LinuxFunctionTest

/-- A lock, whether interrupts are on, and whether the lock was misused. -/
structure SpinLock where
  held : Bool
  irqs : Bool
  misused : Bool
  deriving DecidableEq

namespace SpinLock

/-- `spin_lock`. -/
def lock (l : SpinLock) : SpinLock := { l with held := true, misused := l.misused || l.held }

/-- `spin_unlock`. -/
def unlock (l : SpinLock) : SpinLock := { l with held := false, misused := l.misused || !l.held }

/-- `spin_lock_irq`. -/
def lockIrq (l : SpinLock) : SpinLock := { l.lock with irqs := false }

/-- `spin_unlock_irq`. -/
def unlockIrq (l : SpinLock) : SpinLock := { l.unlock with irqs := true }

/-- `spin_lock_irqsave` with the flags it saves. -/
def lockIrqsave (l : SpinLock) : SpinLock × Bool := (l.lockIrq, l.irqs)

/-- `spin_unlock_irqrestore`. -/
def unlockIrqrestore (l : SpinLock) (flags : Bool) : SpinLock := { l.unlock with irqs := flags }

/-- The lock is held, and was not misused. -/
structure Held (l : SpinLock) : Prop where
  held : l.held = true
  proper : l.misused = false

/-- The lock is free, and was not misused. -/
structure Free (l : SpinLock) : Prop where
  free : l.held = false
  proper : l.misused = false

variable {l : SpinLock}

/-- A free lock can be taken. -/
theorem Free.lock (h : l.Free) : l.lock.Held := ⟨rfl, by simp [SpinLock.lock, h.free, h.proper]⟩

/-- A free lock can be taken with interrupts off. -/
theorem Free.lockIrq (h : l.Free) : l.lockIrq.Held := ⟨h.lock.held, h.lock.proper⟩

/-- A held lock can be released. -/
theorem Held.unlock (h : l.Held) : l.unlock.Free := ⟨rfl, by simp [SpinLock.unlock, h.held, h.proper]⟩

/-- A held lock can be released and interrupts turned on. -/
theorem Held.unlockIrq (h : l.Held) : l.unlockIrq.Free := ⟨h.unlock.free, h.unlock.proper⟩

/-- A held lock can be released and the interrupts restored. -/
theorem Held.unlockIrqrestore (h : l.Held) (flags : Bool) : (l.unlockIrqrestore flags).Free :=
  ⟨h.unlock.free, h.unlock.proper⟩

end SpinLock

end LinuxFunctionTest
