import LinuxFunctionTest.CdcWdm.Write
import Mathlib.Algebra.BigOperators.Group.Finset.Piecewise

/-!
# Runs of the writers of a WDM device

What every interleaving of the calls, the completions, a reset and the removal has in common: the one request block
is never handed to the controller twice, every buffer is freed once, nobody waits for ever for a flag or for the
mutex, and when all have returned the device is as it was at the start.
-/

namespace LinuxFunctionTest.CdcWdm

open Errno

/-- Between marking the request block as in use and its submission, or its release. -/
def WritePoint.uses : WritePoint → Bool
  | .setOutbuf | .submitUrb | .dropOutbuf | .dropInUse => true
  | _ => false

/-- Between noting the buffer and the submission, or forgetting it. -/
def WritePoint.notes : WritePoint → Bool
  | .submitUrb | .dropOutbuf => true
  | _ => false

/-- A command whose buffer the device still has a note of. -/
def Command.noted : Command → Bool
  | .idle | .completing _ _ .clearInUse => false
  | _ => true

/-- How often the reset has the request block poisoned. -/
def ResetPoint.poisons : ResetPoint → ℕ
  | .drain | .between => 1
  | _ => 0

/-- How often the removal has the request block poisoned. -/
def DisconnectPoint.poisons : DisconnectPoint → ℕ
  | .drain | .unlock | .returned => 1
  | _ => 0

/-- How many steps a call has before it at most, with those of the command it sends. -/
def WritePoint.rank : WritePoint → ℕ
  | .werr => 18
  | .memdupUser => 17
  | .mutexLock => 16
  | .disconnecting => 15
  | .autopm => 14
  | .wait => 13
  | .resetting => 12
  | .gone => 11
  | .fillUrb => 10
  | .setInUse => 9
  | .setOutbuf => 8
  | .submitUrb => 7
  | .dropOutbuf => 4
  | .dropInUse => 3
  | .unlock => 2
  | .kfree => 1
  | .unlockSubmitted => 1
  | .returned => 0

/-- How many steps a command has before it. -/
def Command.rank : Command → ℕ
  | .idle => 0
  | .submitted _ => 5
  | .completing _ _ .werr => 4
  | .completing _ _ .kfree => 3
  | .completing _ _ .clearOutbuf => 2
  | .completing _ _ .clearInUse => 1

/-- How many steps a reset has before it. -/
def ResetPoint.rank : ResetPoint → ℕ
  | .idle => 0
  | .clearInUse => 7
  | .mutexLock => 6
  | .poison => 5
  | .drain => 4
  | .between => 3
  | .clearResetting => 2
  | .unlock => 1

/-- How many steps the removal has before it, once it has begun. -/
def DisconnectPoint.rank : DisconnectPoint → ℕ
  | .idle => 0
  | .mutexLock => 4
  | .poison => 3
  | .drain => 2
  | .unlock => 1
  | .returned => 0

namespace WdmWrite

variable {ι : Type*}

/-- A step of what has already begun, without help from a signal: no new call, reset or removal. -/
def Settles (s : WdmWrite ι) : WriteLabel ι → Prop
  | .call _ _ _ | .signal _ | .waitForResponse => False
  | .reset => s.reset ≠ .idle
  | .disconnect => s.disconnect ≠ .idle
  | _ => True

/-- All calls have returned, no command is under way, and neither a reset nor the removal. -/
structure AtRest (s : WdmWrite ι) : Prop where
  writers : ∀ i, (s.writers i).pc = .returned
  command : s.command = .idle
  reset : s.reset = .idle
  disconnect : s.disconnect = .idle ∨ s.disconnect = .returned

/-- Every flag that is up has someone who will take it down. -/
structure Tidy (s : WdmWrite ι) : Prop where
  inUse : s.inUse = true → s.command ≠ .idle ∨ ∃ i, (s.writers i).pc.uses = true
  outbuf : s.outbuf ≠ none → s.command.noted = true ∨ ∃ i, (s.writers i).pc.notes = true
  resetting : s.resetting = s.reset.announced
  poisoned : s.poisoned = s.reset.poisons + s.disconnect.poisons

section Shared

variable {s s' : WdmWrite ι}

/-- The completion takes down its flags one after the other. -/
theorem Tidy.outCallback_step (h : Tidy s) (hstep : s.outCallback = some s') : Tidy s' := by
  rcases hcommand : s.command with _ | buf | ⟨buf, status, point⟩
  · simp [WdmWrite.outCallback, hcommand] at hstep
  · simp [WdmWrite.outCallback, hcommand] at hstep
  cases point <;> simp only [WdmWrite.outCallback, hcommand, Option.some.injEq] at hstep <;> subst hstep
  case werr => exact { h with inUse := fun _ => .inl (by simp), outbuf := fun _ => .inl rfl }
  case kfree =>
    cases s.outbuf <;>
      exact { h with inUse := fun _ => .inl (by simp), outbuf := fun _ => .inl rfl }
  case clearOutbuf => exact { h with inUse := fun _ => .inl (by simp), outbuf := fun hout => absurd rfl hout }
  case clearInUse =>
    refine { h with inUse := by simp, outbuf := fun hout => .inr ?_ }
    exact (h.outbuf hout).resolve_left (by rw [hcommand]; exact Bool.false_ne_true)

/-- The reset takes down its flags. -/
theorem Tidy.resetStep_step (h : Tidy s) (hstep : s.resetStep = some s') : Tidy s' := by
  have hresetting := h.resetting
  have hpoisoned := h.poisoned
  cases hreset : s.reset <;> simp only [WdmWrite.resetStep, hreset] at hstep <;> rw [hreset] at hresetting hpoisoned
  case idle =>
    obtain rfl := Option.some.inj hstep
    exact { h with resetting := rfl, poisoned := hpoisoned }
  case clearInUse =>
    obtain rfl := Option.some.inj hstep
    exact { h with inUse := by simp, resetting := hresetting, poisoned := hpoisoned }
  case mutexLock =>
    split_ifs at hstep
    obtain rfl := Option.some.inj hstep
    exact { h with resetting := hresetting, poisoned := hpoisoned }
  case poison =>
    obtain rfl := Option.some.inj hstep
    refine { h with resetting := hresetting, poisoned := ?_ }
    simp only [hpoisoned, ResetPoint.poisons]
    omega
  case drain =>
    split_ifs at hstep
    obtain rfl := Option.some.inj hstep
    exact { h with resetting := hresetting, poisoned := hpoisoned }
  case between =>
    obtain rfl := Option.some.inj hstep
    refine { h with resetting := hresetting, poisoned := ?_ }
    simp only [hpoisoned, ResetPoint.poisons]
    omega
  case clearResetting =>
    obtain rfl := Option.some.inj hstep
    exact { h with resetting := rfl, poisoned := hpoisoned }
  case unlock =>
    obtain rfl := Option.some.inj hstep
    exact { h with resetting := hresetting, poisoned := hpoisoned }

/-- The removal leaves the request block poisoned. -/
theorem Tidy.disconnectStep_step (h : Tidy s) (hstep : s.disconnectStep = some s') : Tidy s' := by
  have hpoisoned := h.poisoned
  cases hdisconnect : s.disconnect <;> simp only [WdmWrite.disconnectStep, hdisconnect] at hstep <;>
    rw [hdisconnect] at hpoisoned
  case idle =>
    obtain rfl := Option.some.inj hstep
    exact { h with poisoned := hpoisoned }
  case mutexLock =>
    split_ifs at hstep
    obtain rfl := Option.some.inj hstep
    exact { h with poisoned := hpoisoned }
  case poison =>
    obtain rfl := Option.some.inj hstep
    refine { h with poisoned := ?_ }
    simp only [hpoisoned, DisconnectPoint.poisons]
  case drain =>
    split_ifs at hstep
    obtain rfl := Option.some.inj hstep
    exact { h with poisoned := hpoisoned }
  case unlock =>
    obtain rfl := Option.some.inj hstep
    exact { h with poisoned := hpoisoned }
  case returned => exact absurd hstep (by simp)

/-- Nobody writes at the start. -/
theorem Inv.start : Inv (wdmWriteStart ι) where
  locks := ⟨fun _ => by simp [wdmWriteStart, WritePoint.locked], by simp [wdmWriteStart, ResetPoint.locked],
    by simp [wdmWriteStart, DisconnectPoint.locked]⟩
  owned := ⟨by simp [wdmWriteStart, Owns, WritePoint.owns], by simp [wdmWriteStart, Owns, WritePoint.owns],
    by simp [wdmWriteStart, Owns, WritePoint.owns, Command.buffer], by simp [wdmWriteStart]⟩
  ready := fun _ => .of_pc (by simp [wdmWriteStart])
  busy := by simp [wdmWriteStart]
  outbuf := by simp [wdmWriteStart, Command.buffer]
  drained := by simp [wdmWriteStart]
  proper := rfl

/-- No flag is up at the start. -/
theorem Tidy.start : Tidy (wdmWriteStart ι) :=
  ⟨by simp [wdmWriteStart], by simp [wdmWriteStart], rfl, rfl⟩

/-- A call that waits for the request block waits for a command under way. -/
theorem Inv.waited (h : Inv s) (ht : Tidy s) (hidle : s.command = .idle) {i : ι}
    (hpc : (s.writers i).pc = .wait) : s.inUse = false := by
  refine Bool.eq_false_iff.mpr fun huse => ?_
  obtain ⟨j, hj⟩ := (ht.inUse huse).resolve_left (fun hbusy => hbusy hidle)
  have hlocked : (s.writers j).pc.locked = true := by
    cases hpcj : (s.writers j).pc <;> simp_all [WritePoint.uses, WritePoint.locked]
  obtain rfl := h.locks.eq hlocked (show (s.writers i).pc.locked = true by rw [hpc]; rfl)
  exact absurd hj (by rw [hpc]; decide)

end Shared

variable [DecidableEq ι]

section Moves

variable {s s' : WdmWrite ι} {i : ι} {w : Writer}

/-- A call may move on if it leaves no flag up behind it, unless the command has it to take down. -/
theorem Tidy.set (h : Tidy s)
    (huses : ((s.writers i).pc.uses = true → w.pc.uses = true) ∨ s.inUse = false ∨ s.command ≠ .idle)
    (hnotes : ((s.writers i).pc.notes = true → w.pc.notes = true) ∨ s.outbuf = none ∨ s.command.noted = true) :
    Tidy (s.set i w) := by
  have hkept : ∀ {p : WritePoint → Bool}, (p (s.writers i).pc = true → p w.pc = true) →
      (∃ j, p (s.writers j).pc = true) → ∃ j, p ((s.set i w).writers j).pc = true := by
    rintro p hp ⟨j, hj⟩
    refine ⟨j, ?_⟩
    rw [set_writers]
    split
    · rename_i hji
      exact hp (hji ▸ hj)
    · exact hj
  refine { h with inUse := fun huse => ?_, outbuf := fun hout => ?_ }
  · rcases huses with huses | hfree | hbusy
    · exact (h.inUse huse).imp_right (hkept huses)
    · exact absurd huse (by simp [WdmWrite.set, hfree])
    · exact .inl hbusy
  · rcases hnotes with hnotes | hnone | hnoted
    · exact (h.outbuf hout).imp_right (hkept hnotes)
    · exact absurd hnone hout
    · exact .inl hnoted

/-- A call that has no flag up may move on. -/
theorem Tidy.plain (h : Tidy s) (huses : (s.writers i).pc.uses = false) (hnotes : (s.writers i).pc.notes = false) :
    Tidy (s.set i w) :=
  h.set (.inl fun hup => absurd hup (by simp [huses])) (.inl fun hup => absurd hup (by simp [hnotes]))

/-- The steps of `wdm_write` leave no flag up behind them. -/
theorem Tidy.run_step {usbTranslateErrors : ℤ → ℤ} (h : Tidy s) (hstep : s.run usbTranslateErrors i = some s') :
    Tidy s' := by
  cases hpc : (s.writers i).pc <;> simp only [WdmWrite.run, hpc] at hstep
  case setInUse =>
    obtain rfl := Option.some.inj hstep
    have hmoved : Tidy (s.goto i .setOutbuf) :=
      h.plain (congrArg WritePoint.uses hpc) (congrArg WritePoint.notes hpc)
    exact { hmoved with inUse := fun _ => .inr ⟨i, by simp [WdmWrite.goto, WritePoint.uses]⟩ }
  case setOutbuf =>
    obtain rfl := Option.some.inj hstep
    have hmoved : Tidy (s.goto i .submitUrb) := h.set (.inl fun _ => rfl) (.inl (by simp [WritePoint.notes, hpc]))
    exact { hmoved with outbuf := fun _ => .inr ⟨i, by simp [WdmWrite.goto, WritePoint.notes]⟩ }
  case dropOutbuf =>
    obtain rfl := Option.some.inj hstep
    have hdropped : Tidy { s with outbuf := none } := { h with outbuf := by simp }
    exact hdropped.set (.inl fun _ => rfl) (.inr (.inl rfl))
  case dropInUse =>
    obtain rfl := Option.some.inj hstep
    have hdropped : Tidy { s with inUse := false } := { h with inUse := by simp }
    exact hdropped.set (.inr (.inl rfl)) (.inl (by simp [WritePoint.notes, hpc]))
  case autopm | submitUrb | returned => exact absurd hstep (by simp)
  all_goals
    try split_ifs at hstep
    all_goals
      obtain rfl := Option.some.inj hstep
      exact Tidy.plain { h with } (congrArg WritePoint.uses hpc) (congrArg WritePoint.notes hpc)

/-- The submission of the command leaves no flag up behind it. -/
theorem Tidy.submit_step (h : Tidy s) (rv : ℤ) : Tidy (s.submit i rv) := by
  simp only [WdmWrite.submit]
  generalize (if 0 < s.poisoned then -eperm else rv) = result
  split_ifs
  · exact h.set (.inl fun _ => rfl) (.inl fun _ => rfl)
  · have hsent : Tidy { s with
        command := .submitted s.transferBuffer
        misused := s.misused || decide (s.command ≠ Command.idle) } :=
      { h with inUse := fun _ => .inl (by simp), outbuf := fun _ => .inl rfl }
    exact hsent.set (.inr (.inr (by simp))) (.inr (.inr rfl))

/-- Every step leaves no flag up that nobody takes down. -/
theorem Tidy.step {usbTranslateErrors : ℤ → ℤ} {wMaxCommand : ℕ} {l : WriteLabel ι} (h : Tidy s)
    (hstep : (writeMachine usbTranslateErrors wMaxCommand).step s l = some s') : Tidy s' := by
  cases l <;> simp only [writeMachine] at hstep
  case run i => exact h.run_step hstep
  case submitUrb i rv =>
    split_ifs at hstep
    obtain rfl := Option.some.inj hstep
    exact h.submit_step rv
  case complete status =>
    rcases hcommand : s.command with _ | buf | ⟨buf, _, _⟩ <;> simp only [hcommand, reduceCtorEq] at hstep
    obtain rfl := Option.some.inj hstep
    exact { h with inUse := fun _ => .inl (by simp), outbuf := fun _ => .inl rfl }
  case outCallback => exact h.outCallback_step hstep
  case reset => exact h.resetStep_step hstep
  case disconnect => exact h.disconnectStep_step hstep
  case waitForResponse =>
    obtain rfl := Option.some.inj hstep
    exact { h with }
  case signal i =>
    split_ifs at hstep with hlock hwait <;> obtain rfl := Option.some.inj hstep
    · exact h.plain (congrArg WritePoint.uses hlock) (congrArg WritePoint.notes hlock)
    · exact h.plain (congrArg WritePoint.uses hwait.1) (congrArg WritePoint.notes hwait.1)
  case autopm i r =>
    split_ifs at hstep with hpc <;> obtain rfl := Option.some.inj hstep <;>
      exact h.plain (congrArg WritePoint.uses hpc) (congrArg WritePoint.notes hpc)
  case call | memdupFails =>
    split_ifs at hstep with hpc
    obtain rfl := Option.some.inj hstep
    exact h.plain (congrArg WritePoint.uses hpc) (congrArg WritePoint.notes hpc)

end Moves

section Runs

variable {s : WdmWrite ι} {usbTranslateErrors : ℤ → ℤ} {wMaxCommand : ℕ} {labels : List (WriteLabel ι)}

/-- Both invariants hold in every state that is reached. -/
theorem reached (hrun : (writeMachine usbTranslateErrors wMaxCommand).run (wdmWriteStart ι) labels = some s) :
    Inv s ∧ Tidy s := by
  have hstep : ∀ (s : WdmWrite ι) l t, Inv s ∧ Tidy s →
      (writeMachine usbTranslateErrors wMaxCommand).step s l = some t → Inv t ∧ Tidy t :=
    fun _ _ _ h ht => ⟨h.1.step h.2.resetting ht, h.2.step ht⟩
  exact Machine.run_invariant _ hstep ⟨Inv.start, Tidy.start⟩ hrun

end Runs

section Settling

variable {s t : WdmWrite ι} {usbTranslateErrors : ℤ → ℤ} {wMaxCommand : ℕ}

/-- A command under way has a step to take. -/
theorem command_enabled (hbusy : s.command ≠ .idle) :
    ∃ l, Settles s l ∧ ((writeMachine usbTranslateErrors wMaxCommand).step s l).isSome := by
  rcases hcommand : s.command with _ | buf | ⟨buf, status, point⟩
  · exact absurd hcommand hbusy
  · exact ⟨.complete 0, trivial, by simp [writeMachine, hcommand]⟩
  · refine ⟨.outCallback, trivial, ?_⟩
    cases point <;> simp [writeMachine, WdmWrite.outCallback, hcommand]

/-- A call has a step to take if it does not wait for the mutex. -/
theorem Inv.writer_enabled (h : Inv s) (ht : Tidy s) (hidle : s.command = .idle) {i : ι}
    (hpc : (s.writers i).pc ≠ .returned) (hfree : (s.writers i).pc = .mutexLock → s.wlock = none) :
    ∃ l, Settles s l ∧ ((writeMachine usbTranslateErrors wMaxCommand).step s l).isSome := by
  cases hi : (s.writers i).pc
  case returned => exact absurd hi hpc
  case autopm => exact ⟨.autopm i 0, trivial, by simp [writeMachine, hi]⟩
  case submitUrb => exact ⟨.submitUrb i 0, trivial, by simp [writeMachine, hi]⟩
  case wait =>
    refine ⟨.run i, trivial, ?_⟩
    cases hnonblock : (s.writers i).nonblock <;>
      simp [writeMachine, WdmWrite.run, hi, hnonblock, h.waited ht hidle hi]
  case mutexLock => exact ⟨.run i, trivial, by simp [writeMachine, WdmWrite.run, hi, hfree hi]⟩
  all_goals exact ⟨.run i, trivial, by simp [writeMachine, WdmWrite.run, hi]⟩

/-- Who holds the mutex has a step to take. -/
theorem Inv.holder_enabled (h : Inv s) (ht : Tidy s) (hidle : s.command = .idle) (hheld : s.wlock ≠ none) :
    ∃ l, Settles s l ∧ ((writeMachine usbTranslateErrors wMaxCommand).step s l).isSome := by
  obtain ⟨holder, hholder⟩ := Option.ne_none_iff_exists'.mp hheld
  cases holder with
  | writer i =>
    have hlocked := (h.locks.writer i).mpr hholder
    refine h.writer_enabled ht hidle (i := i) (fun hpc => ?_) (fun hpc => ?_)
    · exact absurd hlocked (by rw [hpc]; decide)
    · exact absurd hlocked (by rw [hpc]; decide)
  | reset =>
    have hlocked := h.locks.reset.mpr hholder
    refine ⟨.reset, fun hreset => absurd hlocked (by rw [hreset]; decide), ?_⟩
    cases hreset : s.reset <;> simp_all [writeMachine, WdmWrite.resetStep, ResetPoint.locked]
  | disconnect =>
    have hlocked := h.locks.disconnect.mpr hholder
    refine ⟨.disconnect, fun hreset => absurd hlocked (by rw [hreset]; decide), ?_⟩
    cases hdisconnect : s.disconnect <;> simp_all [writeMachine, WdmWrite.disconnectStep, DisconnectPoint.locked]

/-- Whatever has begun has a step to take. -/
theorem Inv.enabled (h : Inv s) (ht : Tidy s) (hbusy : ¬ AtRest s) :
    ∃ l, Settles s l ∧ ((writeMachine usbTranslateErrors wMaxCommand).step s l).isSome := by
  by_cases hidle : s.command = .idle
  · by_cases hfree : s.wlock = none
    · by_cases hwriters : ∀ i, (s.writers i).pc = .returned
      · by_cases hreset : s.reset = .idle
        · refine ⟨.disconnect, fun hdisconnect => hbusy ⟨hwriters, hidle, hreset, .inl hdisconnect⟩, ?_⟩
          have hreturned : s.disconnect ≠ .returned := fun hdisconnect =>
            hbusy ⟨hwriters, hidle, hreset, .inr hdisconnect⟩
          cases hdisconnect : s.disconnect <;> simp_all [writeMachine, WdmWrite.disconnectStep]
        · refine ⟨.reset, hreset, ?_⟩
          cases hpoint : s.reset <;> simp_all [writeMachine, WdmWrite.resetStep]
      · obtain ⟨i, hi⟩ := not_forall.mp hwriters
        exact h.writer_enabled ht hidle hi fun _ => hfree
    · exact h.holder_enabled ht hidle hfree
  · exact command_enabled hidle

variable [Fintype ι]

/-- How many steps all that has begun has before it at most. -/
def cost (s : WdmWrite ι) : ℕ :=
  ∑ i, (s.writers i).pc.rank + s.command.rank + s.reset.rank + s.disconnect.rank

/-- A call that moves on leaves the others as many steps as they had. -/
theorem cost_set (s : WdmWrite ι) (i : ι) (w : Writer) :
    (s.set i w).cost + (s.writers i).pc.rank = s.cost + w.pc.rank := by
  have hnew := Finset.add_sum_erase Finset.univ (fun j => ((s.set i w).writers j).pc.rank) (Finset.mem_univ i)
  have hold := Finset.add_sum_erase Finset.univ (fun j => (s.writers j).pc.rank) (Finset.mem_univ i)
  have hrest : ∑ j ∈ Finset.univ.erase i, ((s.set i w).writers j).pc.rank =
      ∑ j ∈ Finset.univ.erase i, (s.writers j).pc.rank :=
    Finset.sum_congr rfl fun j hj => by rw [set_writers, if_neg (Finset.ne_of_mem_erase hj)]
  have hself : ((s.set i w).writers i).pc.rank = w.pc.rank := by simp
  simp only [cost]
  simp only [hself, hrest] at hnew
  have hfields : (s.set i w).command = s.command ∧ (s.set i w).reset = s.reset ∧
      (s.set i w).disconnect = s.disconnect := ⟨rfl, rfl, rfl⟩
  rw [hfields.1, hfields.2.1, hfields.2.2]
  omega

/-- A call that moves on to a point nearer to its end lowers the cost. -/
theorem cost_lt {i : ι} {w : Writer} (hlt : w.pc.rank < (s.writers i).pc.rank) : (s.set i w).cost < s.cost := by
  have hcost := cost_set s i w
  omega

/-- A step of `wdm_write` lowers the cost. -/
theorem cost_run {i : ι} (hstep : s.run usbTranslateErrors i = some t) : t.cost < s.cost := by
  have hlt : ∀ {w : Writer} {pc : WritePoint}, (s.writers i).pc = pc → w.pc.rank < pc.rank →
      w.pc.rank < (s.writers i).pc.rank := fun hpc hrank => hpc ▸ hrank
  cases hpc : (s.writers i).pc <;> simp only [WdmWrite.run, hpc] at hstep
  case autopm | submitUrb | returned => exact absurd hstep (by simp)
  all_goals
    try split_ifs at hstep
    all_goals
      obtain rfl := Option.some.inj hstep
      exact cost_lt (hlt hpc (by simp [WritePoint.rank]))

/-- The submission of the command lowers the cost, with the steps of the command counted. -/
theorem cost_submit {i : ι} (hpc : (s.writers i).pc = .submitUrb) (rv : ℤ) : (s.submit i rv).cost < s.cost := by
  simp only [WdmWrite.submit]
  generalize (if 0 < s.poisoned then -eperm else rv) = result
  split_ifs
  · exact cost_lt (by rw [hpc]; simp [WritePoint.rank])
  · obtain ⟨u, hu⟩ : ∃ u : WdmWrite ι, u = { s with
        command := .submitted s.transferBuffer
        misused := s.misused || decide (s.command ≠ Command.idle) } := ⟨_, rfl⟩
    have hu_pc : (u.writers i).pc = .submitUrb := by rw [hu]; exact hpc
    have hsent : u.cost ≤ s.cost + 5 := by
      simp only [hu, cost, Command.rank]
      omega
    have hset : (u.leave i result .unlockSubmitted).cost + 7 = u.cost + 1 := by
      have hmoved := cost_set u i { u.writers i with rv := result, pc := .unlockSubmitted }
      rw [hu_pc] at hmoved
      exact hmoved
    rw [← hu]
    omega

/-- Every step of what has already begun lowers the cost. -/
theorem cost_step {l : WriteLabel ι} (hsettles : Settles s l)
    (hstep : (writeMachine usbTranslateErrors wMaxCommand).step s l = some t) : t.cost < s.cost := by
  cases l <;> simp only [writeMachine] at hstep
  case call | signal | waitForResponse => exact hsettles.elim
  case memdupFails i err =>
    split_ifs at hstep with hpc
    obtain rfl := Option.some.inj hstep
    exact cost_lt (by rw [hpc]; simp [WritePoint.rank])
  case run i => exact cost_run hstep
  case submitUrb i rv =>
    split_ifs at hstep with hpc
    obtain rfl := Option.some.inj hstep
    exact cost_submit hpc rv
  case autopm i r =>
    split_ifs at hstep with hpc <;> obtain rfl := Option.some.inj hstep <;>
      exact cost_lt (by rw [hpc]; simp [WritePoint.rank])
  case complete status =>
    rcases hcommand : s.command with _ | buf | ⟨buf, _, _⟩ <;> simp only [hcommand, reduceCtorEq] at hstep
    obtain rfl := Option.some.inj hstep
    simp [cost, hcommand, Command.rank]
  case outCallback =>
    rcases hcommand : s.command with _ | buf | ⟨buf, status, point⟩
    · simp [WdmWrite.outCallback, hcommand] at hstep
    · simp [WdmWrite.outCallback, hcommand] at hstep
    · cases point <;> simp only [WdmWrite.outCallback, hcommand, Option.some.injEq] at hstep <;> subst hstep
      case kfree => cases s.outbuf <;> simp [cost, hcommand, Command.rank, WdmWrite.free]
      all_goals simp [cost, hcommand, Command.rank]
  case reset =>
    cases hreset : s.reset <;> simp only [WdmWrite.resetStep, hreset] at hstep
    case idle => exact absurd hreset hsettles
    all_goals
      try split_ifs at hstep
      obtain rfl := Option.some.inj hstep
      simp [cost, hreset, ResetPoint.rank]
  case disconnect =>
    cases hdisconnect : s.disconnect <;> simp only [WdmWrite.disconnectStep, hdisconnect] at hstep
    case idle => exact absurd hdisconnect hsettles
    case returned => exact absurd hstep (by simp)
    all_goals
      try split_ifs at hstep
      obtain rfl := Option.some.inj hstep
      simp [cost, hdisconnect, DisconnectPoint.rank]

end Settling

/-- Of two calls the first sends its command while the second waits, and the device is about to answer. -/
def sendingLabels : List (WriteLabel Bool) :=
  List.flatten
    [[.call true false 8, .call false false 4], List.replicate 4 (.run true), [.autopm true 0],
      List.replicate 6 (.run true), [.run false, .submitUrb true 0, .run false, .run true],
      List.replicate 2 (.run false), [.autopm false 0]]

/-- The command completes, a reset begins while the second call is about to send, and its command is refused. -/
def settlingLabels : List (WriteLabel Bool) :=
  List.flatten
    [[.complete 0], List.replicate 4 .outCallback, List.replicate 3 (.run false), [.reset],
      List.replicate 3 (.run false), [.submitUrb false (-enodev)], List.replicate 4 (.run false),
      List.replicate 7 .reset]

/-- The first steps can all be taken. -/
theorem sendingLabels_enabled :
    ((writeMachine usbTranslateErrors 256).run (wdmWriteStart Bool) sendingLabels).isSome := by
  decide +kernel

/-- The device behind the first steps. -/
def sending : WdmWrite Bool := Option.get _ sendingLabels_enabled

/-- The first steps lead there. -/
theorem run_sending : (writeMachine usbTranslateErrors 256).run (wdmWriteStart Bool) sendingLabels = some sending :=
  Option.eq_some_of_isSome sendingLabels_enabled

/-- All the steps can be taken. -/
theorem settlingLabels_enabled :
    ((writeMachine usbTranslateErrors 256).run (wdmWriteStart Bool) (sendingLabels ++ settlingLabels)).isSome := by
  decide +kernel

/-- The device behind all the steps. -/
def settled : WdmWrite Bool := Option.get _ settlingLabels_enabled

/-- All the steps lead there. -/
theorem run_settled :
    (writeMachine usbTranslateErrors 256).run (wdmWriteStart Bool) (sendingLabels ++ settlingLabels) =
      some settled :=
  Option.eq_some_of_isSome settlingLabels_enabled

section Results

variable {translate : ℤ → ℤ} {wMaxCommand : ℕ} {labels : List (WriteLabel ι)} {s : WdmWrite ι}

/-- In every interleaving of calls, completions, a reset and the removal, the request block is filled and submitted
only while it is at rest and no buffer is freed twice, the command under way has a live buffer that no call still
owns, and at most one call is between the lock and its release. -/
theorem command_undisturbed
    (hrun : (writeMachine translate wMaxCommand).run (wdmWriteStart ι) labels = some s) :
    s.misused = false ∧ (∀ k, s.command.buffer = some k → k ∈ s.live ∧ s.outbuf = some k ∧ ∀ i, ¬ s.Owns i k) ∧
      (∀ i k, s.Owns i k → k ∈ s.live) ∧
      ∀ i j, (s.writers i).pc.locked = true → (s.writers j).pc.locked = true → i = j := by
  obtain ⟨hinv, _⟩ := reached hrun
  refine ⟨hinv.proper, fun k hk => ⟨(hinv.owned.live k).mpr (.inr hk), hinv.outbuf k hk, fun i hi => ?_⟩,
    fun i k hi => (hinv.owned.live k).mpr (.inl ⟨i, hi⟩), fun i j => hinv.locks.eq⟩
  exact hinv.owned.apart i k hi hk

/-- The first of two calls has handed on its buffer, and the second waits with its own. -/
theorem command_undisturbed_sending :
    sending.command = .submitted 0 ∧ (sending.writers false).pc = .wait ∧
      sending.misused = false ∧
      (∀ k, sending.command.buffer = some k →
        k ∈ sending.live ∧ sending.outbuf = some k ∧ ∀ i, ¬ sending.Owns i k) ∧
      (∀ i k, sending.Owns i k → k ∈ sending.live) ∧
      ∀ i j, (sending.writers i).pc.locked = true → (sending.writers j).pc.locked = true → i = j :=
  ⟨by decide +kernel, by decide +kernel, command_undisturbed run_sending⟩

/-- When everything has come to rest, every buffer has been freed, every flag is down and the mutex is free, and the
request block is poisoned only if the device is gone. -/
theorem clean_at_rest (hrun : (writeMachine translate wMaxCommand).run (wdmWriteStart ι) labels = some s)
    (hrest : s.AtRest) :
    s.live = ∅ ∧ s.outbuf = none ∧ s.inUse = false ∧ s.resetting = false ∧ s.wlock = none ∧
      (s.poisoned = if s.disconnect = .idle then 0 else 1) := by
  obtain ⟨hinv, htidy⟩ := reached hrun
  refine ⟨?_, ?_, ?_, ?_, ?_, ?_⟩
  · refine Finset.eq_empty_of_forall_notMem fun k hk => ?_
    rcases (hinv.owned.live k).mp hk with ⟨i, hi⟩ | hsent
    · exact absurd hi.1 (by rw [hrest.writers i]; decide)
    · exact absurd hsent (by simp [hrest.command, Command.buffer])
  · by_contra hout
    rcases htidy.outbuf hout with hnoted | ⟨i, hi⟩
    · exact absurd hnoted (by rw [hrest.command]; decide)
    · exact absurd hi (by rw [hrest.writers i]; decide)
  · refine Bool.eq_false_iff.mpr fun huse => ?_
    rcases htidy.inUse huse with hbusy | ⟨i, hi⟩
    · exact hbusy hrest.command
    · exact absurd hi (by rw [hrest.writers i]; decide)
  · rw [htidy.resetting, hrest.reset]
    rfl
  · by_contra hheld
    obtain ⟨holder, hholder⟩ := Option.ne_none_iff_exists'.mp hheld
    cases holder with
    | writer i => exact absurd ((hinv.locks.writer i).mpr hholder) (by rw [hrest.writers i]; decide)
    | reset => exact absurd (hinv.locks.reset.mpr hholder) (by rw [hrest.reset]; decide)
    | disconnect =>
      have hlocked := hinv.locks.disconnect.mpr hholder
      rcases hrest.disconnect with hdisconnect | hdisconnect <;> exact absurd hlocked (by rw [hdisconnect]; decide)
  · rw [htidy.poisoned, hrest.reset]
    rcases hrest.disconnect with hdisconnect | hdisconnect <;> rw [hdisconnect] <;> rfl

/-- One call has sent its command and the other was sent away by the reset. -/
theorem clean_at_rest_settled :
    (settled.writers true).rv = 8 ∧ (settled.writers false).rv = -enodev ∧
      settled.live = ∅ ∧ settled.outbuf = none ∧ settled.inUse = false ∧ settled.resetting = false ∧
      settled.wlock = none ∧ (settled.poisoned = if settled.disconnect = .idle then 0 else 1) := by
  refine ⟨by decide +kernel, by decide +kernel, clean_at_rest run_settled ⟨?_, ?_, ?_, ?_⟩⟩
  · decide +kernel
  · decide +kernel
  · decide +kernel
  · exact .inl (by decide +kernel)

/-- From every state that is reached, whichever of the pending steps are taken in whichever order, there is a bound
on how many can follow one another, and where no more can be taken everything is at rest: nobody waits for ever. -/
theorem writers_settle [Fintype ι]
    (hrun : (writeMachine translate wMaxCommand).run (wdmWriteStart ι) labels = some s) :
    ∃ bound, ∀ rest t, (writeMachine translate wMaxCommand).Guarded Settles s rest →
      (writeMachine translate wMaxCommand).run s rest = some t →
      rest.length ≤ bound ∧
        ((∀ l, t.Settles l → (writeMachine translate wMaxCommand).step t l = none) → t.AtRest) := by
  refine ⟨s.cost, fun rest t hguarded hrest => ⟨?_, fun hstuck => ?_⟩⟩
  · have hlength :=
      Machine.guarded_length_le _ (fun _ _ _ hsettles hstep => cost_step hsettles hstep) hguarded hrest
    omega
  · have hall : (writeMachine translate wMaxCommand).run (wdmWriteStart ι) (labels ++ rest) = some t := by
      rw [Machine.run_append, hrun]
      exact hrest
    obtain ⟨hinv, htidy⟩ := reached hall
    by_contra hbusy
    have henabled : ∃ l, Settles t l ∧ ((writeMachine translate wMaxCommand).step t l).isSome :=
      hinv.enabled htidy hbusy
    obtain ⟨l, hsettles, hsome⟩ := henabled
    rw [hstuck l hsettles] at hsome
    exact absurd hsome Bool.false_ne_true

/-- From where the first of two calls has sent its command and the second waits, all comes to rest. -/
theorem writers_settle_sending :
    ∃ bound, ∀ rest t, (writeMachine usbTranslateErrors 256).Guarded Settles sending rest →
      (writeMachine usbTranslateErrors 256).run sending rest = some t →
      rest.length ≤ bound ∧
        ((∀ l, t.Settles l → (writeMachine usbTranslateErrors 256).step t l = none) → t.AtRest) :=
  writers_settle run_sending

end Results

end WdmWrite

end LinuxFunctionTest.CdcWdm
