import LinuxFunctionTest.DummyUsb.Handlers

/-!
# Stopping the controller

`dummy_udc_stop` with the completion handlers it runs, as runs of the controller in which only this call and its
handlers move. The endpoints are drained one after another while the driver is still bound and the descriptors
are still there, which `dummy_disable` takes away first. A handler can queue a request on an endpoint that was
drained already, and then it stays there. The run is clean exactly when no handler does.
-/

namespace LinuxFunctionTest.DummyUsb

open Errno

/-- A step of the call or of a handler it runs. -/
inductive StopStep where
  | prepare (n length : ℕ) (complete : Bool) (bytes : ℕ → UInt8)
  | queue (i n : ℕ)
  | giveback
  | resume

/-- The step of the controller. The call works on the latest entry of `pending`. -/
def StopStep.toUdc : StopStep → UdcStep
  | .prepare n length complete bytes => .prepare n length complete bytes
  | .queue i n => .queue i n
  | .giveback => .giveback 0
  | .resume => .resume 0

/-- A handler of the gadget driver is running: a request of the driver was given back, and the call has not gone on
yet. -/
def HandlerRuns (dum : UoeUdc) : Prop := ∃ p rest, dum.pending = p :: rest ∧ p.given = true ∧ p.req ≠ .fifo

/-- What a step needs besides the controller's own checks. -/
def StopStep.Enabled (dum : UoeUdc) : StopStep → Prop
  | .prepare _ _ _ _ => HandlerRuns dum
  | .queue _ _ => HandlerRuns dum
  | .giveback => True
  | .resume => True

instance (dum : UoeUdc) : Decidable (HandlerRuns dum) :=
  match h : dum.pending with
  | [] => isFalse fun ⟨p, rest, hpending, _⟩ => absurd (h.symm.trans hpending) (by simp)
  | p :: rest =>
    decidable_of_iff (p.given = true ∧ p.req ≠ .fifo) (by
      constructor
      · exact fun hp => ⟨p, rest, h, hp⟩
      · rintro ⟨q, rest', hpending, hq⟩
        obtain ⟨rfl, -⟩ := List.cons.inj (h.symm.trans hpending)
        exact hq)

instance (dum : UoeUdc) (label : StopStep) : Decidable (label.Enabled dum) := by
  cases label <;> unfold StopStep.Enabled <;> infer_instance

/-- The runs of `dummy_udc_stop` that was called with `depth` calls under way: it has returned when no more are. -/
def stopMachine (depth : ℕ) : Machine UoeUdc StopStep where
  step dum label :=
    if depth < dum.pending.length ∧ label.Enabled dum then udcMachine.step dum label.toUdc else none

/-- The endpoint that is being drained; none is when the call has returned. -/
def drainsAt (depth : ℕ) (dum : UoeUdc) : ℕ :=
  match (dum.pending.take (dum.pending.length - depth)).getLast? with
  | some p =>
    match p.after with
    | .stop i => i
    | .finish | .nuke _ => dummyEndpoints
  | none => dummyEndpoints

/-- A request that is accepted is queued on the endpoint being drained, or on a later one. -/
def QueuesBehind (depth : ℕ) (dum : UoeUdc) : StopStep → Prop
  | .queue j n => Accepts dum j n → drainsAt depth dum ≤ j
  | .prepare _ _ _ _ => True
  | .giveback => True
  | .resume => True

/-- Nothing is left: every queue is empty, every request that was ever accepted was given back, and every later
`dummy_queue` is refused. -/
structure LeavesNothing (dum : UoeUdc) : Prop where
  empty : ∀ i < dummyEndpoints, (dum.ep i).queue = []
  given : ∀ n, dum.acceptedCount n = dum.givenCount (.user n)
  refused : ∀ i n, dummyQueue dum i n = (dum, (dummyQueue dum i n).2) ∧ (dummyQueue dum i n).2 ≠ 0

/-- Some endpoint that was drained has requests again. -/
def Refilled (depth : ℕ) (dum : UoeUdc) : Prop := ∃ j < drainsAt depth dum, (dum.ep j).queue ≠ []

/-- The call drains endpoint `i`, with calls of `dummy_queue` by its handlers above it and the other calls under way
below. -/
structure Stopping (others : List Pending) (i : ℕ) (dum : UoeUdc) : Prop where
  stack : ∃ calls p, dum.pending = calls ++ p :: others ∧ p.after = .stop i ∧ ∀ q ∈ calls, q.after = .finish
  lt : i < dummyEndpoints

/-- The call has returned. -/
structure Stopped (others : List Pending) (dum : UoeUdc) : Prop where
  pending : dum.pending = others
  driver : dum.driver = false

section Drains

variable {others : List Pending} {dum dum' : UoeUdc} {i : ℕ}

/-- The endpoint being drained is the one the call goes on with. -/
theorem Stopping.drainsAt (h : Stopping others i dum) : drainsAt others.length dum = i := by
  obtain ⟨calls, p, hpending, hafter, -⟩ := h.stack
  have htake : dum.pending.take (dum.pending.length - others.length) = calls ++ [p] := by
    have hlength : dum.pending.length - others.length = (calls ++ [p]).length := by
      rw [hpending]
      simp only [List.length_append, List.length_cons, List.length_nil]
      omega
    have hsplit : dum.pending = (calls ++ [p]) ++ others := by
      rw [hpending, List.append_assoc, List.singleton_append]
    rw [hlength, hsplit, List.take_left]
  unfold DummyUsb.drainsAt
  rw [htake, List.getLast?_concat]
  simp only [hafter]

/-- A call that has returned drains nothing any more. -/
theorem Stopped.drainsAt (h : Stopped others dum) : drainsAt others.length dum = dummyEndpoints := by
  unfold DummyUsb.drainsAt
  rw [h.pending, Nat.sub_self, List.take_zero]
  rfl

/-- `stop_activity` from endpoint `i` on: the call drains another endpoint or has returned, and the endpoints
passed by were empty. -/
theorem stopActivity_stops {first : ℕ} (hfirst : first ≤ dummyEndpoints) (hpending : dum.pending = others)
    (hdum : stopActivity dum (dummyEndpoints - first) = dum') :
    ((∃ i, Stopping others i dum') ∨ Stopped others dum') ∧
      (Refilled others.length dum' ↔ ∃ j < first, (dum.ep j).queue ≠ []) := by
  have hback : dummyEndpoints - (dummyEndpoints - first) = first := by omega
  obtain ⟨i, hle, hlt, hbefore, hpass⟩ | ⟨hall, heq⟩ := stopActivity_cases dum (dummyEndpoints - first)
  · rw [hback] at hle hbefore
    rw [hdum] at hpass
    obtain ⟨r, rest, -, hpass⟩ := nukeStep_cases hpass
    have hpend : dum'.pending = ⟨r, false, .stop i, false⟩ :: dum.pending := congrArg UoeUdc.pending hpass
    have hother : ∀ j, j ≠ i → (dum'.ep j).queue = (dum.ep j).queue := fun j hj => by
      rw [hpass]
      exact congrArg UoeEp.queue (Function.update_of_ne hj _ _)
    have hstopping : Stopping others i dum' :=
      ⟨⟨[], ⟨r, false, .stop i, false⟩, by rw [hpend, hpending]; rfl, rfl, fun q hq => absurd hq (by simp)⟩, hlt⟩
    refine ⟨.inl ⟨i, hstopping⟩, ?_⟩
    unfold Refilled
    rw [hstopping.drainsAt]
    constructor
    · rintro ⟨j, hji, hne⟩
      rw [hother j (by omega)] at hne
      refine ⟨j, ?_, hne⟩
      by_contra hge
      exact hne (hbefore j (by omega) hji)
    · rintro ⟨j, hj, hne⟩
      exact ⟨j, by omega, by rw [hother j (by omega)]; exact hne⟩
  · rw [hback] at hall
    rw [hdum] at heq
    subst heq
    have hstopped : Stopped others { dum with driver := false } := ⟨hpending, rfl⟩
    refine ⟨.inr hstopped, ?_⟩
    unfold Refilled
    rw [hstopped.drainsAt]
    constructor
    · rintro ⟨j, hj, hne⟩
      refine ⟨j, ?_, hne⟩
      by_contra hge
      exact hne (hall j (by omega) hj)
    · rintro ⟨j, hj, hne⟩
      exact ⟨j, by omega, hne⟩

end Drains

section Steps

variable {others : List Pending} {dum dum' : UoeUdc} {i : ℕ}

/-- The same endpoints are refilled when the queues and the endpoint being drained are the same. -/
theorem refilled_congr (h : Stopping others i dum) (h' : Stopping others i dum')
    (hqueue : ∀ j, (dum'.ep j).queue = (dum.ep j).queue) :
    Refilled others.length dum' ↔ Refilled others.length dum := by
  unfold Refilled
  rw [h.drainsAt, h'.drainsAt]
  simp only [hqueue]

/-- Another call of `dummy_queue` on top leaves the endpoint being drained. -/
theorem Stopping.push (h : Stopping others i dum) {q : Pending} (hq : q.after = .finish)
    (hpending : dum'.pending = q :: dum.pending) : Stopping others i dum' := by
  obtain ⟨calls, p, hstack, hafter, hcalls⟩ := h.stack
  refine ⟨⟨q :: calls, p, by rw [hpending, hstack]; rfl, hafter, ?_⟩, h.lt⟩
  exact List.forall_mem_cons.mpr ⟨hq, hcalls⟩

/-- A handler queues a request: the endpoint is refilled if it was drained already. -/
theorem dummyQueue_stopping (h : Stopping others i dum) (j n : ℕ) :
    Stopping others i (dummyQueue dum j n).1 ∧
      (Refilled others.length (dummyQueue dum j n).1 ↔
        Refilled others.length dum ∨ ¬ QueuesBehind others.length dum (.queue j n)) := by
  by_cases haccepts : Accepts dum j n
  · obtain ⟨-, -, -, -, hpath⟩ := dummyQueue_accepts haccepts rfl
    obtain ⟨r, hep, hstopping⟩ : ∃ r, (dummyQueue dum j n).1.ep =
        (dum.setQueue j ((dum.ep j).queue ++ [r])).ep ∧ Stopping others i (dummyQueue dum j n).1 := by
      split_ifs at hpath
      · exact ⟨.fifo, hpath.1, h.push rfl hpath.2.1⟩
      · exact ⟨.user n, hpath.1, ⟨hpath.2.1.symm ▸ h.stack, h.lt⟩⟩
    refine ⟨hstopping, ?_⟩
    have hguard : ¬ QueuesBehind others.length dum (.queue j n) ↔ j < i := by
      unfold QueuesBehind
      rw [h.drainsAt]
      simp only [haccepts, true_imp_iff, Nat.not_le]
    have hsame : (dum.setQueue j ((dum.ep j).queue ++ [r])).ep j =
        { dum.ep j with queue := (dum.ep j).queue ++ [r] } := Function.update_self _ _ _
    unfold Refilled
    rw [hstopping.drainsAt, h.drainsAt, hguard, hep]
    constructor
    · rintro ⟨k, hk, hne⟩
      by_cases hkj : k = j
      · exact .inr (hkj ▸ hk)
      · refine .inl ⟨k, hk, ?_⟩
        have hother : (dum.setQueue j ((dum.ep j).queue ++ [r])).ep k = dum.ep k :=
          Function.update_of_ne hkj _ _
        rwa [hother] at hne
    · rintro (⟨k, hk, hne⟩ | hji)
      · refine ⟨k, hk, ?_⟩
        by_cases hkj : k = j
        · rw [hkj, hsame]
          simp
        · have hother : (dum.setQueue j ((dum.ep j).queue ++ [r])).ep k = dum.ep k :=
            Function.update_of_ne hkj _ _
          rwa [hother]
      · exact ⟨j, hji, by rw [hsame]; simp⟩
  · rw [dummyQueue_refused haccepts]
    refine ⟨h, ?_⟩
    have hguard : QueuesBehind others.length dum (.queue j n) := fun hno => absurd hno haccepts
    simp only [hguard, not_true_eq_false, or_false]

/-- The latest call gives its request back. -/
theorem giveback_stopping (h : Stopping others i dum)
    (hstep : udcMachine.step dum (.giveback 0) = some dum') :
    Stopping others i dum' ∧ (Refilled others.length dum' ↔ Refilled others.length dum) := by
  obtain ⟨q, hq, -, rfl⟩ := udcMachine_step hstep
  obtain ⟨hep, hpending, -⟩ :=
    giveback_fields { dum with pending := dum.pending.set 0 { q with given := true } } q
  have hstopping : Stopping others i
      (giveback { dum with pending := dum.pending.set 0 { q with given := true } } q) := by
    obtain ⟨calls, p, hstack, hafter, hcalls⟩ := h.stack
    refine ⟨?_, h.lt⟩
    rw [hpending, hstack]
    cases calls with
    | nil =>
      obtain rfl : p = q := by simpa [hstack] using hq
      exact ⟨[], { p with given := true }, rfl, hafter, hcalls⟩
    | cons c calls =>
      obtain rfl : c = q := by simpa [hstack] using hq
      obtain ⟨hc, hcalls⟩ := List.forall_mem_cons.mp hcalls
      exact ⟨{ c with given := true } :: calls, p, rfl, hafter, List.forall_mem_cons.mpr ⟨hc, hcalls⟩⟩
  exact ⟨hstopping, refilled_congr h hstopping fun j => by rw [hep]⟩

/-- The latest call goes on: a call of `dummy_queue` returns, and the call itself goes on with its endpoint. -/
theorem resume_stopping (h : Stopping others i dum)
    (hstep : udcMachine.step dum (.resume 0) = some dum') :
    ((∃ k, Stopping others k dum') ∨ Stopped others dum') ∧
      (Refilled others.length dum' ↔ Refilled others.length dum) := by
  obtain ⟨q, hq, -, hdum⟩ := udcMachine_step hstep
  obtain ⟨calls, p, hstack, hafter, hcalls⟩ := h.stack
  cases calls with
  | nil =>
    obtain rfl : p = q := by simpa [hstack] using hq
    rw [hafter, hstack] at hdum
    obtain ⟨hinv, hrefilled⟩ := stopActivity_stops h.lt.le
      (show ({ dum with pending := others } : UoeUdc).pending = others from rfl) hdum.symm
    refine ⟨hinv, hrefilled.trans ?_⟩
    unfold Refilled
    rw [h.drainsAt]
  | cons c calls =>
    obtain rfl : c = q := by simpa [hstack] using hq
    obtain ⟨hc, hcalls⟩ := List.forall_mem_cons.mp hcalls
    rw [hc, hstack] at hdum
    have hstopping : Stopping others i dum' :=
      ⟨⟨calls, p, by rw [hdum]; rfl, hafter, hcalls⟩, h.lt⟩
    refine ⟨.inl ⟨i, hstopping⟩, refilled_congr h hstopping fun j => ?_⟩
    rw [hdum]
    rfl

/-- What one step of the call or of a handler does. -/
theorem stopMachine_step {label : StopStep} (hinv : (∃ i, Stopping others i dum) ∨ Stopped others dum)
    (hstep : (stopMachine others.length).step dum label = some dum') :
    ((∃ i, Stopping others i dum') ∨ Stopped others dum') ∧
      (Refilled others.length dum' ↔
        Refilled others.length dum ∨ ¬ QueuesBehind others.length dum label) := by
  obtain ⟨⟨hunder, -⟩, hstep⟩ := Option.ite_none_right_eq_some.mp hstep
  obtain ⟨i, h⟩ | hstopped := hinv
  · cases label with
    | prepare n length complete bytes =>
      obtain ⟨-, rfl⟩ := udcMachine_step hstep
      have hstopping : Stopping others i (prepare dum n length complete bytes) := ⟨h.stack, h.lt⟩
      refine ⟨.inl ⟨i, hstopping⟩, (refilled_congr h hstopping fun _ => rfl).trans ?_⟩
      simp only [QueuesBehind, not_true_eq_false, or_false]
    | queue j n =>
      obtain ⟨-, rfl⟩ := udcMachine_step hstep
      obtain ⟨hstopping, hrefilled⟩ := dummyQueue_stopping h j n
      exact ⟨.inl ⟨i, hstopping⟩, hrefilled⟩
    | giveback =>
      obtain ⟨hstopping, hrefilled⟩ := giveback_stopping h hstep
      simp only [QueuesBehind, not_true_eq_false, or_false]
      exact ⟨.inl ⟨i, hstopping⟩, hrefilled⟩
    | resume =>
      obtain ⟨hinv, hrefilled⟩ := resume_stopping h hstep
      simp only [QueuesBehind, not_true_eq_false, or_false]
      exact ⟨hinv, hrefilled⟩
  · rw [hstopped.pending] at hunder
    exact absurd hunder (lt_irrefl _)

/-- The run of the call keeps the accounting of the requests. -/
theorem stopMachine_accounted {depth : ℕ} {s t : UoeUdc} {labels : List StopStep} (hs : Accounted s)
    (hrun : (stopMachine depth).run s labels = some t) : Accounted t :=
  (stopMachine depth).run_invariant (fun s label t hs hstep => by
    obtain ⟨-, hstep⟩ := Option.ite_none_right_eq_some.mp hstep
    exact udcMachine_step_accounted s label.toUdc t hs hstep) hs hrun

end Steps

section Calls

variable {dum dum' : UoeUdc}

/-- Without a driver every request is refused. -/
theorem dummyQueue_unbound (hdriver : dum.driver = false) (i n : ℕ) :
    dummyQueue dum i n = (dum, (dummyQueue dum i n).2) ∧ (dummyQueue dum i n).2 ≠ 0 := by
  unfold dummyQueue
  simp only
  by_cases hrefused : dum.linked (.user n) = true ∨ ¬ (dum.req (.user n)).complete = true
  · rw [if_pos hrefused]
    exact ⟨rfl, by simp [einval]⟩
  · rw [if_neg hrefused]
    by_cases hdesc : (dum.ep i).desc.isNone = true ∧ i ≠ 0
    · rw [if_pos hdesc]
      exact ⟨rfl, by simp [einval]⟩
    · rw [if_neg hdesc, if_pos (by simp [hdriver])]
      exact ⟨rfl, by simp [eshutdown]⟩

/-- When the call has returned, nothing is left exactly when no queue was refilled and no other call still owes
a giveback. -/
theorem leavesNothing_iff (haccounted : Accounted dum') (hstopped : Stopped dum.pending dum') :
    LeavesNothing dum' ↔ ¬ Refilled dum.pending.length dum' ∧
      ∀ p ∈ dum.pending, p.given = false → p.req = .fifo := by
  have hdue : (∀ p ∈ dum.pending, p.given = false → p.req = .fifo) ↔
      ∀ n, dum'.dueCount (.user n) = 0 := by
    simp only [UoeUdc.dueCount, hstopped.pending, List.countP_eq_zero, Bool.and_eq_true, decide_eq_true_eq,
      Bool.not_eq_true', not_and, Bool.not_eq_false]
    constructor
    · intro h n p hp hreq
      by_contra hgiven
      rw [h p hp (by simpa using hgiven)] at hreq
      exact absurd hreq (by simp)
    · intro h p hp hgiven
      cases hreq : p.req with
      | fifo => rfl
      | user n => exact absurd (h n p hp hreq) (by simp [hgiven])
  have hempty : ¬ Refilled dum.pending.length dum' ↔ ∀ i < dummyEndpoints, (dum'.ep i).queue = [] := by
    unfold Refilled
    rw [hstopped.drainsAt]
    push Not
    rfl
  rw [hempty, hdue]
  have hlinked : (∀ i < dummyEndpoints, (dum'.ep i).queue = []) → ∀ r, dum'.linkedCount r = 0 := by
    intro h r
    rw [← linked_eq_false_iff, UoeUdc.linked, List.any_eq_false]
    intro i hi
    rw [h i (List.mem_range.mp hi)]
    simp
  constructor
  · intro h
    refine ⟨h.empty, fun n => ?_⟩
    have haccount := haccounted.1.accounted n
    have hgiven := h.given n
    omega
  · rintro ⟨hqueues, hdue⟩
    refine ⟨hqueues, fun n => ?_, dummyQueue_unbound hstopped.driver⟩
    rw [haccounted.1.accounted n, hdue n, hlinked hqueues]
    omega

/-- When `dummy_udc_stop` returns, nothing is left exactly when no handler had a request accepted on an endpoint
that was drained before, and no call that was under way before owes a giveback. -/
theorem leavesNothing_iff_queuesBehind (req : ReqRef → UsbRequest) (userBuf : ℕ → ℕ → UInt8)
    (before : List UdcStep) (hbefore : udcMachine.run (udcStart req userBuf) before = some dum)
    (labels : List StopStep) (hrun : (stopMachine dum.pending.length).run (dummyUdcStop dum) labels = some dum')
    (hreturn : dum'.pending.length = dum.pending.length) :
    LeavesNothing dum' ↔
      (stopMachine dum.pending.length).Guarded (QueuesBehind dum.pending.length) (dummyUdcStop dum) labels ∧
        ∀ p ∈ dum.pending, p.given = false → p.req = .fifo := by
  have haccounted : Accounted (dummyUdcStop dum) :=
    (udcMachine.run_invariant udcMachine_step_accounted (udcStart_accounted req userBuf) hbefore).of_transfers
      (dummyUdcStop_transfers dum)
  obtain ⟨hinv, hrefilled⟩ := stopActivity_stops (Nat.zero_le _)
    (show ({ dum with intsEnabled := false, address := 0 } : UoeUdc).pending = dum.pending from rfl)
    (show stopActivity _ (dummyEndpoints - 0) = dummyUdcStop dum from rfl)
  have hclean : ¬ Refilled dum.pending.length (dummyUdcStop dum) := by
    rw [hrefilled]
    rintro ⟨j, hj, -⟩
    exact absurd hj (Nat.not_lt_zero j)
  have hspoiled := (stopMachine dum.pending.length).run_spoiled_iff
    (fun s label t hs hstep => (stopMachine_step hs hstep).1)
    (fun s label t hs hstep => (stopMachine_step hs hstep).2) hinv hrun
  have hstopped : Stopped dum.pending dum' := by
    obtain ⟨i, h⟩ | h := (stopMachine dum.pending.length).run_invariant
      (fun s label t hs hstep => (stopMachine_step hs hstep).1) hinv hrun
    · obtain ⟨calls, p, hstack, -⟩ := h.stack
      rw [hstack, List.length_append, List.length_cons] at hreturn
      omega
    · exact h
  rw [leavesNothing_iff (stopMachine_accounted haccounted hrun) hstopped, hspoiled]
  simp only [hclean, false_or, not_not]

/-- An OUT endpoint 2 with request 7 on its queue, next to an OUT endpoint 1. -/
def queuedOut : List UdcStep := [.enable 1 0x01, .enable 2 0x02, .queue 2 7]

/-- The handler of request 7 does nothing. -/
theorem leavesNothing_iff_queuesBehind_quiet :
    ∃ dum dum', udcMachine.run (udcStart (fun _ => ⟨.user 7, 100, 0, 0, true⟩) fun _ _ => 0) queuedOut = some dum ∧
      (stopMachine dum.pending.length).run (dummyUdcStop dum) [.giveback, .resume] = some dum' ∧
      (LeavesNothing dum' ↔
        (stopMachine dum.pending.length).Guarded (QueuesBehind dum.pending.length) (dummyUdcStop dum)
            [.giveback, .resume] ∧
          ∀ p ∈ dum.pending, p.given = false → p.req = .fifo) :=
  ⟨_, _, rfl, rfl, leavesNothing_iff_queuesBehind (fun _ => ⟨.user 7, 100, 0, 0, true⟩) (fun _ _ => 0)
    queuedOut rfl [.giveback, .resume] rfl rfl⟩

/-- The handler of request 7, which is drained from endpoint 2, queues it on endpoint 1. -/
theorem leavesNothing_broken :
    ∃ dum dum', udcMachine.run (udcStart (fun _ => ⟨.user 7, 100, 0, 0, true⟩) fun _ _ => 0) queuedOut = some dum ∧
      (stopMachine dum.pending.length).run (dummyUdcStop dum) [.giveback, .queue 1 7, .resume] = some dum' ∧
      dum'.pending.length = dum.pending.length ∧ ¬ LeavesNothing dum' :=
  ⟨_, _, rfl, rfl, rfl, fun h => absurd (h.empty 1 (by decide)) (by decide)⟩

end Calls

end LinuxFunctionTest.DummyUsb
