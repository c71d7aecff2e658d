import LinuxFunctionTest.DummyUsb.Control
import LinuxFunctionTest.DummyUsb.InTransfer
import LinuxFunctionTest.DummyUsb.RequestConservation

/-!
# Completion handlers that queue requests

A call that gives requests back, with the completion handlers it runs. A handler is a finite program that fills
in requests and queues them, and what it does next may depend on the controller and on what `dummy_queue` has
returned to it. A request that takes the fast path is given back within the handler, so handlers nest.

An endpoint that `dummy_disable` drains has no descriptor any more, so nothing is queued on it. Elsewhere the
fast path is taken once at most, since `fifo_req` stays linked. So the drain ends, whatever the handlers do.
-/

namespace LinuxFunctionTest.DummyUsb

open Errno

/-- What a completion handler does. -/
inductive HandlerProg where
  | done
  | prepare (n length : ℕ) (complete : Bool) (bytes : ℕ → UInt8) (next : HandlerProg)
  | queue (i : Fin dummyEndpoints) (n : ℕ) (next : UoeUdc → ℤ → HandlerProg)

/-- The completion handlers of a gadget driver: what is done about request `n` in a given state. -/
def Handlers : Type := UoeUdc → ℕ → HandlerProg

/-- The handler of a request. `fifo_complete` does nothing. -/
def Handlers.complete (H : Handlers) (dum : UoeUdc) : ReqRef → HandlerProg
  | .fifo => .done
  | .user n => H dum n

/-- A call that dropped the lock is carried on, one that did not has returned. -/
def untilReturn (carry : UoeUdc → Option UoeUdc) (before after : UoeUdc) : Option UoeUdc :=
  if before.pending.length < after.pending.length then carry after else some after

/-- Run a handler; `carry` carries on a call of `dummy_queue` that took the fast path. A request is filled in
only by its owner. -/
def HandlerProg.exec (carry : UoeUdc → Option UoeUdc) : HandlerProg → UoeUdc → Option UoeUdc
  | .done, dum => some dum
  | .prepare n length complete bytes next, dum =>
    next.exec carry (if Owned dum n then DummyUsb.prepare dum n length complete bytes else dum)
  | .queue i n next, dum =>
    (untilReturn carry dum (dummyQueue dum i n).1).bind fun dum' =>
      (next dum' (dummyQueue dum i n).2).exec carry dum'

/-- Carry the latest call that dropped the lock on until it returns: it gives its request back, the handler runs,
and it goes on with the lock, perhaps to drop it again. -/
def carryOn (H : Handlers) : ℕ → UoeUdc → Option UoeUdc
  | 0, _ => none
  | fuel + 1, dum =>
    match dum.pending with
    | [] => none
    | p :: _ =>
      (udcMachine.step dum (.giveback 0)).bind fun dum =>
        ((H.complete dum p.req).exec (carryOn H fuel) dum).bind fun dum =>
          (udcMachine.step dum (.resume 0)).bind fun dum' =>
            if dum.pending.length ≤ dum'.pending.length then carryOn H fuel dum' else some dum'

/-- `dummy_disable` up to its return. -/
def callDisable (H : Handlers) (fuel : ℕ) (dum : UoeUdc) (i : ℕ) : Option (UoeUdc × ℤ) :=
  (untilReturn (carryOn H fuel) dum (dummyDisable dum i).1).map fun dum' => (dum', (dummyDisable dum i).2)

/-- The requests given back with status `-ESHUTDOWN`, in order, among the givebacks of a log. -/
def shutDown (givenBack : List Giveback) : List ReqRef :=
  (givenBack.reverse.filter fun g => g.status = -eshutdown).map Giveback.req

/-- An endpoint without a descriptor has no request on its queue. -/
def DisabledEmpty (dum : UoeUdc) (i : ℕ) : Prop := (dum.ep i).desc = none → (dum.ep i).queue = []

/-- What the handlers leave alone while endpoint `i` is disabled: the endpoint, and the calls under way. They
complete requests with status 0 at most, and leave `fifo_req` linked. -/
structure Aside (i : ℕ) (dum dum' : UoeUdc) : Prop where
  desc : (dum'.ep i).desc = (dum.ep i).desc
  queue : (dum'.ep i).queue = (dum.ep i).queue
  pending : dum'.pending = dum.pending
  givenBack : shutDown dum'.givenBack = shutDown dum.givenBack
  fifo : dum.linked .fifo = true → dum'.linked .fifo = true

section Fuel

variable {H : Handlers}

/-- A handler that ends does so when its calls are carried on further. -/
theorem HandlerProg.exec_mono {carry carry' : UoeUdc → Option UoeUdc}
    (hcarry : ∀ dum dum', carry dum = some dum' → carry' dum = some dum') (prog : HandlerProg)
    {dum dum' : UoeUdc} (h : prog.exec carry dum = some dum') : prog.exec carry' dum = some dum' := by
  induction prog generalizing dum with
  | done => exact h
  | prepare n length complete bytes next ih => exact ih h
  | queue i n next ih =>
    obtain ⟨mid, hmid, h⟩ := Option.bind_eq_some_iff.mp h
    have hmid' : untilReturn carry' dum (dummyQueue dum i n).1 = some mid := by
      unfold untilReturn at hmid ⊢
      split_ifs at hmid ⊢
      · exact hcarry _ _ hmid
      · exact hmid
    exact Option.bind_eq_some_iff.mpr ⟨mid, hmid', ih mid _ h⟩

/-- A call that returns does so with more fuel. -/
theorem carryOn_succ {fuel : ℕ} {dum dum' : UoeUdc} (h : carryOn H fuel dum = some dum') :
    carryOn H (fuel + 1) dum = some dum' := by
  induction fuel generalizing dum dum' with
  | zero => exact absurd h (by simp [carryOn])
  | succ fuel ih =>
    rw [carryOn] at h ⊢
    cases hpending : dum.pending with
    | nil => simp [hpending] at h
    | cons p rest =>
      simp only [hpending] at h ⊢
      obtain ⟨a, ha, h⟩ := Option.bind_eq_some_iff.mp h
      obtain ⟨b, hb, h⟩ := Option.bind_eq_some_iff.mp h
      obtain ⟨c, hc, h⟩ := Option.bind_eq_some_iff.mp h
      refine Option.bind_eq_some_iff.mpr ⟨a, ha, Option.bind_eq_some_iff.mpr ⟨b, ?_, ?_⟩⟩
      · exact HandlerProg.exec_mono (fun _ _ => ih) _ hb
      · refine Option.bind_eq_some_iff.mpr ⟨c, hc, ?_⟩
        split_ifs at h ⊢
        · exact ih h
        · exact h

/-- A call that returns does so with any more fuel. -/
theorem carryOn_of_le {fuel more : ℕ} (hle : fuel ≤ more) {dum dum' : UoeUdc}
    (h : carryOn H fuel dum = some dum') : carryOn H more dum = some dum' := by
  induction more, hle using Nat.le_induction with
  | base => exact h
  | succ more _ ih => exact carryOn_succ ih

end Fuel

section Aside

variable {H : Handlers} {i : ℕ} {dum dum' : UoeUdc}

/-- Leaving the endpoint alone composes. -/
theorem Aside.trans {a b c : UoeUdc} (hab : Aside i a b) (hbc : Aside i b c) : Aside i a c where
  desc := hbc.desc.trans hab.desc
  queue := hbc.queue.trans hab.queue
  pending := hbc.pending.trans hab.pending
  givenBack := hbc.givenBack.trans hab.givenBack
  fifo := fun h => hbc.fifo (hab.fifo h)

/-- Nothing happened to the endpoints, the calls under way and the givebacks. -/
theorem aside_of_eq (hep : dum'.ep = dum.ep) (hpending : dum'.pending = dum.pending)
    (hgiven : dum'.givenBack = dum.givenBack) : Aside i dum dum' := by
  refine ⟨by rw [hep], by rw [hep], hpending, by rw [hgiven], fun h => ?_⟩
  unfold UoeUdc.linked at h ⊢
  rw [hep]
  exact h

/-- A request at the end of a queue is linked, and so is what was linked before. -/
theorem linked_append {j : ℕ} (hj : j < dummyEndpoints) {r x : ReqRef}
    (hep : dum'.ep = (dum.setQueue j ((dum.ep j).queue ++ [r])).ep) (hx : dum.linked x = true ∨ r = x) :
    dum'.linked x = true := by
  by_contra hno
  rw [Bool.not_eq_true, linked_eq_false_iff] at hno
  have hcount : dum'.linkedCount x = dum.linkedCount x + if r = x then 1 else 0 := by
    rw [← linkedCount_append dum hj r x]
    simp only [UoeUdc.linkedCount, hep]
  rcases hx with hlinked | rfl
  · have hzero : dum.linkedCount x = 0 := by omega
    rw [← linked_eq_false_iff, hlinked] at hzero
    exact absurd hzero (by simp)
  · rw [if_pos rfl] at hcount
    omega

/-- A request is queued on another endpoint than the disabled one. -/
theorem Accepts.ne {j n : ℕ} (h : Accepts dum j n) (hi : i ≠ 0) (hdesc : (dum.ep i).desc = none) : j ≠ i := by
  rintro rfl
  exact h.2.2.1 ⟨by rw [hdesc]; rfl, hi⟩

/-- `dummy_queue` leaves the disabled endpoint alone. On the fast path it links `fifo_req`, which was not linked,
and drops the lock. -/
theorem dummyQueue_aside (hi : i ≠ 0) (hdesc : (dum.ep i).desc = none) (j : Fin dummyEndpoints) (n : ℕ) :
    Aside i dum (dummyQueue dum j n).1 ∨
      dum.linked .fifo = false ∧ (dummyQueue dum j n).1.linked .fifo = true ∧
        (dummyQueue dum j n).1.pending = ⟨.user n, true, .finish, false⟩ :: dum.pending ∧
        Aside i dum { (dummyQueue dum j n).1 with pending := dum.pending } := by
  by_cases haccepts : Accepts dum j n
  · have hji := haccepts.ne hi hdesc
    have hother : ∀ r, ((dum.setQueue j ((dum.ep j).queue ++ [r])).ep i) = dum.ep i := fun r =>
      Function.update_of_ne hji.symm _ _
    obtain ⟨-, hgiven, -, -, hpath⟩ := dummyQueue_accepts haccepts rfl
    by_cases hfast : FastPath dum j n
    · rw [if_pos hfast] at hpath
      obtain ⟨hep, hpending, -⟩ := hpath
      refine .inr ⟨hfast.2.1, linked_append j.2 hep (.inr rfl), hpending, ?_⟩
      refine ⟨?_, ?_, rfl, ?_, fun h => linked_append j.2 hep (.inl h)⟩
      · rw [hep, hother]
      · rw [hep, hother]
      · exact congrArg shutDown hgiven
    · rw [if_neg hfast] at hpath
      obtain ⟨hep, hpending, -⟩ := hpath
      refine .inl ⟨?_, ?_, hpending, congrArg shutDown hgiven, fun h => linked_append j.2 hep (.inl h)⟩
      · rw [hep, hother]
      · rw [hep, hother]
  · rw [dummyQueue_refused haccepts]
    exact .inl (aside_of_eq rfl rfl rfl)

/-- A gadget driver that fills in a request leaves the endpoint alone. -/
theorem prepare_aside (n length : ℕ) (complete : Bool) (bytes : ℕ → UInt8) :
    Aside i dum (if Owned dum n then DummyUsb.prepare dum n length complete bytes else dum) := by
  split_ifs <;> exact aside_of_eq rfl rfl rfl

/-- While `fifo_req` is linked, a handler ends and nothing is given back in it. -/
theorem HandlerProg.exec_of_linked (carry : UoeUdc → Option UoeUdc) (hi : i ≠ 0) (prog : HandlerProg)
    (hdesc : (dum.ep i).desc = none) (hfifo : dum.linked .fifo = true) :
    ∃ dum', prog.exec carry dum = some dum' ∧ Aside i dum dum' := by
  induction prog generalizing dum with
  | done => exact ⟨dum, rfl, aside_of_eq rfl rfl rfl⟩
  | prepare n length complete bytes next ih =>
    have haside : Aside i dum _ := prepare_aside n length complete bytes
    obtain ⟨dum', hexec, hrest⟩ := ih (haside.desc.trans hdesc) (haside.fifo hfifo)
    exact ⟨dum', hexec, haside.trans hrest⟩
  | queue j n next ih =>
    obtain haside | ⟨hunlinked, -⟩ := dummyQueue_aside hi hdesc j n
    · have hreturn : untilReturn carry dum (dummyQueue dum j n).1 = some (dummyQueue dum j n).1 :=
        if_neg (by rw [haside.pending]; exact lt_irrefl _)
      obtain ⟨dum', hexec, hrest⟩ := ih _ (dummyQueue dum j n).2 (haside.desc.trans hdesc)
        (haside.fifo hfifo)
      refine ⟨dum', ?_, haside.trans hrest⟩
      rw [HandlerProg.exec, hreturn]
      exact hexec
    · rw [hfifo] at hunlinked
      exact absurd hunlinked (by simp)

/-- What a giveback adds to the log: on the fast path the status is 0. -/
theorem giveback_shutDown (dum : UoeUdc) (p : Pending) :
    shutDown (giveback dum p).givenBack =
      if p.fast ∨ (dum.req p.req).status ≠ -eshutdown then shutDown dum.givenBack
      else shutDown dum.givenBack ++ [p.req] := by
  unfold giveback shutDown
  by_cases hfast : p.fast = true
  · have hzero : ¬ (0 : ℤ) = -eshutdown := by decide
    simp [hfast, UoeUdc.setReq, List.filter_append, hzero]
  · by_cases hstatus : (dum.req p.req).status = -eshutdown
    · simp [hfast, hstatus, List.filter_append]
    · simp [hfast, hstatus, List.filter_append]

/-- The latest call gives its request back. -/
theorem udcMachine_giveback {p : Pending} {rest : List Pending} (hpending : dum.pending = p :: rest)
    (hdue : p.given = false) :
    udcMachine.step dum (.giveback 0) =
      some (giveback { dum with pending := { p with given := true } :: rest } p) := by
  simp [udcMachine, hpending, hdue]

/-- The latest call goes on when its request was given back. -/
theorem udcMachine_resume {p : Pending} {rest : List Pending} (hpending : dum.pending = p :: rest)
    (hgiven : p.given = true) :
    udcMachine.step dum (.resume 0) = some (resume { dum with pending := rest } p.after) := by
  simp [udcMachine, hpending, hgiven]

/-- A call of `dummy_queue` on the fast path returns: its handler finds `fifo_req` linked. -/
theorem carryOn_fast (hi : i ≠ 0) (hdesc : (dum.ep i).desc = none) (hfifo : dum.linked .fifo = true)
    {n : ℕ} {rest : List Pending} (hpending : dum.pending = ⟨.user n, true, .finish, false⟩ :: rest)
    (fuel : ℕ) :
    ∃ dum', carryOn H (fuel + 1) dum = some dum' ∧ Aside i { dum with pending := rest } dum' := by
  obtain ⟨hep, hpend, -, -, -, -⟩ := giveback_fields
    { dum with pending := ⟨.user n, true, .finish, true⟩ :: rest } ⟨.user n, true, .finish, false⟩
  have hshut := giveback_shutDown { dum with pending := ⟨.user n, true, .finish, true⟩ :: rest }
    ⟨.user n, true, .finish, false⟩
  rw [if_pos (.inl rfl)] at hshut
  have hgive := udcMachine_giveback hpending rfl
  generalize giveback { dum with pending := ⟨.user n, true, .finish, true⟩ :: rest }
    ⟨.user n, true, .finish, false⟩ = a at hep hpend hshut hgive
  have hlinked : a.linked .fifo = true := by
    unfold UoeUdc.linked at hfifo ⊢
    rw [hep]
    exact hfifo
  obtain ⟨b, hexec, haside⟩ := HandlerProg.exec_of_linked (carryOn H fuel) hi (H.complete a (.user n))
    (show (a.ep i).desc = none by rw [hep]; exact hdesc) hlinked
  have hresume := udcMachine_resume (haside.pending.trans hpend) rfl
  refine ⟨{ b with pending := rest }, ?_, ?_, ?_, rfl, ?_, ?_⟩
  · rw [carryOn]
    simp only [hpending, hgive, Option.bind_some, hexec, hresume]
    rw [haside.pending, hpend]
    exact if_neg (by simp [resume])
  · exact haside.desc.trans (by rw [hep])
  · exact haside.queue.trans (by rw [hep])
  · exact haside.givenBack.trans hshut
  · exact fun _ => haside.fifo hlinked

/-- A handler ends, and leaves the disabled endpoint alone. -/
theorem HandlerProg.exec_returns (hi : i ≠ 0) (fuel : ℕ) (prog : HandlerProg)
    (hdesc : (dum.ep i).desc = none) :
    ∃ dum', prog.exec (carryOn H (fuel + 1)) dum = some dum' ∧ Aside i dum dum' := by
  induction prog generalizing dum with
  | done => exact ⟨dum, rfl, aside_of_eq rfl rfl rfl⟩
  | prepare n length complete bytes next ih =>
    have haside : Aside i dum _ := prepare_aside n length complete bytes
    obtain ⟨dum', hexec, hrest⟩ := ih (haside.desc.trans hdesc)
    exact ⟨dum', hexec, haside.trans hrest⟩
  | queue j n next ih =>
    obtain ⟨mid, hreturn, haside⟩ :
        ∃ mid, untilReturn (carryOn H (fuel + 1)) dum (dummyQueue dum j n).1 = some mid ∧
          Aside i dum mid := by
      obtain haside | ⟨-, hfifo, hpending, haside⟩ := dummyQueue_aside hi hdesc j n
      · exact ⟨_, if_neg (by rw [haside.pending]; exact lt_irrefl _), haside⟩
      · obtain ⟨mid, hcarry, hmid⟩ := carryOn_fast (H := H) hi
          (show ((dummyQueue dum j n).1.ep i).desc = none from haside.desc.trans hdesc) hfifo hpending fuel
        refine ⟨mid, ?_, haside.trans hmid⟩
        rw [untilReturn, if_pos (by rw [hpending]; exact Nat.lt_succ_self _), hcarry]
    obtain ⟨dum', hexec, hrest⟩ := ih mid (dummyQueue dum j n).2 (haside.desc.trans hdesc)
    refine ⟨dum', ?_, haside.trans hrest⟩
    rw [HandlerProg.exec, hreturn]
    exact hexec

end Aside

section Drain

variable {H : Handlers} {i : ℕ} {dum : UoeUdc}

/-- What is left of the endpoint when `nuke` returns: nothing, and its requests were given back in order. -/
structure Nuked (i : ℕ) (queue : List ReqRef) (dum dum' : UoeUdc) : Prop where
  desc : (dum'.ep i).desc = (dum.ep i).desc
  empty : (dum'.ep i).queue = []
  pending : dum'.pending = dum.pending
  givenBack : shutDown dum'.givenBack = shutDown dum.givenBack ++ queue

/-- `nuke` on a disabled endpoint, by induction on its queue: every pass gives one request back, and nothing is
queued behind. -/
theorem nuke_returns (hi : i ≠ 0) (queue : List ReqRef) (hqueue : (dum.ep i).queue = queue)
    (hdesc : (dum.ep i).desc = none) :
    ∃ dum', untilReturn (carryOn H (queue.length + 1)) dum (nuke dum i) = some dum' ∧
      Nuked i queue dum dum' := by
  induction queue generalizing dum with
  | nil =>
    have hnuke : nuke dum i = dum := by simp [nuke, nukeStep, hqueue]
    refine ⟨dum, ?_, rfl, hqueue, rfl, (List.append_nil _).symm⟩
    rw [hnuke, untilReturn, if_neg (lt_irrefl _)]
  | cons r rest ih =>
    have hnuke : nuke dum i =
        ((dum.setQueue i rest).setReq r { dum.req r with status := -eshutdown }).drop
          ⟨r, false, .nuke i, false⟩ := by
      simp [nuke, nukeStep, hqueue]
      rfl
    -- the first request is given back and its handler runs
    generalize hfirst : ((dum.setQueue i rest).setReq r { dum.req r with status := -eshutdown }) = a
      at hnuke
    have hstatus : (a.req r).status = -eshutdown := by simp [← hfirst, UoeUdc.setReq]
    have hepa : a.ep i = { dum.ep i with queue := rest } := by
      simp [← hfirst, UoeUdc.setReq, UoeUdc.setQueue, UoeUdc.setEp]
    have hpenda : a.pending = dum.pending := by rw [← hfirst]; rfl
    have hgivena : a.givenBack = dum.givenBack := by rw [← hfirst]; rfl
    obtain ⟨hep, hpend, -, -, -, -⟩ := giveback_fields
      { a with pending := ⟨r, false, .nuke i, true⟩ :: a.pending } ⟨r, false, .nuke i, false⟩
    have hshut := giveback_shutDown
      { a with pending := ⟨r, false, .nuke i, true⟩ :: a.pending } ⟨r, false, .nuke i, false⟩
    rw [if_neg (by simpa using hstatus)] at hshut
    have hgive := udcMachine_giveback
      (show (a.drop ⟨r, false, .nuke i, false⟩).pending = ⟨r, false, .nuke i, false⟩ :: a.pending from rfl) rfl
    generalize hback : giveback { a with pending := ⟨r, false, .nuke i, true⟩ :: a.pending }
      ⟨r, false, .nuke i, false⟩ = b at hep hpend hshut
    have hgive' : udcMachine.step (a.drop ⟨r, false, .nuke i, false⟩) (.giveback 0) = some b := by
      rw [hgive, ← hback]
      rfl
    have hdescb : (b.ep i).desc = none := by rw [hep, hepa]; exact hdesc
    obtain ⟨c, hexec, haside⟩ := HandlerProg.exec_returns (H := H) hi rest.length (H.complete b r) hdescb
    have hresume := udcMachine_resume (haside.pending.trans hpend) rfl
    -- it goes on with the requests that are left
    have hqueuec : ({ c with pending := a.pending } : UoeUdc).ep i = c.ep i := rfl
    have hrest : (c.ep i).queue = rest := by rw [haside.queue, hep, hepa]
    have hdescc : (c.ep i).desc = none := haside.desc.trans hdescb
    obtain ⟨d, hd, hnuked⟩ := ih
      (show (({ c with pending := a.pending } : UoeUdc).ep i).queue = rest from hrest) hdescc
    refine ⟨d, ?_, ?_⟩
    · rw [hnuke, untilReturn, if_pos (by simp [UoeUdc.drop, hpenda]), List.length_cons, carryOn]
      have hlength : c.pending.length = a.pending.length + 1 := by
        rw [haside.pending, hpend, List.length_cons]
      have hhead : (a.drop ⟨r, false, .nuke i, false⟩).pending =
          ⟨r, false, .nuke i, false⟩ :: a.pending := rfl
      simp only [hhead, hgive', Option.bind_some, hexec, hresume, resume, hlength, Nat.succ_le_iff]
      exact hd
    · exact ⟨hnuked.desc.trans (by rw [hdescc, hdesc]), hnuked.empty, hnuked.pending.trans hpenda, by
        rw [hnuked.givenBack, haside.givenBack, hshut, hgivena, List.append_assoc]; rfl⟩

/-- `dummy_disable` returns, whatever the handlers do. It has given back the requests that were on the queue, in
their order and with `-ESHUTDOWN`, and leaves the queue empty. -/
theorem dummyDisable_drains (H : Handlers) (dum : UoeUdc) {i : ℕ} (hi : i ≠ 0)
    (hempty : DisabledEmpty dum i) :
    ∃ dum' ret, (∃ fuel, ∀ more ≥ fuel, callDisable H more dum i = some (dum', ret)) ∧
      ret = (if (dum.ep i).desc.isSome then 0 else -einval) ∧
      (dum'.ep i).queue = [] ∧ dum'.pending = dum.pending ∧
      shutDown dum'.givenBack = shutDown dum.givenBack ++ (dum.ep i).queue := by
  cases hdesc : (dum.ep i).desc with
  | none =>
    have hrefused : dummyDisable dum i = (dum, -einval) := if_pos (.inl (by rw [hdesc]; rfl))
    refine ⟨dum, -einval, ⟨0, fun more _ => ?_⟩, rfl, hempty hdesc, rfl, ?_⟩
    · rw [callDisable, hrefused, untilReturn, if_neg (lt_irrefl _)]
      rfl
    · rw [hempty hdesc, List.append_nil]
  | some epAddr =>
    have hdisable : dummyDisable dum i =
        (nuke (dum.setEp i { dum.ep i with desc := none }) i, 0) := if_neg (by simp [hdesc, hi])
    have hep : (dum.setEp i { dum.ep i with desc := none }).ep i = { dum.ep i with desc := none } :=
      Function.update_self _ _ _
    obtain ⟨dum', hreturn, hnuked⟩ := nuke_returns (H := H) hi (dum.ep i).queue
      (show ((dum.setEp i { dum.ep i with desc := none }).ep i).queue = _ by rw [hep]) (by rw [hep])
    refine ⟨dum', 0, ⟨(dum.ep i).queue.length + 1, fun more hmore => ?_⟩, rfl, hnuked.empty,
      hnuked.pending, hnuked.givenBack⟩
    rw [callDisable, hdisable]
    unfold untilReturn at hreturn ⊢
    change (if dum.pending.length < _ then _ else _) = _ at hreturn
    split_ifs at hreturn ⊢
    · rw [carryOn_of_le hmore hreturn]
      rfl
    · rw [hreturn]
      rfl

/-- Handlers that queue a request again, on endpoint 1 and on endpoint 2. -/
def requeueTwice : Handlers := fun _ n =>
  .queue ⟨1, by decide⟩ n fun _ _ => .queue ⟨2, by decide⟩ n fun _ _ => .done

/-- A controller whose endpoints are all enabled, with two requests on the queue of endpoint 1. -/
def twoQueued : UoeUdc :=
  { udcStart (fun _ => ⟨.user 1, 50, 0, 0, true⟩) (fun _ _ => 0) with
    ep := fun i => ⟨some (0x80 + UInt8.ofNat i), false, false, if i = 1 then [.user 1, .user 2] else []⟩ }

/-- Endpoint 1 is disabled while its handlers queue on it and take the fast path of endpoint 2. -/
theorem dummyDisable_drains_requeued :
    ∃ dum' ret, (∃ fuel, ∀ more ≥ fuel,
        callDisable requeueTwice more twoQueued 1 = some (dum', ret)) ∧
      ret = (if (twoQueued.ep 1).desc.isSome then 0 else -einval) ∧
      (dum'.ep 1).queue = [] ∧ dum'.pending = twoQueued.pending ∧
      shutDown dum'.givenBack = shutDown twoQueued.givenBack ++ (twoQueued.ep 1).queue :=
  dummyDisable_drains requeueTwice twoQueued (by decide) (fun h => absurd h (by decide))

end Drain

section Runs

variable {H : Handlers}

/-- What a handler does is a run of the controller, if the calls it carries on are. -/
theorem HandlerProg.exec_run {carry : UoeUdc → Option UoeUdc}
    (hcarry : ∀ dum dum', carry dum = some dum' → ∃ labels, udcMachine.run dum labels = some dum')
    (prog : HandlerProg) {dum dum' : UoeUdc} (h : prog.exec carry dum = some dum') :
    ∃ labels, udcMachine.run dum labels = some dum' := by
  induction prog generalizing dum with
  | done => exact ⟨[], h⟩
  | prepare n length complete bytes next ih =>
    obtain ⟨labels, hrun⟩ := ih h
    by_cases howned : Owned dum n
    · rw [if_pos howned] at hrun
      refine ⟨.prepare n length complete bytes :: labels, ?_⟩
      have hprepare : udcMachine.step dum (.prepare n length complete bytes) =
          some (DummyUsb.prepare dum n length complete bytes) := if_pos howned
      rw [udcMachine.run_cons_of_step hprepare]
      exact hrun
    · rw [if_neg howned] at hrun
      exact ⟨labels, hrun⟩
  | queue i n next ih =>
    obtain ⟨mid, hmid, h⟩ := Option.bind_eq_some_iff.mp h
    obtain ⟨labels, hrun⟩ := ih mid _ h
    have hqueue : udcMachine.step dum (.queue i n) = some (dummyQueue dum i n).1 := if_pos i.2
    unfold untilReturn at hmid
    split_ifs at hmid
    · obtain ⟨inner, hinner⟩ := hcarry _ _ hmid
      refine ⟨.queue i n :: (inner ++ labels), ?_⟩
      rw [udcMachine.run_cons_of_step hqueue, udcMachine.run_append, hinner]
      exact hrun
    · obtain rfl := Option.some.inj hmid
      refine ⟨.queue i n :: labels, ?_⟩
      rw [udcMachine.run_cons_of_step hqueue]
      exact hrun

/-- A call that is carried on until it returns is a run of the controller. -/
theorem carryOn_run {fuel : ℕ} {dum dum' : UoeUdc} (h : carryOn H fuel dum = some dum') :
    ∃ labels, udcMachine.run dum labels = some dum' := by
  induction fuel generalizing dum dum' with
  | zero => exact absurd h (by simp [carryOn])
  | succ fuel ih =>
    rw [carryOn] at h
    cases hpending : dum.pending with
    | nil => simp [hpending] at h
    | cons p rest =>
      simp only [hpending] at h
      obtain ⟨a, ha, h⟩ := Option.bind_eq_some_iff.mp h
      obtain ⟨b, hb, h⟩ := Option.bind_eq_some_iff.mp h
      obtain ⟨c, hc, h⟩ := Option.bind_eq_some_iff.mp h
      obtain ⟨handler, hhandler⟩ := HandlerProg.exec_run (fun _ _ => ih) _ hb
      have hfront : udcMachine.run dum (.giveback 0 :: (handler ++ [.resume 0])) = some c := by
        rw [udcMachine.run_cons_of_step ha, udcMachine.run_append, hhandler, Option.bind_some,
          udcMachine.run_cons_of_step hc, udcMachine.run_nil]
      split_ifs at h
      · obtain ⟨labels, hrun⟩ := ih h
        refine ⟨.giveback 0 :: (handler ++ [.resume 0]) ++ labels, ?_⟩
        rw [udcMachine.run_append, hfront]
        exact hrun
      · obtain rfl := Option.some.inj h
        exact ⟨_, hfront⟩

/-- `dummy_disable` with the handlers it runs is a run of the controller. -/
theorem callDisable_run {fuel i : ℕ} (hi : i < dummyEndpoints) {dum dum' : UoeUdc} {ret : ℤ}
    (h : callDisable H fuel dum i = some (dum', ret)) :
    ∃ labels, udcMachine.run dum (.disable i :: labels) = some dum' := by
  obtain ⟨d, hreturn, heq⟩ := Option.map_eq_some_iff.mp h
  obtain ⟨rfl, -⟩ := Prod.mk.inj heq
  have hdisable : udcMachine.step dum (.disable i) = some (dummyDisable dum i).1 := if_pos hi
  unfold untilReturn at hreturn
  split_ifs at hreturn
  · obtain ⟨labels, hrun⟩ := carryOn_run hreturn
    exact ⟨labels, by rw [udcMachine.run_cons_of_step hdisable]; exact hrun⟩
  · obtain rfl := Option.some.inj hreturn
    exact ⟨[], by rw [udcMachine.run_cons_of_step hdisable]; rfl⟩

end Runs

section Disabled

variable {dum dum' : UoeUdc} {i : ℕ}

/-- Requests were taken off the queues, and calls begun, at most. -/
structure Shrinks (dum dum' : UoeUdc) : Prop where
  desc : ∀ i, (dum'.ep i).desc = (dum.ep i).desc
  queue : ∀ i, (dum'.ep i).queue.Sublist (dum.ep i).queue
  pending : ∀ p ∈ dum.pending, p ∈ dum'.pending

/-- No request is on the queue of the endpoint while it is disabled, but that of a `dummy_disable` under way. -/
def DrainedOrDraining (dum : UoeUdc) (i : ℕ) : Prop :=
  DisabledEmpty dum i ∨ ∃ p ∈ dum.pending, p.after = .nuke i

/-- The same endpoints. -/
theorem shrinks_of_ep (hep : dum'.ep = dum.ep) (hpending : dum'.pending = dum.pending) :
    Shrinks dum dum' :=
  ⟨fun i => by rw [hep], fun i => by rw [hep], fun p hp => hpending ▸ hp⟩

/-- Taking requests off a queue. -/
theorem shrinks_setQueue (dum : UoeUdc) (j : ℕ) {queue : List ReqRef}
    (hqueue : queue.Sublist (dum.ep j).queue) : Shrinks dum (dum.setQueue j queue) := by
  refine ⟨setQueue_desc dum j queue, fun i => ?_, fun _ hp => hp⟩
  by_cases hij : i = j
  · subst hij
    rw [setQueue_queue]
    exact hqueue
  · simp [UoeUdc.setQueue, UoeUdc.setEp, hij]

/-- Taking requests off a queue, and setting the result of one that a call has to give back. -/
theorem shrinks_unlink (dum : UoeUdc) (j : ℕ) {queue : List ReqRef}
    (hqueue : queue.Sublist (dum.ep j).queue) (r : ReqRef) (req : UsbRequest) (p : Pending) :
    Shrinks dum (((dum.setQueue j queue).setReq r req).drop p) := by
  have hshrinks := shrinks_setQueue dum j hqueue
  exact ⟨hshrinks.desc, hshrinks.queue, fun q hq => List.mem_cons_of_mem p hq⟩

/-- Shrinking composes. -/
theorem Shrinks.trans {a b c : UoeUdc} (hab : Shrinks a b) (hbc : Shrinks b c) : Shrinks a c where
  desc := fun i => (hbc.desc i).trans (hab.desc i)
  queue := fun i => (hbc.queue i).trans (hab.queue i)
  pending := fun p hp => hbc.pending p (hab.pending p hp)

/-- What is drained stays so, and what is being drained too, when queues shrink. -/
theorem Shrinks.drained (h : Shrinks dum dum') (hdum : DrainedOrDraining dum i) :
    DrainedOrDraining dum' i := by
  obtain hempty | ⟨p, hp, hafter⟩ := hdum
  · refine .inl fun hdesc => ?_
    have hqueue := h.queue i
    rw [hempty ((h.desc i).symm.trans hdesc), List.sublist_nil] at hqueue
    exact hqueue
  · exact .inr ⟨p, h.pending p hp, hafter⟩

/-- A pass of `nuke` takes the first request off the queue. -/
theorem nukeStep_shrinks {j : ℕ} {after : After} (h : nukeStep dum j after = some dum') :
    Shrinks dum dum' := by
  obtain ⟨r, rest, hqueue, rfl⟩ := nukeStep_cases h
  exact shrinks_unlink dum j (hqueue ▸ List.sublist_cons_self r rest) _ _ _

/-- `stop_activity` takes requests off the queues. -/
theorem stopActivity_shrinks (dum : UoeUdc) (count : ℕ) : Shrinks dum (stopActivity dum count) := by
  obtain ⟨i, -, -, -, hpass⟩ | ⟨-, heq⟩ := stopActivity_cases dum count
  · exact nukeStep_shrinks hpass
  · rw [heq]
    exact shrinks_of_ep rfl rfl

/-- `nuke` takes requests off the queue of its endpoint. -/
theorem nuke_shrinks (dum : UoeUdc) (j : ℕ) : Shrinks dum (nuke dum j) := by
  obtain ⟨-, hsame⟩ | hpass := nuke_cases dum j
  · rw [hsame]
    exact shrinks_of_ep rfl rfl
  · exact nukeStep_shrinks hpass

/-- After `nuke` has dropped the lock or returned, its endpoint is being drained or empty. -/
theorem nuke_drained (dum : UoeUdc) (j : ℕ) : DrainedOrDraining (nuke dum j) j := by
  obtain ⟨hempty, hsame⟩ | hpass := nuke_cases dum j
  · refine .inl fun _ => ?_
    rw [hsame]
    exact hempty
  · obtain ⟨r, rest, -, heq⟩ := nukeStep_cases hpass
    rw [heq]
    exact .inr ⟨_, List.mem_cons_self, rfl⟩

/-- The endpoint is as it was, and no call has ended. -/
theorem DrainedOrDraining.of_same (h : DrainedOrDraining dum i)
    (hdesc : (dum'.ep i).desc = (dum.ep i).desc) (hqueue : (dum'.ep i).queue = (dum.ep i).queue)
    (hpending : ∀ p ∈ dum.pending, ∃ q ∈ dum'.pending, q.after = p.after) : DrainedOrDraining dum' i := by
  obtain hempty | ⟨p, hp, hafter⟩ := h
  · refine .inl ?_
    unfold DisabledEmpty
    rw [hdesc, hqueue]
    exact hempty
  · obtain ⟨q, hq, hsame⟩ := hpending p hp
    exact .inr ⟨q, hq, hsame.trans hafter⟩

/-- A call that gives its request back stays where it was. -/
theorem giveback_drained {k : ℕ} {p : Pending} (h : DrainedOrDraining dum i) (hp : dum.pending[k]? = some p) :
    DrainedOrDraining (giveback { dum with pending := dum.pending.set k { p with given := true } } p) i := by
  obtain ⟨hep, hpending, -⟩ :=
    giveback_fields { dum with pending := dum.pending.set k { p with given := true } } p
  refine h.of_same (by rw [hep]) (by rw [hep]) fun q hq => ?_
  rw [hpending]
  obtain ⟨m, hm⟩ := List.mem_iff_getElem?.mp hq
  by_cases hmk : m = k
  · subst hmk
    obtain rfl : p = q := Option.some.inj (hp.symm.trans hm)
    obtain ⟨hlt, -⟩ := List.getElem?_eq_some_iff.mp hm
    exact ⟨_, List.mem_set hlt _, rfl⟩
  · refine ⟨q, List.mem_iff_getElem?.mpr ⟨m, ?_⟩, rfl⟩
    rw [List.getElem?_set_ne (Ne.symm hmk)]
    exact hm

/-- A call that goes on ends, or drains what it was draining. -/
theorem resume_drained {k : ℕ} {p : Pending} (h : DrainedOrDraining dum i) (hp : dum.pending[k]? = some p) :
    DrainedOrDraining (resume { dum with pending := dum.pending.eraseIdx k } p.after) i := by
  have hrest : p.after ≠ .nuke i →
      DrainedOrDraining { dum with pending := dum.pending.eraseIdx k } i := by
    intro hne
    obtain hempty | ⟨q, hq, hafter⟩ := h
    · exact .inl hempty
    refine .inr ⟨q, ?_, hafter⟩
    obtain ⟨m, hm⟩ := List.mem_iff_getElem?.mp hq
    refine List.mem_eraseIdx_iff_getElem?.mpr ⟨m, fun hmk => hne ?_, hm⟩
    subst hmk
    obtain rfl : p = q := Option.some.inj (hp.symm.trans hm)
    exact hafter
  cases hafter : p.after with
  | finish => exact hrest (by simp [hafter])
  | nuke j =>
    by_cases hij : j = i
    · subst hij
      exact nuke_drained _ j
    · exact (nuke_shrinks _ j).drained (hrest (by simpa [hafter] using hij))
  | stop j => exact (stopActivity_shrinks _ _).drained (hrest (by simp [hafter]))

/-- Every step keeps requests off the disabled endpoints. -/
theorem udcMachine_step_drained (hi : i ≠ 0) {label : UdcStep} (h : DrainedOrDraining dum i)
    (hstep : udcMachine.step dum label = some dum') : DrainedOrDraining dum' i := by
  have hkeep : ∀ p ∈ dum.pending, ∃ q ∈ dum.pending, q.after = p.after := fun p hp => ⟨p, hp, rfl⟩
  cases label with
  | prepare n length complete bytes =>
    obtain ⟨-, rfl⟩ := udcMachine_step hstep
    exact h.of_same rfl rfl hkeep
  | enable j epAddr =>
    obtain ⟨-, rfl⟩ := udcMachine_step hstep
    obtain hsame | heq := dummyEnable_cases dum j epAddr
    · rwa [hsame]
    · rw [heq]
      by_cases hij : i = j
      · subst hij
        exact .inl fun hdesc => absurd hdesc (by simp [UoeUdc.setEp])
      · have hother : (dum.setEp j { dum.ep j with desc := some epAddr, halted := false, wedged := false }).ep i =
            dum.ep i := Function.update_of_ne hij _ _
        exact h.of_same (by rw [hother]) (by rw [hother]) hkeep
  | queue j n =>
    obtain ⟨hj, rfl⟩ := udcMachine_step hstep
    by_cases hdesc : (dum.ep i).desc = none
    · obtain haside | ⟨-, -, hpending, haside⟩ := dummyQueue_aside hi hdesc ⟨j, hj⟩ n
      · exact h.of_same haside.desc haside.queue (haside.pending.symm ▸ hkeep)
      · refine h.of_same haside.desc haside.queue fun p hp => ⟨p, ?_, rfl⟩
        rw [hpending]
        exact List.mem_cons_of_mem _ hp
    · obtain ⟨-, hsame⟩ | ⟨-, hep, -⟩ := dummyQueue_cases dum j n
      · rw [hsame]
        exact h
      · refine .inl fun hnone => absurd ?_ hdesc
        rw [hep, setQueue_desc] at hnone
        exact hnone
  | dequeue j n =>
    obtain ⟨-, rfl⟩ := udcMachine_step hstep
    obtain hsame | ⟨-, heq⟩ := dummyDequeue_cases dum j n
    · rwa [hsame]
    · rw [heq]
      exact (shrinks_unlink dum j List.erase_sublist _ _ _).drained h
  | disable j =>
    obtain ⟨-, rfl⟩ := udcMachine_step hstep
    obtain hsame | heq := dummyDisable_cases dum j
    · rwa [hsame]
    · rw [heq]
      by_cases hij : i = j
      · subst hij
        exact nuke_drained _ i
      · have hother : (dum.setEp j { dum.ep j with desc := none }).ep i = dum.ep i :=
          Function.update_of_ne hij _ _
        exact (nuke_shrinks _ j).drained (h.of_same (by rw [hother]) (by rw [hother]) hkeep)
  | udcStop =>
    obtain rfl : dum' = dummyUdcStop dum := udcMachine_step hstep
    have hfields : Shrinks dum { dum with intsEnabled := false, address := 0 } :=
      shrinks_of_ep rfl rfl
    exact (hfields.trans (stopActivity_shrinks _ _)).drained h
  | poll epAddr seq =>
    obtain rfl : dum' = uoeUdcPoll dum epAddr seq := udcMachine_step hstep
    obtain ⟨reply, heq⟩ | ⟨j, r, rest, reply, -, hqueue, heq⟩ := uoeUdcPoll_cases dum epAddr seq
    · rw [heq]
      exact h.of_same rfl rfl hkeep
    · rw [heq]
      have hshrinks := shrinks_setQueue dum j (hqueue ▸ List.sublist_cons_self r rest)
      exact Shrinks.drained ⟨hshrinks.desc, hshrinks.queue, fun p hp => List.mem_cons_of_mem _ hp⟩ h
  | giveback k =>
    obtain ⟨p, hp, -, rfl⟩ := udcMachine_step hstep
    exact giveback_drained h hp
  | resume k =>
    obtain ⟨p, hp, -, rfl⟩ := udcMachine_step hstep
    exact resume_drained h hp

/-- In every state of every run, an endpoint without a descriptor has requests on its queue only while a
`dummy_disable` is draining it. -/
theorem disabled_drained (req : ReqRef → UsbRequest) (userBuf : ℕ → ℕ → UInt8) (labels : List UdcStep) :
    udcMachine.Always (fun dum => ∀ i, i ≠ 0 → DrainedOrDraining dum i) (udcStart req userBuf) labels :=
  udcMachine.always_of_step
    (fun _ _ _ h hstep i hi => udcMachine_step_drained hi (h i hi) hstep)
    (fun _ _ => .inl fun _ => rfl) labels

end Disabled

end LinuxFunctionTest.DummyUsb
