import LinuxFunctionTest.DummyUsb.Controller
import LinuxFunctionTest.Library.Slots
import Mathlib.Data.List.Nodup

/-!
# Conservation of gadget requests

Every removal path of the controller unlinks a request and becomes obliged to give it back, and
`dummy_queue` accepts a request by linking it or, on the fast path, by becoming obliged to give it
back while `fifo_req` is linked in its place. The accounting is one equation per request between
acceptances, givebacks, obligations and links, and every step keeps it.
-/

namespace LinuxFunctionTest.DummyUsb

namespace UoeUdc

/-- How often a request is linked on the endpoint queues. -/
def linkedCount (dum : UoeUdc) (r : ReqRef) : ℕ :=
  ((List.range dummyEndpoints).map fun i => (dum.ep i).queue.count r).sum

/-- How many calls under way have still to give a request back. -/
def dueCount (dum : UoeUdc) (r : ReqRef) : ℕ :=
  dum.pending.countP fun p => decide (p.req = r) && !p.given

/-- How often a request was accepted. -/
def acceptedCount (dum : UoeUdc) (n : ℕ) : ℕ := dum.accepted.countP fun a => decide (a.1 = n)

/-- How often a request was given back. -/
def givenCount (dum : UoeUdc) (r : ReqRef) : ℕ :=
  dum.givenBack.countP fun g => decide (g.req = r)

end UoeUdc

/-- Every acceptance of a request was followed by a giveback, or its giveback is due, or the request
is linked; and no request is linked twice, on one queue or on two. -/
structure RequestsConserved (dum : UoeUdc) : Prop where
  accounted : ∀ n, dum.acceptedCount n =
    dum.givenCount (.user n) + dum.dueCount (.user n) + dum.linkedCount (.user n)
  once : ∀ r, dum.linkedCount r ≤ 1

/-- The call goes on with an endpoint of the controller. -/
def After.InRange : After → Prop
  | .finish => True
  | .nuke i => i < dummyEndpoints
  | .stop _ => True

/-- Every call under way goes on with an endpoint of the controller. -/
def PendingInRange (dum : UoeUdc) : Prop := ∀ p ∈ dum.pending, p.after.InRange

/-- The step accepts nothing, gives nothing back, and moves requests from the queues to the calls
under way at most. -/
structure Transfers (dum dum' : UoeUdc) : Prop where
  accepted : ∀ n, dum'.acceptedCount n = dum.acceptedCount n
  givenBack : ∀ r, dum'.givenCount r = dum.givenCount r
  held : ∀ r, dum'.dueCount r + dum'.linkedCount r = dum.dueCount r + dum.linkedCount r
  linked_le : ∀ r, dum'.linkedCount r ≤ dum.linkedCount r
  inRange : PendingInRange dum → PendingInRange dum'

/-- Nothing moves. -/
theorem Transfers.refl (dum : UoeUdc) : Transfers dum dum :=
  ⟨fun _ => rfl, fun _ => rfl, fun _ => rfl, fun _ => le_refl _, id⟩

/-- Transfers compose. -/
theorem Transfers.trans {a b c : UoeUdc} (hab : Transfers a b) (hbc : Transfers b c) :
    Transfers a c where
  accepted := fun n => (hbc.accepted n).trans (hab.accepted n)
  givenBack := fun r => (hbc.givenBack r).trans (hab.givenBack r)
  held := fun r => (hbc.held r).trans (hab.held r)
  linked_le := fun r => (hbc.linked_le r).trans (hab.linked_le r)
  inRange := fun h => hbc.inRange (hab.inRange h)

/-- A transfer keeps the accounting. -/
theorem RequestsConserved.of_transfers {dum dum' : UoeUdc} (h : RequestsConserved dum)
    (ht : Transfers dum dum') : RequestsConserved dum' where
  accounted := by
    intro n
    have hbefore := h.accounted n
    have hheld := ht.held (.user n)
    rw [ht.accepted, ht.givenBack, hbefore]
    omega
  once := fun r => (ht.linked_le r).trans (h.once r)

/-- Replacing a queue changes the links by the difference of its counts. -/
theorem linkedCount_setQueue (dum : UoeUdc) {i : ℕ} (hi : i < dummyEndpoints) (queue : List ReqRef)
    (r : ReqRef) :
    (dum.setQueue i queue).linkedCount r + (dum.ep i).queue.count r =
      dum.linkedCount r + queue.count r :=
  Slots.sum_update List.nodup_range (List.mem_range.mpr hi) dum.ep (fun ep => ep.queue.count r)
    { dum.ep i with queue := queue }

/-- Replacing an endpoint without touching its queue changes no link. -/
theorem linkedCount_setEp (dum : UoeUdc) (i : ℕ) (ep : UoeEp) (hqueue : ep.queue = (dum.ep i).queue)
    (r : ReqRef) : (dum.setEp i ep).linkedCount r = dum.linkedCount r := by
  unfold UoeUdc.linkedCount
  congr 1
  apply List.map_congr_left
  intro j _
  by_cases hj : j = i
  · subst hj
    simp only [UoeUdc.setEp, Function.update_self, hqueue]
  · simp only [UoeUdc.setEp, Function.update_of_ne hj]

/-- The check of a list head sees no link. -/
theorem linked_eq_false_iff (dum : UoeUdc) (r : ReqRef) :
    dum.linked r = false ↔ dum.linkedCount r = 0 := by
  rw [UoeUdc.linked, List.any_eq_false, UoeUdc.linkedCount, List.sum_eq_zero_iff_forall_eq_nat]
  simp [List.count_eq_zero]

/-- Dropping the lock with a request to give back makes its giveback due. -/
theorem dueCount_drop (dum : UoeUdc) (req r : ReqRef) (fast : Bool) (after : After) :
    (dum.drop ⟨req, fast, after, false⟩).dueCount r =
      dum.dueCount r + if req = r then 1 else 0 := by
  simp [UoeUdc.dueCount, UoeUdc.drop, List.countP_cons]

/-- Unlinking a request from a queue and becoming obliged to give it back is a transfer. -/
theorem transfers_unlink {dum : UoeUdc} {i : ℕ} (hi : i < dummyEndpoints) {r : ReqRef}
    {queue : List ReqRef} (hqueue : (dum.ep i).queue.Perm (r :: queue)) (req : UsbRequest)
    {after : After} (hafter : after.InRange) :
    Transfers dum (((dum.setQueue i queue).setReq r req).drop ⟨r, false, after, false⟩) where
  accepted := fun _ => rfl
  givenBack := fun _ => rfl
  held := by
    intro x
    have hcount := hqueue.count_eq x
    have hlinks := linkedCount_setQueue dum hi queue x
    rw [dueCount_drop]
    rw [List.count_cons] at hcount
    change dum.dueCount x + (if r = x then 1 else 0) + (dum.setQueue i queue).linkedCount x =
      dum.dueCount x + dum.linkedCount x
    simp only [beq_iff_eq] at hcount
    omega
  linked_le := by
    intro x
    have hcount := hqueue.count_eq x
    have hlinks := linkedCount_setQueue dum hi queue x
    rw [List.count_cons] at hcount
    change (dum.setQueue i queue).linkedCount x ≤ dum.linkedCount x
    omega
  inRange := fun h => List.forall_mem_cons.mpr ⟨hafter, h⟩

/-- A pass of `nuke` is a transfer. -/
theorem nukeStep_transfers {dum dum' : UoeUdc} {i : ℕ} (hi : i < dummyEndpoints) {after : After}
    (hafter : after.InRange) (h : nukeStep dum i after = some dum') : Transfers dum dum' := by
  obtain ⟨r, rest, hqueue, rfl⟩ := nukeStep_cases h
  exact transfers_unlink hi (List.Perm.of_eq hqueue) _ hafter

/-- `nuke` is a transfer. -/
theorem nuke_transfers (dum : UoeUdc) {i : ℕ} (hi : i < dummyEndpoints) :
    Transfers dum (nuke dum i) := by
  obtain ⟨-, hsame⟩ | hpass := nuke_cases dum i
  · rw [hsame]
    exact Transfers.refl dum
  · exact nukeStep_transfers hi (show (After.nuke i).InRange from hi) hpass

/-- `stop_activity` is a transfer. -/
theorem stopActivity_transfers (dum : UoeUdc) (count : ℕ) : Transfers dum (stopActivity dum count) := by
  obtain ⟨i, -, hi, -, hpass⟩ | ⟨-, heq⟩ := stopActivity_cases dum count
  · exact nukeStep_transfers hi (show (After.stop _).InRange from trivial) hpass
  · rw [heq]
    exact ⟨fun _ => rfl, fun _ => rfl, fun _ => rfl, fun _ => le_refl _, id⟩

/-- Replacing an endpoint without touching its queue is a transfer. -/
theorem transfers_setEp (dum : UoeUdc) (i : ℕ) (ep : UoeEp) (hqueue : ep.queue = (dum.ep i).queue) :
    Transfers dum (dum.setEp i ep) where
  accepted := fun _ => rfl
  givenBack := fun _ => rfl
  held := fun r => by rw [linkedCount_setEp dum i ep hqueue]; rfl
  linked_le := fun r => (linkedCount_setEp dum i ep hqueue r).le
  inRange := id

/-- `dummy_enable` is a transfer. -/
theorem dummyEnable_transfers (dum : UoeUdc) (i : ℕ) (epAddr : UInt8) :
    Transfers dum (dummyEnable dum i epAddr).1 := by
  obtain hsame | heq := dummyEnable_cases dum i epAddr
  · rw [hsame]
    exact Transfers.refl dum
  · rw [heq]
    exact transfers_setEp dum i _ rfl

/-- `dummy_disable` is a transfer. -/
theorem dummyDisable_transfers (dum : UoeUdc) {i : ℕ} (hi : i < dummyEndpoints) :
    Transfers dum (dummyDisable dum i).1 := by
  obtain hsame | heq := dummyDisable_cases dum i
  · rw [hsame]
    exact Transfers.refl dum
  · rw [heq]
    exact (transfers_setEp dum i { dum.ep i with desc := none } rfl).trans (nuke_transfers _ hi)

/-- `dummy_dequeue` is a transfer. -/
theorem dummyDequeue_transfers (dum : UoeUdc) {i : ℕ} (hi : i < dummyEndpoints) (n : ℕ) :
    Transfers dum (dummyDequeue dum i n).1 := by
  obtain hsame | ⟨hmem, heq⟩ := dummyDequeue_cases dum i n
  · rw [hsame]
    exact Transfers.refl dum
  · rw [heq]
    exact transfers_unlink hi (List.perm_cons_erase hmem) _ trivial

/-- `dummy_udc_stop` is a transfer. -/
theorem dummyUdcStop_transfers (dum : UoeUdc) : Transfers dum (dummyUdcStop dum) := by
  have hfields : Transfers dum { dum with intsEnabled := false, address := 0 } :=
    ⟨fun _ => rfl, fun _ => rfl, fun _ => rfl, fun _ => le_refl _, id⟩
  exact hfields.trans (stopActivity_transfers _ _)

/-- A poll addresses an endpoint of the controller. -/
theorem polledEp_lt {dum : UoeUdc} {epAddr : UInt8} {i : ℕ} (h : polledEp dum epAddr = some i) :
    i < dummyEndpoints := by
  unfold polledEp at h
  split at h
  · next j hfind =>
    obtain rfl := Option.some.inj h
    exact List.mem_range.mp (List.mem_of_find?_eq_some hfind)
  · split_ifs at h
    obtain rfl := Option.some.inj h
    decide

/-- A poll is a transfer. -/
theorem uoeUdcPoll_transfers (dum : UoeUdc) (epAddr : UInt8) (seq : UInt16) :
    Transfers dum (uoeUdcPoll dum epAddr seq) := by
  obtain ⟨reply, heq⟩ | ⟨i, r, rest, reply, hep, hqueue, heq⟩ := uoeUdcPoll_cases dum epAddr seq
  · rw [heq]
    exact ⟨fun _ => rfl, fun _ => rfl, fun _ => rfl, fun _ => le_refl _, id⟩
  · rw [heq]
    have hunlink := transfers_unlink (polledEp_lt hep) (List.Perm.of_eq hqueue) (dum.req r)
      (show After.finish.InRange from trivial)
    exact ⟨hunlink.accepted, hunlink.givenBack, hunlink.held, hunlink.linked_le, hunlink.inRange⟩

/-- Going on after a giveback is a transfer. -/
theorem resume_transfers (dum : UoeUdc) {after : After} (hafter : after.InRange) :
    Transfers dum (resume dum after) := by
  cases after with
  | finish => exact Transfers.refl dum
  | nuke i => exact nuke_transfers dum hafter
  | stop i => exact stopActivity_transfers dum _

/-- Linking a request at the end of a queue counts once for it. -/
theorem linkedCount_append (dum : UoeUdc) {i : ℕ} (hi : i < dummyEndpoints) (req r : ReqRef) :
    (dum.setQueue i ((dum.ep i).queue ++ [req])).linkedCount r =
      dum.linkedCount r + if req = r then 1 else 0 := by
  have hlinks := linkedCount_setQueue dum hi ((dum.ep i).queue ++ [req]) r
  simp only [List.count_append, List.count_singleton, beq_iff_eq] at hlinks
  omega

/-- Accepting request `n` keeps the accounting when a request that was not linked is linked: either
`n` itself, or `fifo_req` while the giveback of `n` becomes due. -/
theorem accepted_conserved {dum dum' : UoeUdc} (h : RequestsConserved dum) {i n : ℕ}
    (hi : i < dummyEndpoints) {r : ReqRef} {bytes : List UInt8} (hfree : dum.linkedCount r = 0)
    (haccepted : dum'.accepted = (n, bytes) :: dum.accepted)
    (hgiven : dum'.givenBack = dum.givenBack)
    (hep : dum'.ep = (dum.setQueue i ((dum.ep i).queue ++ [r])).ep)
    (hpending : r = .user n ∧ dum'.pending = dum.pending ∨
      r = .fifo ∧ dum'.pending = ⟨.user n, true, .finish, false⟩ :: dum.pending) :
    RequestsConserved dum' := by
  have hlinked : ∀ x, dum'.linkedCount x = dum.linkedCount x + if r = x then 1 else 0 := by
    intro x
    rw [← linkedCount_append dum hi r x]
    simp only [UoeUdc.linkedCount, hep]
  constructor
  · intro m
    have hm := h.accounted m
    have hcount : dum'.acceptedCount m = dum.acceptedCount m + if n = m then 1 else 0 := by
      simp [UoeUdc.acceptedCount, haccepted, List.countP_cons]
    have hback : dum'.givenCount (.user m) = dum.givenCount (.user m) := by
      simp only [UoeUdc.givenCount, hgiven]
    rw [hcount, hback, hlinked]
    rcases hpending with ⟨rfl, hsame⟩ | ⟨rfl, hdrop⟩
    · have hdue : dum'.dueCount (.user m) = dum.dueCount (.user m) := by
        simp only [UoeUdc.dueCount, hsame]
      simp only [hdue, ReqRef.user.injEq]
      omega
    · have hdue : dum'.dueCount (.user m) = dum.dueCount (.user m) + if n = m then 1 else 0 := by
        simp [UoeUdc.dueCount, hdrop, List.countP_cons]
      simp only [hdue, reduceCtorEq, if_false]
      omega
  · intro x
    have hx := h.once x
    rw [hlinked]
    split
    · next heq => rw [← heq, hfree]
    · omega

/-- `dummy_queue` keeps the accounting: a refused request changes nothing. -/
theorem dummyQueue_conserved {dum : UoeUdc} (h : RequestsConserved dum) {i : ℕ}
    (hi : i < dummyEndpoints) (n : ℕ) : RequestsConserved (dummyQueue dum i n).1 := by
  unfold dummyQueue
  simp only
  split_ifs with hrefused hdesc hdriver hfast
  · exact h
  · exact h
  · have hfifo := (linked_eq_false_iff dum .fifo).mp hfast.2.1
    exact accepted_conserved h hi hfifo rfl rfl rfl (Or.inr ⟨rfl, rfl⟩)
  · have hfree : dum.linkedCount (.user n) = 0 := by
      apply (linked_eq_false_iff dum (.user n)).mp
      simpa using (not_or.mp hrefused).1
    exact accepted_conserved h hi hfree rfl rfl rfl (Or.inl ⟨rfl, rfl⟩)
  · exact h

/-- Marking a pending giveback as performed takes it off what is due. -/
theorem countP_set_given {pending : List Pending} {k : ℕ} {p : Pending}
    (hp : pending[k]? = some p) (hnot : p.given = false) (r : ReqRef) :
    ((pending.set k { p with given := true }).countP fun p => decide (p.req = r) && !p.given) +
        (if p.req = r then 1 else 0) =
      pending.countP fun p => decide (p.req = r) && !p.given := by
  induction pending generalizing k with
  | nil => simp at hp
  | cons q rest ih =>
    cases k with
    | zero =>
      obtain rfl : q = p := by simpa using hp
      simp [List.countP_cons, hnot]
    | succ k =>
      have hrest := ih (k := k) (by simpa using hp)
      simp only [List.set_cons_succ, List.countP_cons]
      omega

/-- A call that has given its request back owes nothing. -/
theorem countP_eraseIdx_given {pending : List Pending} {k : ℕ} {p : Pending}
    (hp : pending[k]? = some p) (hgiven : p.given = true) (r : ReqRef) :
    ((pending.eraseIdx k).countP fun p => decide (p.req = r) && !p.given) =
      pending.countP fun p => decide (p.req = r) && !p.given := by
  induction pending generalizing k with
  | nil => simp at hp
  | cons q rest ih =>
    cases k with
    | zero =>
      obtain rfl : q = p := by simpa using hp
      simp [hgiven]
    | succ k =>
      have hrest := ih (k := k) (by simpa using hp)
      simp only [List.eraseIdx_cons_succ, List.countP_cons, hrest]

/-- Performing a due giveback keeps the accounting. -/
theorem giveback_conserved {dum : UoeUdc} (h : RequestsConserved dum) {k : ℕ} {p : Pending}
    (hp : dum.pending[k]? = some p) (hnot : p.given = false) :
    RequestsConserved
      (giveback { dum with pending := dum.pending.set k { p with given := true } } p) := by
  obtain ⟨hep, hpending, haccepted, -, -, g, hg, hgiven⟩ :=
    giveback_fields { dum with pending := dum.pending.set k { p with given := true } } p
  constructor
  · intro m
    have hm := h.accounted m
    have hdue := countP_set_given hp hnot (.user m)
    simp only [UoeUdc.acceptedCount, UoeUdc.givenCount, UoeUdc.dueCount, UoeUdc.linkedCount, hep,
      hpending, haccepted, hgiven, List.countP_cons, hg, decide_eq_true_eq] at hm hdue ⊢
    omega
  · intro r
    have hr := h.once r
    simp only [UoeUdc.linkedCount, hep] at hr ⊢
    exact hr

/-- The end of a call keeps what is due: it had given its request back. -/
theorem finished_transfers {dum : UoeUdc} {k : ℕ} {p : Pending} (hp : dum.pending[k]? = some p)
    (hgiven : p.given = true) :
    Transfers dum { dum with pending := dum.pending.eraseIdx k } where
  accepted := fun _ => rfl
  givenBack := fun _ => rfl
  held := by
    intro r
    have hdue := countP_eraseIdx_given hp hgiven r
    simp only [UoeUdc.dueCount, UoeUdc.linkedCount, hdue]
  linked_le := fun _ => le_refl _
  inRange := fun h q hq => h q (List.mem_of_mem_eraseIdx hq)

/-- A performed giveback leaves its call where it goes on. -/
theorem giveback_inRange {dum : UoeUdc} (h : PendingInRange dum) {k : ℕ} {p : Pending}
    (hp : dum.pending[k]? = some p) :
    PendingInRange
      (giveback { dum with pending := dum.pending.set k { p with given := true } } p) := by
  obtain ⟨-, hpending, -⟩ :=
    giveback_fields { dum with pending := dum.pending.set k { p with given := true } } p
  intro q hq
  rw [hpending] at hq
  rcases List.mem_or_eq_of_mem_set hq with hq | rfl
  · exact h q hq
  · exact h p (List.mem_of_getElem? hp)

/-- `dummy_queue` leaves every call where it goes on. -/
theorem dummyQueue_inRange {dum : UoeUdc} (h : PendingInRange dum) (i n : ℕ) :
    PendingInRange (dummyQueue dum i n).1 := by
  unfold dummyQueue
  simp only
  split_ifs
  · exact h
  · exact h
  · exact List.forall_mem_cons.mpr ⟨trivial, h⟩
  · exact h
  · exact h

/-- A gadget driver that fills in a request it owns moves nothing. -/
theorem prepare_transfers (dum : UoeUdc) (n length : ℕ) (complete : Bool) (bytes : ℕ → UInt8) :
    Transfers dum (prepare dum n length complete bytes) :=
  ⟨fun _ => rfl, fun _ => rfl, fun _ => rfl, fun _ => le_refl _, id⟩

/-- The accounting, with what a call needs to go on. -/
def Accounted (dum : UoeUdc) : Prop := RequestsConserved dum ∧ PendingInRange dum

/-- A transfer keeps the accounting and the calls under way. -/
theorem Accounted.of_transfers {dum dum' : UoeUdc} (h : Accounted dum) (ht : Transfers dum dum') :
    Accounted dum' :=
  ⟨h.1.of_transfers ht, ht.inRange h.2⟩

/-- Every step of the controller keeps the accounting. -/
theorem udcMachine_step_accounted (dum : UoeUdc) (label : UdcStep) (dum' : UoeUdc)
    (h : Accounted dum) (hstep : udcMachine.step dum label = some dum') : Accounted dum' := by
  cases label with
  | prepare n length complete bytes =>
    obtain ⟨-, rfl⟩ := udcMachine_step hstep
    exact h.of_transfers (prepare_transfers dum n length complete bytes)
  | enable i epAddr =>
    obtain ⟨-, rfl⟩ := udcMachine_step hstep
    exact h.of_transfers (dummyEnable_transfers dum i epAddr)
  | queue i n =>
    obtain ⟨hi, rfl⟩ := udcMachine_step hstep
    exact ⟨dummyQueue_conserved h.1 hi n, dummyQueue_inRange h.2 i n⟩
  | dequeue i n =>
    obtain ⟨hi, rfl⟩ := udcMachine_step hstep
    exact h.of_transfers (dummyDequeue_transfers dum hi n)
  | disable i =>
    obtain ⟨hi, rfl⟩ := udcMachine_step hstep
    exact h.of_transfers (dummyDisable_transfers dum hi)
  | udcStop =>
    obtain rfl : dum' = dummyUdcStop dum := udcMachine_step hstep
    exact h.of_transfers (dummyUdcStop_transfers dum)
  | poll epAddr seq =>
    obtain rfl : dum' = uoeUdcPoll dum epAddr seq := udcMachine_step hstep
    exact h.of_transfers (uoeUdcPoll_transfers dum epAddr seq)
  | giveback k =>
    obtain ⟨p, hp, hdue, rfl⟩ := udcMachine_step hstep
    exact ⟨giveback_conserved h.1 hp hdue, giveback_inRange h.2 hp⟩
  | resume k =>
    obtain ⟨p, hp, hgiven, rfl⟩ := udcMachine_step hstep
    have hafter := h.2 p (List.mem_of_getElem? hp)
    exact h.of_transfers ((finished_transfers hp hgiven).trans (resume_transfers _ hafter))

/-- A controller fresh from its initialization has nothing accepted, due or linked. -/
theorem udcStart_accounted (req : ReqRef → UsbRequest) (userBuf : ℕ → ℕ → UInt8) :
    Accounted (udcStart req userBuf) := by
  have hnone : ∀ r, (udcStart req userBuf).linkedCount r = 0 := by
    intro r
    simp [UoeUdc.linkedCount, udcStart]
  refine ⟨⟨fun n => ?_, fun r => ?_⟩, fun p hp => absurd hp (List.not_mem_nil)⟩
  · rw [hnone]
    rfl
  · rw [hnone]
    exact Nat.zero_le 1

/-- Gadget requests complete exactly once: in every state of every run, the acceptances of a request
are its givebacks, the givebacks due in calls under way and its links, and no request, `fifo_req`
included, is linked twice. -/
theorem requests_conserved (req : ReqRef → UsbRequest) (userBuf : ℕ → ℕ → UInt8)
    (labels : List UdcStep) :
    udcMachine.Always RequestsConserved (udcStart req userBuf) labels :=
  (udcMachine.always_of_step udcMachine_step_accounted (udcStart_accounted req userBuf)
    labels).mono _ fun _ h => h.1

end LinuxFunctionTest.DummyUsb
