import LinuxFunctionTest.DummyUsb.Controller

/-!
# IN transfers

`dummy_queue` calls on one IN endpoint and polls for it. A reply to a poll carries the first
`actual` bytes of the request. The fast path copies the request to `fifo_req` while `actual` is 0
and sets it only in the request it gives back, and on the plain path nothing sets it. A request of
the plain path is also given back with the status it was queued with. What such a call does to
the transfer shows only when the endpoint is drained, so it is carried along as `Spoiled`.
-/

namespace LinuxFunctionTest.DummyUsb

open Errno

/-- The data of a reply. -/
def Reply.payload : Reply → List UInt8
  | .data _ _ payload => payload
  | .nak _ _ => []
  | .stall _ _ => []

namespace UoeUdc

/-- The payloads of the DATA replies in the order they were sent. -/
def dataSent (dum : UoeUdc) : List UInt8 := (dum.sent.reverse.map Reply.payload).flatten

/-- The bytes of the accepted requests in the order of their acceptance. -/
def dataAccepted (dum : UoeUdc) : List UInt8 := (dum.accepted.reverse.map Prod.snd).flatten

end UoeUdc

/-- A step on one endpoint: the gadget driver fills in or queues a request, the host polls, or a call
under way goes on. -/
inductive InStep where
  | prepare (n length : ℕ) (complete : Bool) (bytes : ℕ → UInt8)
  | queue (n : ℕ)
  | poll (seq : UInt16)
  | giveback (k : ℕ)
  | resume (k : ℕ)

/-- The runs of the controller on endpoint `i` with address `epAddr`. A gadget driver does not queue
a request again before it was given back. -/
def inMachine (i : ℕ) (epAddr : UInt8) : Machine UoeUdc InStep where
  step dum label := match label with
    | .prepare n length complete bytes => udcMachine.step dum (.prepare n length complete bytes)
    | .queue n =>
      if ∀ p ∈ dum.pending, p.given = false → p.req ≠ .user n then
        udcMachine.step dum (.queue i n)
      else none
    | .poll seq => udcMachine.step dum (.poll epAddr seq)
    | .giveback k => udcMachine.step dum (.giveback k)
    | .resume k => udcMachine.step dum (.resume k)

/-- An enabled IN endpoint that is not halted and is the one polls for its address reach, before
anything is queued on it. -/
structure EnabledIn (dum : UoeUdc) (i : ℕ) (epAddr : UInt8) : Prop where
  index : i < dummyEndpoints
  desc : (dum.ep i).desc = some epAddr
  dirIn : (epAddr &&& usbDirIn != 0) = true
  polled : polledEp dum epAddr = some i
  driver : dum.driver = true
  halted : (dum.ep i).halted = false
  queue : (dum.ep i).queue = []
  pending : dum.pending = []
  accepted : dum.accepted = []
  givenBack : dum.givenBack = []
  sent : dum.sent = []

/-- The queue of the endpoint is empty and no giveback is due. -/
def Drained (dum : UoeUdc) (i : ℕ) : Prop :=
  (dum.ep i).queue = [] ∧ ∀ p ∈ dum.pending, p.given = true

/-- The host received the bytes that were accepted, in their order, and every request was given back
with status 0 and its full length. -/
def Intact (dum : UoeUdc) : Prop :=
  dum.dataSent = dum.dataAccepted ∧
    ∀ g ∈ dum.givenBack, ∀ n, g.req = .user n → g.status = 0 ∧ g.actual = g.length

/-- `dummy_queue` accepts the request. -/
def Accepts (dum : UoeUdc) (i n : ℕ) : Prop :=
  dum.linked (.user n) = false ∧ (dum.req (.user n)).complete = true ∧
    ¬ ((dum.ep i).desc.isNone ∧ i ≠ 0) ∧ dum.driver = true

/-- A request that is accepted has length 0 and finds the queue of the endpoint empty and `fifo_req`
unlinked. -/
def QueuesNothing (i : ℕ) (dum : UoeUdc) : InStep → Prop
  | .queue n => Accepts dum i n → (dum.req (.user n)).length = 0 ∧
      (dum.ep i).queue = [] ∧ dum.linked .fifo = false
  | _ => True

/-- The request is on the plain path: linked, or unlinked by a poll and not yet given back. -/
def Awaiting (dum : UoeUdc) (i n : ℕ) : Prop :=
  .user n ∈ (dum.ep i).queue ∨
    ∃ p ∈ dum.pending, p.req = .user n ∧ p.fast = false ∧ p.given = false

/-- Endpoint `i` is an IN endpoint, and the one polls for the address reach. -/
def PollsReach (dum : UoeUdc) (i : ℕ) (epAddr : UInt8) : Prop :=
  (dum.ep i).desc.any (fun epAddr => epAddr &&& usbDirIn != 0) = true ∧ polledEp dum epAddr = some i

/-- What holds of the endpoint in every state: the requests on it carry `actual` 0, those on the plain
path are still in progress, and no reply carried data. -/
structure InTransfer (i : ℕ) (epAddr : UInt8) (dum : UoeUdc) : Prop where
  reaches : PollsReach dum i epAddr
  finish : ∀ p ∈ dum.pending, p.after = .finish
  fast : ∀ p ∈ dum.pending, p.fast = true → p.given = false →
    ∃ n, p.req = .user n ∧ ¬ Awaiting dum i n
  fifo : .fifo ∈ (dum.ep i).queue → (dum.req .fifo).actual = 0
  awaiting : ∀ n, Awaiting dum i n →
    (dum.req (.user n)).actual = 0 ∧ (dum.req (.user n)).status = -einprogress
  payload : ∀ r ∈ dum.sent, r.payload = []
  given : ∀ g ∈ dum.givenBack, ∀ n, g.req = .user n →
    g.status = 0 ∧ g.actual = g.length ∨ g.status = -einprogress

/-- The transfer can no longer end intact: bytes were accepted, a request took the plain path, or one
was given back in progress. -/
def Spoiled (i : ℕ) (dum : UoeUdc) : Prop :=
  (∃ a ∈ dum.accepted, a.2 ≠ []) ∨ (∃ n, Awaiting dum i n) ∨
    ∃ g ∈ dum.givenBack, ∃ n, g.req = .user n ∧ g.status = -einprogress

/-- A drained endpoint is intact unless the transfer was spoiled. -/
theorem InTransfer.intact_iff {i : ℕ} {epAddr : UInt8} {dum : UoeUdc} (h : InTransfer i epAddr dum)
    (hdrained : Drained dum i) : Intact dum ↔ ¬ Spoiled i dum := by
  have hsent : dum.dataSent = [] := by
    simp only [UoeUdc.dataSent, List.flatten_eq_nil_iff, List.mem_map, List.mem_reverse]
    rintro _ ⟨r, hr, rfl⟩
    exact h.payload r hr
  have hnone : ∀ n, ¬ Awaiting dum i n := by
    rintro n (hmem | ⟨p, hp, -, -, hgiven⟩)
    · rw [hdrained.1] at hmem
      exact absurd hmem List.not_mem_nil
    · exact absurd (hdrained.2 p hp) (by simp [hgiven])
  have haccepted : dum.dataAccepted = [] ↔ ∀ a ∈ dum.accepted, a.2 = [] := by
    simp only [UoeUdc.dataAccepted, List.flatten_eq_nil_iff, List.mem_map, List.mem_reverse,
      forall_exists_index, and_imp, forall_apply_eq_imp_iff₂]
  constructor
  · rintro ⟨hdata, hback⟩ (⟨a, ha, hbytes⟩ | ⟨n, hn⟩ | ⟨g, hg, n, hreq, hstatus⟩)
    · exact hbytes (haccepted.mp (hdata.symm.trans hsent) a ha)
    · exact hnone n hn
    · have hzero := (hback g hg n hreq).1
      rw [hstatus] at hzero
      exact absurd hzero (by decide)
  · intro hclean
    refine ⟨?_, ?_⟩
    · rw [hsent, eq_comm, haccepted]
      intro a ha
      by_contra hbytes
      exact hclean (Or.inl ⟨a, ha, hbytes⟩)
    · intro g hg n hreq
      rcases h.given g hg n hreq with hok | hstatus
      · exact hok
      · exact absurd (Or.inr (Or.inr ⟨g, hg, n, hreq, hstatus⟩)) hclean

/-- Replacing a queue keeps the descriptors. -/
theorem setQueue_desc (dum : UoeUdc) (i : ℕ) (queue : List ReqRef) (j : ℕ) :
    ((dum.setQueue i queue).ep j).desc = (dum.ep j).desc := by
  by_cases hj : j = i
  · subst hj
    simp [UoeUdc.setQueue, UoeUdc.setEp]
  · simp [UoeUdc.setQueue, UoeUdc.setEp, Function.update_of_ne hj]

/-- Polls find endpoints by their descriptors alone, which no queue operation changes. -/
theorem PollsReach.setQueue {dum dum' : UoeUdc} {i : ℕ} {epAddr : UInt8}
    (h : PollsReach dum i epAddr) {queue : List ReqRef} (hep : dum'.ep = (dum.setQueue i queue).ep) :
    PollsReach dum' i epAddr := by
  have hdesc : ∀ j, (dum'.ep j).desc = (dum.ep j).desc := by
    intro j
    rw [hep, setQueue_desc]
  simpa only [PollsReach, polledEp, hdesc] using h

/-- The replaced queue. -/
theorem setQueue_queue (dum : UoeUdc) (i : ℕ) (queue : List ReqRef) :
    ((dum.setQueue i queue).ep i).queue = queue := by
  simp [UoeUdc.setQueue, UoeUdc.setEp]

/-- A request without a giveback due that the checks see unlinked is not on the plain path. -/
theorem not_awaiting {dum : UoeUdc} {i : ℕ} (hi : i < dummyEndpoints) {n : ℕ}
    (hlinked : dum.linked (.user n) = false)
    (hdue : ∀ p ∈ dum.pending, p.given = false → p.req ≠ .user n) : ¬ Awaiting dum i n := by
  rintro (hmem | ⟨p, hp, hreq, -, hgiven⟩)
  · rw [UoeUdc.linked, List.any_eq_false] at hlinked
    exact hlinked i (List.mem_range.mpr hi) (by simpa using hmem)
  · exact hdue p hp hgiven hreq

/-- Filling in a request that the gadget driver owns keeps the transfer. -/
theorem prepare_inTransfer {i : ℕ} {epAddr : UInt8} {dum : UoeUdc} (h : InTransfer i epAddr dum)
    (n length : ℕ) (complete : Bool) (bytes : ℕ → UInt8) :
    InTransfer i epAddr (prepare dum n length complete bytes) := by
  refine ⟨h.reaches, h.finish, h.fast, h.fifo, ?_, h.payload, h.given⟩
  intro m hm
  have hbefore := h.awaiting m hm
  by_cases hmn : m = n
  · subst hmn
    simpa [prepare, UoeUdc.setReq] using hbefore
  · simpa [prepare, UoeUdc.setReq, Function.update_of_ne, hmn] using hbefore

/-- What an accepted request does on the fast path: it becomes due, and `fifo_req` is linked. -/
theorem fastQueue_inTransfer {i : ℕ} {epAddr : UInt8} {dum dum' : UoeUdc}
    (h : InTransfer i epAddr dum) {n : ℕ} (hn : ¬ Awaiting dum i n)
    (hep : dum'.ep = (dum.setQueue i ((dum.ep i).queue ++ [.fifo])).ep)
    (hpending : dum'.pending = ⟨.user n, true, .finish, false⟩ :: dum.pending)
    (hfifo : (dum'.req .fifo).actual = 0)
    (hreq : ∀ m, m ≠ n → dum'.req (.user m) = dum.req (.user m))
    (hgiven : dum'.givenBack = dum.givenBack) (hsent : dum'.sent = dum.sent) :
    (∀ m, Awaiting dum' i m ↔ Awaiting dum i m) ∧ InTransfer i epAddr dum' := by
  have hqueue : (dum'.ep i).queue = (dum.ep i).queue ++ [.fifo] := by
    rw [hep, setQueue_queue]
  have hawait : ∀ m, Awaiting dum' i m ↔ Awaiting dum i m := by
    intro m
    simp [Awaiting, hqueue, hpending]
  refine ⟨hawait, h.reaches.setQueue hep, ?_, ?_, fun _ => hfifo, ?_, ?_, ?_⟩
  · rw [hpending]
    exact List.forall_mem_cons.mpr ⟨rfl, h.finish⟩
  · rw [hpending]
    refine List.forall_mem_cons.mpr ⟨fun _ _ => ⟨n, rfl, by rwa [hawait]⟩, ?_⟩
    intro p hp hfast hgiven
    obtain ⟨m, hm, hnot⟩ := h.fast p hp hfast hgiven
    exact ⟨m, hm, by rwa [hawait]⟩
  · intro m hm
    have hmn : m ≠ n := by
      rintro rfl
      exact hn ((hawait m).mp hm)
    rw [hreq m hmn]
    exact h.awaiting m ((hawait m).mp hm)
  · rw [hsent]
    exact h.payload
  · rw [hgiven]
    exact h.given

/-- What an accepted request does on the plain path: it is linked. -/
theorem plainQueue_inTransfer {i : ℕ} {epAddr : UInt8} {dum dum' : UoeUdc}
    (h : InTransfer i epAddr dum) {n : ℕ}
    (hdue : ∀ p ∈ dum.pending, p.given = false → p.req ≠ .user n)
    (hep : dum'.ep = (dum.setQueue i ((dum.ep i).queue ++ [.user n])).ep)
    (hpending : dum'.pending = dum.pending) (hfifo : dum'.req .fifo = dum.req .fifo)
    (hstatus : (dum'.req (.user n)).actual = 0 ∧ (dum'.req (.user n)).status = -einprogress)
    (hreq : ∀ m, m ≠ n → dum'.req (.user m) = dum.req (.user m))
    (hgiven : dum'.givenBack = dum.givenBack) (hsent : dum'.sent = dum.sent) :
    Awaiting dum' i n ∧ InTransfer i epAddr dum' := by
  have hqueue : (dum'.ep i).queue = (dum.ep i).queue ++ [.user n] := by
    rw [hep, setQueue_queue]
  have hawait : ∀ m, Awaiting dum' i m ↔ Awaiting dum i m ∨ m = n := by
    intro m
    simp only [Awaiting, hqueue, hpending, List.mem_append, List.mem_singleton, ReqRef.user.injEq]
    exact or_right_comm
  refine ⟨(hawait n).mpr (Or.inr rfl), h.reaches.setQueue hep, ?_, ?_, ?_, ?_, ?_, ?_⟩
  · rw [hpending]
    exact h.finish
  · rw [hpending]
    intro p hp hfast hgiven
    obtain ⟨m, hm, hnot⟩ := h.fast p hp hfast hgiven
    refine ⟨m, hm, ?_⟩
    rw [hawait]
    rintro (hm' | rfl)
    · exact hnot hm'
    · exact hdue p hp hgiven hm
  · intro hmem
    rw [hfifo]
    exact h.fifo (by simpa [hqueue] using hmem)
  · intro m hm
    by_cases hmn : m = n
    · exact hmn ▸ hstatus
    · rw [hreq m hmn]
      exact h.awaiting m (((hawait m).mp hm).resolve_right hmn)
  · rw [hsent]
    exact h.payload
  · rw [hgiven]
    exact h.given

/-- A request that a poll takes off the queue stays on its path. -/
theorem awaiting_polled {dum dum' : UoeUdc} {i : ℕ} {r : ReqRef} {rest : List ReqRef}
    (hqueue : (dum.ep i).queue = r :: rest) (hrest : (dum'.ep i).queue = rest)
    (hpending : dum'.pending = ⟨r, false, .finish, false⟩ :: dum.pending) (n : ℕ) :
    Awaiting dum' i n ↔ Awaiting dum i n := by
  rw [Awaiting, Awaiting, hqueue, hrest, hpending]
  simp only [List.mem_cons, exists_eq_or_imp, and_self, and_true, @eq_comm _ r]
  exact or_left_comm.trans or_assoc.symm

/-- A poll keeps the transfer: the request it takes off the queue carries `actual` 0, so the reply is
empty, and it stays on its path. -/
theorem uoeUdcPoll_inTransfer {i : ℕ} {epAddr : UInt8} {dum : UoeUdc} (h : InTransfer i epAddr dum)
    (seq : UInt16) :
    (Spoiled i (uoeUdcPoll dum epAddr seq) ↔ Spoiled i dum) ∧
      InTransfer i epAddr (uoeUdcPoll dum epAddr seq) := by
  unfold uoeUdcPoll
  rw [h.reaches.2]
  cases hqueue : (dum.ep i).queue with
  | nil =>
    simp only [hqueue]
    refine ⟨Iff.rfl, h.reaches, h.finish, h.fast, h.fifo, h.awaiting, ?_, h.given⟩
    refine List.forall_mem_cons.mpr ⟨?_, h.payload⟩
    split_ifs <;> rfl
  | cons r rest =>
    simp only [hqueue]
    have hactual : (dum.req r).actual = 0 := by
      cases r with
      | fifo => exact h.fifo (by simp [hqueue])
      | user n => exact (h.awaiting n (Or.inl (by simp [hqueue]))).1
    have hdata : (dum.setQueue i rest).req r = dum.req r := rfl
    rw [hdata, hactual]
    have hawait : ∀ n, Awaiting (((dum.setQueue i rest).reply (.data epAddr seq [])).drop
        ⟨r, false, .finish, false⟩) i n ↔ Awaiting dum i n :=
      awaiting_polled hqueue (setQueue_queue dum i rest) rfl
    have hspoiled := or_congr (Iff.refl (∃ a ∈ dum.accepted, a.2 ≠ []))
      (or_congr (exists_congr hawait)
        (Iff.refl (∃ g ∈ dum.givenBack, ∃ n, g.req = .user n ∧ g.status = -einprogress)))
    refine ⟨hspoiled, h.reaches.setQueue rfl, ?_, ?_, ?_, ?_, ?_, h.given⟩
    · exact List.forall_mem_cons.mpr ⟨rfl, h.finish⟩
    · refine List.forall_mem_cons.mpr ⟨fun hfast => absurd hfast (by simp), ?_⟩
      intro p hp hfast hgiven
      obtain ⟨m, hm, hnot⟩ := h.fast p hp hfast hgiven
      exact ⟨m, hm, fun hm' => hnot ((hawait m).mp hm')⟩
    · intro hmem
      have hrest : .fifo ∈ rest := by
        rw [← setQueue_queue dum i rest]
        exact hmem
      exact h.fifo (by simp [hqueue, hrest])
    · exact fun n hn => h.awaiting n ((hawait n).mp hn)
    · exact List.forall_mem_cons.mpr ⟨rfl, h.payload⟩

/-- A giveback that is due after one was performed was due before. -/
theorem due_of_set {pending : List Pending} {k : ℕ} {p q : Pending}
    (hq : q ∈ pending.set k { p with given := true }) (hdue : q.given = false) : q ∈ pending := by
  rcases List.mem_or_eq_of_mem_set hq with hq | rfl
  · exact hq
  · exact absurd hdue (by simp)

/-- Performing a giveback leaves the others due. -/
theorem mem_set_of_ne {pending : List Pending} {k : ℕ} {p q : Pending} (hp : pending[k]? = some p)
    (hq : q ∈ pending) (hne : q ≠ p) (p' : Pending) : q ∈ pending.set k p' := by
  obtain ⟨j, hj⟩ := List.mem_iff_getElem?.mp hq
  have hjk : k ≠ j := by
    rintro rfl
    exact hne (Option.some.inj (hj.symm.trans hp))
  exact List.mem_of_getElem? ((List.getElem?_set_ne hjk).trans hj)

/-- The giveback of the fast path keeps the transfer. -/
theorem fastGiveback_inTransfer {i : ℕ} {epAddr : UInt8} {dum : UoeUdc}
    (h : InTransfer i epAddr dum) {k : ℕ} {p : Pending} (hp : dum.pending[k]? = some p)
    (hnot : p.given = false) (hfast : p.fast = true) :
    let dum' := giveback { dum with pending := dum.pending.set k { p with given := true } } p
    (Spoiled i dum' ↔ Spoiled i dum) ∧ InTransfer i epAddr dum' := by
  intro dum'
  have hmem := List.mem_of_getElem? hp
  obtain ⟨n, hn, hnone⟩ := h.fast p hmem hfast hnot
  have hdum : dum' = { dum with
      pending := dum.pending.set k { p with given := true }
      req := Function.update dum.req (.user n)
        { dum.req (.user n) with actual := (dum.req (.user n)).length, status := 0 }
      givenBack := ⟨.user n, (dum.req (.user n)).length, (dum.req (.user n)).length, 0⟩ ::
        dum.givenBack } := by
    simp [dum', giveback, hfast, hn, UoeUdc.setReq]
  have hawait : ∀ m, Awaiting dum' i m ↔ Awaiting dum i m := by
    intro m
    rw [hdum]
    refine or_congr Iff.rfl ⟨?_, ?_⟩
    · rintro ⟨q, hq, hreq, hplain, hdue⟩
      exact ⟨q, due_of_set hq hdue, hreq, hplain, hdue⟩
    · rintro ⟨q, hq, hreq, hplain, hdue⟩
      have hne : q ≠ p := by
        rintro rfl
        exact absurd hfast (by simp [hplain])
      exact ⟨q, mem_set_of_ne hp hq hne _, hreq, hplain, hdue⟩
  constructor
  · have haccepted : dum'.accepted = dum.accepted := by rw [hdum]
    have hgiven : dum'.givenBack = ⟨.user n, (dum.req (.user n)).length,
        (dum.req (.user n)).length, 0⟩ :: dum.givenBack := by rw [hdum]
    simp only [Spoiled, hawait, haccepted, hgiven, List.mem_cons, exists_eq_or_imp]
    have hzero : ¬ ∃ m, ReqRef.user n = .user m ∧ (0 : ℤ) = -einprogress := by
      rintro ⟨m, -, hstatus⟩
      exact absurd hstatus (by decide)
    rw [or_iff_right hzero]
  · rw [hdum] at hawait ⊢
    refine ⟨h.reaches, ?_, ?_, ?_, ?_, h.payload, ?_⟩
    · intro q hq
      rcases List.mem_or_eq_of_mem_set hq with hq | rfl
      · exact h.finish q hq
      · exact h.finish p hmem
    · intro q hq hqfast hdue
      obtain ⟨m, hm, hqnone⟩ := h.fast q (due_of_set hq hdue) hqfast hdue
      exact ⟨m, hm, fun hm' => hqnone ((hawait m).mp hm')⟩
    · simpa using h.fifo
    · intro m hm
      have hmn : m ≠ n := by
        rintro rfl
        exact hnone ((hawait m).mp hm)
      simpa [Function.update_of_ne, hmn] using h.awaiting m ((hawait m).mp hm)
    · exact List.forall_mem_cons.mpr ⟨fun _ _ => Or.inl ⟨rfl, rfl⟩, h.given⟩

/-- The giveback of a request of the plain path, or of `fifo_req`, keeps the transfer. -/
theorem plainGiveback_inTransfer {i : ℕ} {epAddr : UInt8} {dum : UoeUdc}
    (h : InTransfer i epAddr dum) {k : ℕ} {p : Pending} (hp : dum.pending[k]? = some p)
    (hnot : p.given = false) (hplain : p.fast = false) :
    let dum' := giveback { dum with pending := dum.pending.set k { p with given := true } } p
    (Spoiled i dum' ↔ Spoiled i dum) ∧ InTransfer i epAddr dum' := by
  intro dum'
  have hmem := List.mem_of_getElem? hp
  have hdum : dum' = { dum with
      pending := dum.pending.set k { p with given := true }
      givenBack := ⟨p.req, (dum.req p.req).length, (dum.req p.req).actual, (dum.req p.req).status⟩ ::
        dum.givenBack } := by
    simp [dum', giveback, hplain]
  -- A request that was awaiting its giveback is given back in progress.
  have hstatus : ∀ n, p.req = .user n → Awaiting dum i n ∧ (dum.req p.req).status = -einprogress := by
    intro n hn
    have hawaiting : Awaiting dum i n := Or.inr ⟨p, hmem, hn, hplain, hnot⟩
    exact ⟨hawaiting, hn ▸ (h.awaiting n hawaiting).2⟩
  have hawait : ∀ m, Awaiting dum' i m → Awaiting dum i m := by
    intro m
    rw [hdum]
    refine Or.imp id ?_
    rintro ⟨q, hq, hreq, hqplain, hdue⟩
    exact ⟨q, due_of_set hq hdue, hreq, hqplain, hdue⟩
  have hkept : ∀ m, Awaiting dum i m → Awaiting dum' i m ∨ p.req = .user m := by
    rw [hdum]
    rintro m (hqueue | ⟨q, hq, hreq, hqplain, hdue⟩)
    · exact Or.inl (Or.inl hqueue)
    · by_cases heq : q = p
      · exact Or.inr (heq ▸ hreq)
      · exact Or.inl (Or.inr ⟨q, mem_set_of_ne hp hq heq _, hreq, hqplain, hdue⟩)
  constructor
  · rw [Spoiled, Spoiled, hdum]
    rw [hdum] at hawait hkept
    constructor
    · rintro (ha | ⟨m, hm⟩ | ⟨g, hg, m, hreq, hback⟩)
      · exact Or.inl ha
      · exact Or.inr (Or.inl ⟨m, hawait m hm⟩)
      · rcases List.mem_cons.mp hg with rfl | hg
        · exact Or.inr (Or.inl ⟨m, (hstatus m hreq).1⟩)
        · exact Or.inr (Or.inr ⟨g, hg, m, hreq, hback⟩)
    · rintro (ha | ⟨m, hm⟩ | ⟨g, hg, m, hreq, hback⟩)
      · exact Or.inl ha
      · rcases hkept m hm with hm | hm
        · exact Or.inr (Or.inl ⟨m, hm⟩)
        · exact Or.inr (Or.inr ⟨_, List.mem_cons_self, m, hm, (hstatus m hm).2⟩)
      · exact Or.inr (Or.inr ⟨g, List.mem_cons_of_mem _ hg, m, hreq, hback⟩)
  · rw [hdum] at hawait ⊢
    refine ⟨h.reaches, ?_, ?_, h.fifo, fun m hm => h.awaiting m (hawait m hm), h.payload, ?_⟩
    · intro q hq
      rcases List.mem_or_eq_of_mem_set hq with hq | rfl
      · exact h.finish q hq
      · exact h.finish p hmem
    · intro q hq hqfast hdue
      obtain ⟨m, hm, hqnone⟩ := h.fast q (due_of_set hq hdue) hqfast hdue
      exact ⟨m, hm, fun hm' => hqnone (hawait m hm')⟩
    · exact List.forall_mem_cons.mpr ⟨fun m hm => Or.inr (hstatus m hm).2, h.given⟩

/-- A call that was given its request back ends without another effect on the endpoint. -/
theorem finished_inTransfer {i : ℕ} {epAddr : UInt8} {dum : UoeUdc} (h : InTransfer i epAddr dum)
    {k : ℕ} {p : Pending} (hp : dum.pending[k]? = some p) (hgiven : p.given = true) :
    let dum' := { dum with pending := dum.pending.eraseIdx k }
    (Spoiled i dum' ↔ Spoiled i dum) ∧ InTransfer i epAddr dum' := by
  intro dum'
  have hawait : ∀ m, Awaiting dum' i m ↔ Awaiting dum i m := by
    intro m
    refine or_congr Iff.rfl ⟨?_, ?_⟩
    · rintro ⟨q, hq, hrest⟩
      exact ⟨q, List.mem_of_mem_eraseIdx hq, hrest⟩
    · rintro ⟨q, hq, hreq, hplain, hdue⟩
      obtain ⟨j, hj⟩ := List.mem_iff_getElem?.mp hq
      have hjk : j ≠ k := by
        rintro rfl
        obtain rfl := Option.some.inj (hj.symm.trans hp)
        exact absurd hgiven (by simp [hdue])
      exact ⟨q, List.mem_eraseIdx_iff_getElem?.mpr ⟨j, hjk, hj⟩, hreq, hplain, hdue⟩
  constructor
  · simp only [Spoiled, hawait, dum']
  · refine ⟨h.reaches, ?_, ?_, h.fifo, fun m hm => h.awaiting m ((hawait m).mp hm), h.payload,
      h.given⟩
    · exact fun q hq => h.finish q (List.mem_of_mem_eraseIdx hq)
    · intro q hq hfast hdue
      obtain ⟨m, hm, hnone⟩ := h.fast q (List.mem_of_mem_eraseIdx hq) hfast hdue
      exact ⟨m, hm, fun hm' => hnone ((hawait m).mp hm')⟩

/-- `dummy_queue` refuses every other request and changes nothing. -/
theorem dummyQueue_refused {dum : UoeUdc} {i n : ℕ} (h : ¬ Accepts dum i n) :
    (dummyQueue dum i n).1 = dum := by
  unfold dummyQueue
  simp only
  split_ifs with hrefused hdesc hdriver hfast
  · rfl
  · rfl
  · simp only [not_or, Bool.not_eq_true, Bool.not_eq_false] at hrefused
    exact absurd ⟨hrefused.1, hrefused.2, hdesc, hdriver⟩ h
  · simp only [not_or, Bool.not_eq_true, Bool.not_eq_false] at hrefused
    exact absurd ⟨hrefused.1, hrefused.2, hdesc, hdriver⟩ h
  · rfl

/-- What `dummy_queue` does with a request it accepts, on either path. -/
theorem dummyQueue_accepts {dum dum' : UoeUdc} {i n : ℕ} (h : Accepts dum i n)
    (hdum : (dummyQueue dum i n).1 = dum') :
    dum'.accepted =
        (n, (List.range (dum.req (.user n)).length).map (dum.bytesAt (dum.req (.user n)).buf)) ::
          dum.accepted ∧
      dum'.givenBack = dum.givenBack ∧ dum'.sent = dum.sent ∧
      (∀ m, m ≠ n → dum'.req (.user m) = dum.req (.user m)) ∧
      if FastPath dum i n then
        dum'.ep = (dum.setQueue i ((dum.ep i).queue ++ [.fifo])).ep ∧
          dum'.pending = ⟨.user n, true, .finish, false⟩ :: dum.pending ∧
          (dum'.req .fifo).actual = 0
      else
        dum'.ep = (dum.setQueue i ((dum.ep i).queue ++ [.user n])).ep ∧
          dum'.pending = dum.pending ∧ dum'.req .fifo = dum.req .fifo ∧
          (dum'.req (.user n)).actual = 0 ∧ (dum'.req (.user n)).status = -einprogress := by
  obtain ⟨hlinked, hcomplete, hdesc, hdriver⟩ := h
  have hpass : ¬ (dum.linked (.user n) = true ∨ ¬ (dum.req (.user n)).complete = true) := by
    simp [hlinked, hcomplete]
  unfold dummyQueue at hdum
  simp only [if_neg hpass, if_neg hdesc, if_neg (not_not.mpr hdriver)] at hdum
  by_cases hfast : FastPath dum i n
  · rw [if_pos hfast] at hdum ⊢
    subst hdum
    refine ⟨rfl, rfl, rfl, fun m hm => ?_, rfl, rfl, ?_⟩
    · simp [UoeUdc.drop, UoeUdc.setQueue, UoeUdc.setEp, UoeUdc.setReq, Function.update_of_ne, hm]
    · simp [UoeUdc.drop, UoeUdc.setQueue, UoeUdc.setEp, UoeUdc.setReq]
  · rw [if_neg hfast] at hdum ⊢
    subst hdum
    refine ⟨rfl, rfl, rfl, fun m hm => ?_, rfl, rfl, rfl, ?_⟩
    · simp [UoeUdc.setQueue, UoeUdc.setEp, UoeUdc.setReq, Function.update_of_ne, hm]
    · simp [UoeUdc.setQueue, UoeUdc.setEp, UoeUdc.setReq]

/-- `dummy_queue` keeps the transfer, and spoils it when it accepts bytes or takes the plain path. -/
theorem dummyQueue_inTransfer {i : ℕ} {epAddr : UInt8} {dum : UoeUdc} (h : InTransfer i epAddr dum)
    (hi : i < dummyEndpoints) {n : ℕ}
    (hdue : ∀ p ∈ dum.pending, p.given = false → p.req ≠ .user n) :
    (Spoiled i (dummyQueue dum i n).1 ↔ Spoiled i dum ∨ ¬ QueuesNothing i dum (.queue n)) ∧
      InTransfer i epAddr (dummyQueue dum i n).1 := by
  by_cases haccepts : Accepts dum i n
  · generalize hdum : (dummyQueue dum i n).1 = dum'
    obtain ⟨haccepted, hgiven, hsent, hothers, hpath⟩ := dummyQueue_accepts haccepts hdum
    split_ifs at hpath with hfast
    · obtain ⟨hep, hpending, hfifo⟩ := hpath
      obtain ⟨hawait, hkept⟩ := fastQueue_inTransfer h (not_awaiting hi haccepts.1 hdue) hep
        hpending hfifo hothers hgiven hsent
      have hguard : QueuesNothing i dum (.queue n) ↔ (dum.req (.user n)).length = 0 :=
        ⟨fun hq => (hq haccepts).1, fun hzero _ => ⟨hzero, hfast.2.2.1, hfast.2.1⟩⟩
      refine ⟨?_, hkept⟩
      simp only [Spoiled, hawait, haccepted, hgiven, hguard, List.mem_cons, exists_eq_or_imp, ne_eq,
        List.map_eq_nil_iff, List.range_eq_nil]
      exact or_assoc.trans or_comm
    · obtain ⟨hep, hpending, hfifo, hstatus⟩ := hpath
      obtain ⟨hawait, hkept⟩ := plainQueue_inTransfer h hdue hep hpending hfifo hstatus hothers
        hgiven hsent
      have hguard : ¬ QueuesNothing i dum (.queue n) := by
        intro hq
        obtain ⟨hzero, hqueue, hunlinked⟩ := hq haccepts
        exact hfast ⟨h.reaches.1, hunlinked, hqueue, hzero ▸ Nat.zero_le fifoSize⟩
      exact ⟨iff_of_true (Or.inr (Or.inl ⟨n, hawait⟩)) (Or.inr hguard), hkept⟩
  · rw [dummyQueue_refused haccepts]
    have hguard : QueuesNothing i dum (.queue n) := fun hno => absurd hno haccepts
    exact ⟨(or_iff_left (not_not.mpr hguard)).symm, h⟩

/-- A step on the endpoint keeps the transfer, and spoils it exactly when it misses the guard. -/
theorem inMachine_step {i : ℕ} {epAddr : UInt8} {dum dum' : UoeUdc} {label : InStep}
    (h : InTransfer i epAddr dum) (hstep : (inMachine i epAddr).step dum label = some dum') :
    (Spoiled i dum' ↔ Spoiled i dum ∨ ¬ QueuesNothing i dum label) ∧ InTransfer i epAddr dum' := by
  have hfree : ∀ {d : UoeUdc} {l : InStep}, QueuesNothing i dum l →
      (Spoiled i d ↔ Spoiled i dum) → (Spoiled i d ↔ Spoiled i dum ∨ ¬ QueuesNothing i dum l) :=
    fun hguard hiff => hiff.trans (or_iff_left (not_not.mpr hguard)).symm
  cases label with
  | prepare n length complete bytes =>
    have hudc : udcMachine.step dum (.prepare n length complete bytes) = some dum' := hstep
    obtain ⟨-, rfl⟩ := udcMachine_step hudc
    exact ⟨hfree trivial Iff.rfl, prepare_inTransfer h n length complete bytes⟩
  | queue n =>
    simp only [inMachine, Option.ite_none_right_eq_some] at hstep
    obtain ⟨hdue, hudc⟩ := hstep
    obtain ⟨hi, rfl⟩ := udcMachine_step hudc
    exact dummyQueue_inTransfer h hi hdue
  | poll seq =>
    have hudc : udcMachine.step dum (.poll epAddr seq) = some dum' := hstep
    obtain rfl : dum' = uoeUdcPoll dum epAddr seq := udcMachine_step hudc
    obtain ⟨hspoiled, hkept⟩ := uoeUdcPoll_inTransfer h seq
    exact ⟨hfree trivial hspoiled, hkept⟩
  | giveback k =>
    have hudc : udcMachine.step dum (.giveback k) = some dum' := hstep
    obtain ⟨p, hp, hdue, rfl⟩ := udcMachine_step hudc
    by_cases hfast : p.fast = true
    · obtain ⟨hspoiled, hkept⟩ := fastGiveback_inTransfer h hp hdue hfast
      exact ⟨hfree trivial hspoiled, hkept⟩
    · obtain ⟨hspoiled, hkept⟩ := plainGiveback_inTransfer h hp hdue (by simpa using hfast)
      exact ⟨hfree trivial hspoiled, hkept⟩
  | resume k =>
    have hudc : udcMachine.step dum (.resume k) = some dum' := hstep
    obtain ⟨p, hp, hgiven, rfl⟩ := udcMachine_step hudc
    rw [h.finish p (List.mem_of_getElem? hp)]
    obtain ⟨hspoiled, hkept⟩ := finished_inTransfer h hp hgiven
    exact ⟨hfree trivial hspoiled, hkept⟩

/-- An endpoint on which nothing was queued starts an unspoiled transfer. -/
theorem EnabledIn.inTransfer {dum : UoeUdc} {i : ℕ} {epAddr : UInt8} (h : EnabledIn dum i epAddr) :
    InTransfer i epAddr dum ∧ ¬ Spoiled i dum := by
  have hnone : ∀ n, ¬ Awaiting dum i n := by
    simp [Awaiting, h.queue, h.pending]
  constructor
  · refine ⟨⟨?_, h.polled⟩, ?_, ?_, ?_, fun n hn => absurd hn (hnone n), ?_, ?_⟩
    · simpa [h.desc] using h.dirIn
    · simp [h.pending]
    · simp [h.pending]
    · simp [h.queue]
    · simp [h.sent]
    · simp [h.givenBack]
  · rintro (⟨a, ha, -⟩ | ⟨n, hn⟩ | ⟨g, hg, -⟩)
    · simp [h.accepted] at ha
    · exact hnone n hn
    · simp [h.givenBack] at hg

/-- IN data integrity: a transfer that ends drained is intact exactly when every request accepted in
its course was empty and found the endpoint and `fifo_req` unused. -/
theorem inTransfer_intact_iff {dum dum' : UoeUdc} {i : ℕ} {epAddr : UInt8} {labels : List InStep}
    (hstart : EnabledIn dum i epAddr) (h : (inMachine i epAddr).run dum labels = some dum')
    (hdrained : Drained dum' i) :
    Intact dum' ↔ (inMachine i epAddr).Guarded (QueuesNothing i) dum labels := by
  obtain ⟨hinv, hclean⟩ := hstart.inTransfer
  have hend : InTransfer i epAddr dum' :=
    (inMachine i epAddr).run_invariant (fun _ _ _ hs hstep => (inMachine_step hs hstep).2) hinv h
  have hspoiled := (inMachine i epAddr).run_spoiled_iff
    (fun _ _ _ hs hstep => (inMachine_step hs hstep).2)
    (fun _ _ _ hs hstep => (inMachine_step hs hstep).1) hinv h
  rw [hend.intact_iff hdrained, hspoiled, or_iff_right hclean, not_not]

/-- A controller with endpoint 1 enabled as the IN endpoint with address 0x81. -/
def enabledController : UoeUdc :=
  (dummyEnable (udcStart (fun _ => ⟨.user 0, 0, 0, 0, false⟩) fun _ _ => 0) 1 0x81).1

/-- Polls for address 0x81 reach endpoint 1. -/
theorem enabledController_enabledIn : EnabledIn enabledController 1 0x81 where
  index := by decide
  desc := rfl
  dirIn := by decide
  polled := by decide
  driver := rfl
  halted := rfl
  queue := rfl
  pending := rfl
  accepted := rfl
  givenBack := rfl
  sent := rfl

/-- An empty request on the fast path, then four bytes on the fast path and behind them four on the plain path, all
polled and given back. -/
theorem inTransfer_intact_iff_bothPaths :
    ∃ dum', (inMachine 1 0x81).run enabledController
        [.prepare 0 0 true (fun _ => 0), .queue 0, .giveback 0, .resume 0, .poll 1, .giveback 0, .resume 0,
          .prepare 0 4 true (fun j => UInt8.ofNat (j + 1)), .queue 0, .giveback 0, .resume 0,
          .prepare 1 4 true (fun j => UInt8.ofNat (j + 5)), .queue 1,
          .poll 2, .giveback 0, .resume 0, .poll 3, .giveback 0, .resume 0] = some dum' ∧
      (Intact dum' ↔ (inMachine 1 0x81).Guarded (QueuesNothing 1) enabledController
        [.prepare 0 0 true (fun _ => 0), .queue 0, .giveback 0, .resume 0, .poll 1, .giveback 0, .resume 0,
          .prepare 0 4 true (fun j => UInt8.ofNat (j + 1)), .queue 0, .giveback 0, .resume 0,
          .prepare 1 4 true (fun j => UInt8.ofNat (j + 5)), .queue 1,
          .poll 2, .giveback 0, .resume 0, .poll 3, .giveback 0, .resume 0]) :=
  ⟨_, rfl, inTransfer_intact_iff enabledController_enabledIn rfl ⟨rfl, by decide⟩⟩

/-- Two requests of four bytes, queued one after the other and polled: the first takes the fast path,
the second the plain path. The replies carry no data, and the second request is given back in
progress. -/
theorem inTransfer_data_lost :
    ∃ dum', (inMachine 1 0x81).run enabledController
        [.prepare 0 4 true (fun j => UInt8.ofNat (j + 1)), .queue 0, .giveback 0, .resume 0,
          .prepare 1 4 true (fun j => UInt8.ofNat (j + 5)), .queue 1,
          .poll 1, .giveback 0, .resume 0, .poll 2, .giveback 0, .resume 0] = some dum' ∧
      Drained dum' 1 ∧ dum'.dataAccepted = [1, 2, 3, 4, 5, 6, 7, 8] ∧ dum'.dataSent = [] ∧
      ⟨.user 1, 4, 0, -einprogress⟩ ∈ dum'.givenBack ∧ ¬ Intact dum' := by
  refine ⟨_, rfl, ⟨rfl, by decide⟩, by decide, by decide, by decide, ?_⟩
  rintro ⟨hdata, -⟩
  exact absurd hdata (by decide)

end LinuxFunctionTest.DummyUsb
