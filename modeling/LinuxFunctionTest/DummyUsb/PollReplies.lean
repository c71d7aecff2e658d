import LinuxFunctionTest.DummyUsb.PollLoop

/-!
# One reply for each poll

A poll is answered by the endpoint it addresses, with data, a stall or a NAK, and requests leave each
queue in the order in which `dummy_queue` accepted them. Both hold for every packet that
`uoe_recv_packet` returns. That function takes the data of a packet from the datagram behind it,
though, drops a packet whose length is too large, and faults at one length. The main result is that the
polls that leave the socket are answered one by one, and the loop goes on, exactly when no poll is dropped
or taken for data and there is no fault.
-/

namespace LinuxFunctionTest.DummyUsb

/-- The endpoint that a poll addresses: the first one enabled with that address, or endpoint 0 for
address 0 when there is none. -/
def Addressed (dum : UoeUdc) (epAddr : UInt8) (i : ℕ) : Prop :=
  (i < dummyEndpoints ∧ (dum.ep i).desc = some epAddr ∧ ∀ j < i, (dum.ep j).desc ≠ some epAddr) ∨
    (i = 0 ∧ epAddr = 0 ∧ ∀ j < dummyEndpoints, (dum.ep j).desc ≠ some epAddr)

/-- The replies that answer a poll: data if the addressed endpoint has a request, a stall if it has
none and is halted, and a NAK otherwise. -/
inductive Answers (dum : UoeUdc) (epAddr : UInt8) (seq : UInt16) : Reply → Prop
  | data {i : ℕ} (payload : List UInt8) (haddressed : Addressed dum epAddr i)
      (hqueue : (dum.ep i).queue ≠ []) : Answers dum epAddr seq (.data epAddr seq payload)
  | stall {i : ℕ} (haddressed : Addressed dum epAddr i) (hqueue : (dum.ep i).queue = [])
      (hhalted : (dum.ep i).halted = true) : Answers dum epAddr seq (.stall epAddr seq)
  | nak (hidle : ∀ i, Addressed dum epAddr i →
      (dum.ep i).queue = [] ∧ (dum.ep i).halted = false) : Answers dum epAddr seq (.nak epAddr seq)

/-- The loop is there to answer, the polls that left the socket are answered one by one and in order,
nothing else is sent, and on each endpoint the requests taken are in the order of acceptance, ahead of
those still queued. -/
structure PollsAnswered (s : PollLoop) : Prop where
  running : s.faulted = false
  answered : List.Forall₂ (fun (sent : Sent) (poll : Polled) =>
    Answers poll.dum poll.epAddr poll.seq sent.reply) s.outbox s.polls
  ordered : ∀ i, (((s.served i).taken ++ (s.served i).waiting).map Prod.fst).Pairwise (· < ·)
  queued : ∀ i, (s.served i).waiting.map (·.2.linked) = (s.gadget.udc.ep i).queue
  taken : ∀ i, (s.served i).taken.map (·.2.linked) =
    ((s.takes.filter (·.1 = i)).map Prod.snd).reverse

/-- A poll that is next in the socket has a length for which it is returned, no packet has the length
that faults, and a poll behind a packet with data does not follow it directly. -/
def PollKept (s : PollLoop) : PollLoopStep → Prop
  | .recv _ => ∀ d queue, s.inbox = d :: queue →
      (d.IsPoll → d.hdr.Returned) ∧ (d.Headed → ¬ d.hdr.Faults) ∧
        (d.Headed → 0 < d.hdr.dataLen → d.hdr.dataLen ≤ uoeMaxPayload →
          ∀ e ∈ queue.head?, ¬ e.IsPoll)
  | _ => True

/-- The search of the loop finds the addressed endpoint. -/
theorem polledEp_eq_some_iff (dum : UoeUdc) (epAddr : UInt8) (i : ℕ) :
    polledEp dum epAddr = some i ↔ Addressed dum epAddr i := by
  unfold polledEp Addressed
  cases hfind : (List.range dummyEndpoints).find? fun i => (dum.ep i).desc = some epAddr with
  | some k =>
    obtain ⟨hk, hrange, hfirst⟩ := List.find?_range_eq_some.mp hfind
    simp only [decide_eq_true_eq, Bool.not_eq_true', decide_eq_false_iff_not] at hk hfirst
    have hlt := List.mem_range.mp hrange
    constructor
    · intro h
      obtain rfl := Option.some.inj h
      exact .inl ⟨hlt, hk, hfirst⟩
    · rintro (⟨-, hi, hbefore⟩ | ⟨-, -, hnone⟩)
      · rcases Nat.lt_trichotomy k i with hki | rfl | hik
        · exact absurd hk (hbefore k hki)
        · rfl
        · exact absurd hi (hfirst i hik)
      · exact absurd hk (hnone k hlt)
  | none =>
    have hnone : ∀ j < dummyEndpoints, (dum.ep j).desc ≠ some epAddr := fun j hj => by
      simpa using List.find?_eq_none.mp hfind j (List.mem_range.mpr hj)
    simp only
    split_ifs with hzero
    · constructor
      · intro h
        obtain rfl := Option.some.inj h
        exact .inr ⟨rfl, hzero, hnone⟩
      · rintro (⟨hi, hdesc, -⟩ | ⟨rfl, -, -⟩)
        · exact absurd hdesc (hnone i hi)
        · rfl
    · simp only [hzero, false_and, and_false, or_false, false_iff, not_and]
      exact fun hi hdesc => absurd hdesc (hnone i hi)

/-- The loop sends exactly one reply to a poll, and it answers the poll. -/
theorem uoeUdcPoll_answers (dum : UoeUdc) (epAddr : UInt8) (seq : UInt16) :
    ∃ reply, (uoeUdcPoll dum epAddr seq).sent = reply :: dum.sent ∧
      Answers dum epAddr seq reply := by
  unfold uoeUdcPoll
  cases hep : polledEp dum epAddr with
  | none =>
    refine ⟨_, rfl, .nak fun i hi => ?_⟩
    rw [← polledEp_eq_some_iff, hep] at hi
    cases hi
  | some i =>
    have haddressed := (polledEp_eq_some_iff dum epAddr i).mp hep
    cases hqueue : (dum.ep i).queue with
    | cons r rest =>
      simp only [hqueue]
      exact ⟨_, rfl, .data _ haddressed (by simp [hqueue])⟩
    | nil =>
      simp only [hqueue]
      refine ⟨_, rfl, ?_⟩
      split_ifs with hhalted
      · exact .stall haddressed hqueue hhalted
      · refine .nak fun j hj => ?_
        rw [← polledEp_eq_some_iff, hep] at hj
        obtain rfl := Option.some.inj hj
        exact ⟨hqueue, by simpa using hhalted⟩

/-- A poll takes the first request of the addressed endpoint, if any, and touches no other queue. -/
theorem uoeUdcPoll_queue (dum : UoeUdc) (epAddr : UInt8) (seq : UInt16) :
    (takenBy dum epAddr = none ∧ ∀ j, ((uoeUdcPoll dum epAddr seq).ep j).queue = (dum.ep j).queue) ∨
    ∃ i r rest, takenBy dum epAddr = some (i, r) ∧ (dum.ep i).queue = r :: rest ∧
      (uoeUdcPoll dum epAddr seq).ep = (dum.setQueue i rest).ep := by
  unfold uoeUdcPoll takenBy
  cases hep : polledEp dum epAddr with
  | none => exact .inl ⟨rfl, fun _ => rfl⟩
  | some i =>
    cases hqueue : (dum.ep i).queue with
    | nil =>
      simp only [hqueue]
      exact .inl ⟨by simp [hqueue], fun _ => rfl⟩
    | cons r rest =>
      simp only [hqueue]
      exact .inr ⟨i, r, rest, by simp [hqueue], hqueue, rfl⟩

/-- The histories of the endpoints are those of their queues and of the requests taken. -/
structure QueuesFollowed (s : PollLoop) : Prop where
  queued : ∀ i, (s.served i).waiting.map (·.2.linked) = (s.gadget.udc.ep i).queue
  taken : ∀ i, (s.served i).taken.map (·.2.linked) =
    ((s.takes.filter (·.1 = i)).map Prod.snd).reverse

/-- Answered polls and followed histories are all there is to show: tickets are in order by
construction. -/
theorem QueuesFollowed.pollsAnswered {s : PollLoop} (h : QueuesFollowed s) (hrunning : s.faulted = false)
    (hanswered : List.Forall₂ (fun (sent : Sent) (poll : Polled) =>
      Answers poll.dum poll.epAddr poll.seq sent.reply) s.outbox s.polls) : PollsAnswered s :=
  ⟨hrunning, hanswered, fun i => (s.served i).ordered, h.queued, h.taken⟩

/-- A change that takes requests off the queues at most is followed. -/
theorem withdraw_followed {s : PollLoop} (h : QueuesFollowed s) {g : Gadget}
    (hunlinks : Unlinks s.gadget.udc g.udc) : QueuesFollowed (s.withdraw g) where
  queued := fun i => Served.keep_waiting (h.queued i ▸ hunlinks.queue i)
  taken := h.taken

/-- An accepted request is followed. -/
theorem accept_followed {s : PollLoop} (h : QueuesFollowed s) {g : Gadget} {i n : ℕ}
    (hep : g.udc.ep = (s.gadget.udc.setQueue i
      ((s.gadget.udc.ep i).queue ++ [linkedAs s.gadget.udc i n])).ep) :
    QueuesFollowed (s.accept g i n) := by
  constructor
  · intro j
    simp only [PollLoop.accept, hep, UoeUdc.setQueue, UoeUdc.setEp]
    by_cases hj : j = i
    · subst hj
      simp [h.queued]
    · simp [Function.update_of_ne hj, h.queued]
  · intro j
    simp only [PollLoop.accept]
    by_cases hj : j = i
    · subst hj
      simp [h.taken]
    · simp [Function.update_of_ne hj, h.taken]

/-- A request that a poll takes is followed. -/
theorem poll_followed {s : PollLoop} (h : QueuesFollowed s) (epAddr : UInt8) (seq : UInt16)
    (src : SockAddr) : QueuesFollowed (s.poll epAddr seq src) := by
  obtain ⟨htaken, hqueue⟩ | ⟨i, r, rest, htaken, hqueue, hep⟩ :=
    uoeUdcPoll_queue s.gadget.udc epAddr seq
  · constructor
    · intro j
      simp only [PollLoop.poll, htaken, hqueue]
      exact h.queued j
    · intro j
      simp only [PollLoop.poll, htaken, Option.toList_none, List.nil_append]
      exact h.taken j
  · have hwaiting := h.queued i
    rw [hqueue] at hwaiting
    obtain ⟨e, waiting, he, rfl, hrest⟩ := List.map_eq_cons_iff.mp hwaiting
    obtain ⟨hserved, hleft⟩ := Served.serve_of_cons he
    constructor
    · intro j
      simp only [PollLoop.poll, htaken, hep, UoeUdc.setQueue, UoeUdc.setEp]
      by_cases hj : j = i
      · subst hj
        simp [hleft, hrest]
      · simp [Function.update_of_ne hj, h.queued]
    · intro j
      simp only [PollLoop.poll, htaken, Option.toList_some, List.singleton_append]
      by_cases hj : j = i
      · subst hj
        simp [hserved, h.taken]
      · have hij : i ≠ j := fun heq => hj heq.symm
        simp [Function.update_of_ne hj, h.taken, hij]

/-- The loop follows what a packet does to the queues. -/
theorem handle_followed {s : PollLoop} (h : QueuesFollowed s) (pkt : UoePacket) (src : SockAddr)
    (beyond : List UInt8) : QueuesFollowed (s.handle pkt src beyond) := by
  unfold PollLoop.handle
  split_ifs
  · exact poll_followed h _ _ src
  · exact withdraw_followed h (handleControlRequest_sameQueues _ _).unlinks
  · exact h

/-- The loop replies to a poll, once and with its answer, and to no other packet. -/
theorem handle_answered (s : PollLoop) (pkt : UoePacket) (src : SockAddr) (beyond : List UInt8) :
    (s.handle pkt src beyond).polls = s.polls ∧
      if pkt.hdr.IsPoll then
        ∃ reply, (s.handle pkt src beyond).outbox = ⟨s.conn.remoteData, reply, src⟩ :: s.outbox ∧
          Answers s.gadget.udc pkt.hdr.epAddr (Bytes.swap16 pkt.hdr.seq) reply
      else (s.handle pkt src beyond).outbox = s.outbox := by
  unfold PollLoop.handle
  split_ifs with hpoll hsetup
  · obtain ⟨reply, hsent, hanswers⟩ :=
      uoeUdcPoll_answers s.gadget.udc pkt.hdr.epAddr (Bytes.swap16 pkt.hdr.seq)
    exact ⟨rfl, reply, by simp [PollLoop.poll, hsent], hanswers⟩
  · exact ⟨rfl, rfl⟩
  · exact ⟨rfl, rfl⟩

/-- A packet does not end the loop. -/
theorem handle_faulted (s : PollLoop) (pkt : UoePacket) (src : SockAddr) (beyond : List UInt8) :
    (s.handle pkt src beyond).faulted = s.faulted := by
  unfold PollLoop.handle
  split_ifs <;> rfl

/-- The poll that one datagram adds when it leaves the socket. -/
theorem consume_one {s : PollLoop} {d : Datagram} {queue : List Datagram}
    (h : s.inbox = d :: queue) :
    (s.consume queue).polls = (if d.IsPoll then [s.polled d] else []) ++ s.polls := by
  simp only [PollLoop.consume, h, List.length_cons, Nat.add_sub_cancel_left]
  split_ifs with hd <;> simp [hd]

/-- The polls that two datagrams add when they leave the socket. -/
theorem consume_two {s : PollLoop} {d e : Datagram} {queue : List Datagram}
    (h : s.inbox = d :: e :: queue) :
    (s.consume queue).polls = (if e.IsPoll then [s.polled e] else []) ++
      (if d.IsPoll then [s.polled d] else []) ++ s.polls := by
  have hlength : (d :: e :: queue).length - queue.length = 2 := by
    simp only [List.length_cons]
    omega
  simp only [PollLoop.consume, h, hlength]
  split_ifs with he hd hd <;> simp [he, hd]

/-- What anything but the loop does to the queues is followed, and it sends nothing. -/
theorem other_followed {s t : PollLoop} (h : QueuesFollowed s) {step : GadgetStep}
    (ht : s.other step = some t) :
    QueuesFollowed t ∧ t.faulted = s.faulted ∧ t.outbox = s.outbox ∧ t.polls = s.polls := by
  unfold PollLoop.other at ht
  split at ht
  · cases ht
  · next i n =>
    obtain ⟨g, hg, rfl⟩ := Option.map_eq_some_iff.mp ht
    obtain ⟨dum, hdum, rfl⟩ := Option.map_eq_some_iff.mp hg
    obtain ⟨-, rfl⟩ := udcMachine_step hdum
    obtain ⟨hrefused, hsame⟩ | ⟨haccepted, hep, -⟩ := dummyQueue_cases s.gadget.udc i n
    · rw [if_neg hrefused]
      refine ⟨withdraw_followed h ?_, rfl, rfl, rfl⟩
      simp only [Gadget.afterUdc, hsame]
      exact (SameQueues.refl _).unlinks
    · rw [if_pos haccepted]
      exact ⟨accept_followed h hep, rfl, rfl, rfl⟩
  · next hpoll hqueue =>
    obtain ⟨g, hg, rfl⟩ := Option.map_eq_some_iff.mp ht
    exact ⟨withdraw_followed h (gadgetStep_unlinks hg hqueue hpoll), rfl, rfl, rfl⟩

/-- One pass of the loop: the packets it drops, those whose data it takes from the next datagram,
those without data, and those that fault. -/
theorem uoeUdcPollLoop_cases {s t : PollLoop} {beyond : List UInt8}
    (ht : uoeUdcPollLoop s beyond = some t) :
    (∃ d queue, s.inbox = d :: queue ∧ t = s.consume queue ∧
      (d.Headed → ¬ d.hdr.Returned ∧ ¬ d.hdr.Faults)) ∨
    (∃ d e rest p, s.inbox = d :: e :: rest ∧ p.hdr = d.hdr ∧ d.Headed ∧ 0 < d.hdr.dataLen ∧
      d.hdr.dataLen ≤ uoeMaxPayload ∧ t = (s.consume rest).handle p d.src beyond) ∨
    (∃ d queue p, s.inbox = d :: queue ∧ p.hdr = d.hdr ∧ d.Headed ∧ d.hdr.dataLen ≤ 0 ∧
      d.hdr.Returned ∧ t = (s.consume queue).handle p d.src beyond) ∨
    (∃ d queue, s.inbox = d :: queue ∧ d.Headed ∧ d.hdr.Faults ∧
      t = { s.consume queue with faulted := true }) := by
  unfold uoeUdcPollLoop at ht
  split at ht
  · cases ht
  cases hinbox : s.inbox with
  | nil => simp [hinbox] at ht
  | cons d queue =>
    simp only [hinbox] at ht
    split at ht
    case isTrue hfault =>
      obtain rfl := Option.some.inj ht
      exact .inr (.inr (.inr ⟨d, queue, rfl, hfault.1, hfault.2, rfl⟩))
    case isFalse hnot =>
      obtain ⟨⟨⟨ret, pkt⟩, rest⟩, hrecv, rfl⟩ := Option.map_eq_some_iff.mp ht
      obtain ⟨rfl, rfl, hdropped⟩ | ⟨p, e, rfl, hhdr, rfl, hheaded, hdata, hmax, rfl⟩ |
        ⟨p, rfl, hhdr, rfl, hheaded, hdata, hreturned, rfl⟩ := uoeRecvPacket_cases hrecv
      · exact .inl ⟨d, rest, rfl, ite_self _, fun hd => ⟨hdropped hd, fun hfaults => hnot ⟨hd, hfaults⟩⟩⟩
      · dsimp only
        rw [if_neg (by omega)]
        exact .inr (.inl ⟨d, e, rest, p, rfl, hhdr, hheaded, hdata, hmax, rfl⟩)
      · have hlow := hreturned.1
        dsimp only
        rw [if_neg (by omega)]
        exact .inr (.inr (.inl ⟨d, rest, p, rfl, hhdr, hheaded, hdata, hreturned, rfl⟩))

/-- A packet that leaves the socket alone is answered like its datagram. -/
theorem handle_pollsAnswered {s : PollLoop} (h : PollsAnswered s) {u : PollLoop} {d : Datagram}
    (hu : QueuesFollowed u) (hgadget : u.gadget = s.gadget) (hfaulted : u.faulted = s.faulted)
    (hconn : u.outbox = s.outbox)
    (hpolls : u.polls = (if d.IsPoll then [s.polled d] else []) ++ s.polls) {p : UoePacket}
    (hhdr : p.hdr = d.hdr) (hheaded : d.Headed) (beyond : List UInt8) :
    PollsAnswered (u.handle p d.src beyond) := by
  refine (handle_followed hu p d.src beyond).pollsAnswered ?_ ?_
  · rw [handle_faulted, hfaulted, h.running]
  obtain ⟨hsame, houtbox⟩ := handle_answered u p d.src beyond
  have hpoll : p.hdr.IsPoll ↔ d.IsPoll := by simp [Datagram.IsPoll, hheaded, hhdr]
  rw [hsame, hpolls]
  split_ifs at houtbox with hp
  · obtain ⟨reply, houtbox, hanswers⟩ := houtbox
    rw [houtbox, hconn, if_pos (hpoll.mp hp)]
    rw [hgadget, hhdr] at hanswers
    exact .cons hanswers h.answered
  · rw [houtbox, hconn, if_neg (hpoll.not.mp hp)]
    exact h.answered

/-- Every step that keeps the polls in the socket keeps the property. -/
theorem pollLoop_step_answered (s : PollLoop) (label : PollLoopStep) (t : PollLoop)
    (h : PollsAnswered s) (ht : pollLoopMachine.step s label = some t) (hguard : PollKept s label) :
    PollsAnswered t := by
  have hfollowed : QueuesFollowed s := ⟨h.queued, h.taken⟩
  cases label with
  | arrive d =>
    obtain rfl := Option.some.inj ht
    exact ⟨h.running, h.answered, h.ordered, h.queued, h.taken⟩
  | other step =>
    obtain ⟨hfollowed', hfaulted, houtbox, hpolls⟩ := other_followed hfollowed ht
    exact hfollowed'.pollsAnswered (hfaulted.trans h.running) (houtbox ▸ hpolls ▸ h.answered)
  | recv beyond =>
    obtain ⟨d, queue, hinbox, rfl, hdropped⟩ | ⟨d, e, rest, p, hinbox, hhdr, hheaded, hdata, hmax, rfl⟩ |
      ⟨d, queue, p, hinbox, hhdr, hheaded, hdata, hreturned, rfl⟩ | ⟨d, queue, hinbox, hheaded, hfaults, rfl⟩ :=
        uoeUdcPollLoop_cases ht
    · -- What is dropped is no poll.
      have hpoll : ¬ d.IsPoll := fun hpoll =>
        (hdropped hpoll.1).1 ((hguard d queue hinbox).1 hpoll)
      have hpolls := consume_one hinbox
      rw [if_neg hpoll, List.nil_append] at hpolls
      exact QueuesFollowed.pollsAnswered (s := s.consume queue) ⟨h.queued, h.taken⟩ h.running
        (hpolls ▸ h.answered)
    · -- What is taken for data is no poll.
      have hpoll : ¬ e.IsPoll := (hguard d (e :: rest) hinbox).2.2 hheaded hdata hmax e rfl
      have hpolls := consume_two hinbox
      rw [if_neg hpoll, List.nil_append] at hpolls
      exact handle_pollsAnswered (u := s.consume rest) h ⟨h.queued, h.taken⟩ rfl rfl rfl hpolls hhdr
        hheaded beyond
    · exact handle_pollsAnswered (u := s.consume queue) h ⟨h.queued, h.taken⟩ rfl rfl rfl
        (consume_one hinbox) hhdr hheaded beyond
    · exact absurd hfaults ((hguard d queue hinbox).2.1 hheaded)

/-- The replies a packet adds. -/
theorem handle_outbox_length (s : PollLoop) (p : UoePacket) (src : SockAddr) (beyond : List UInt8) :
    (s.handle p src beyond).outbox.length = s.outbox.length + if p.hdr.IsPoll then 1 else 0 := by
  have houtbox := (handle_answered s p src beyond).2
  split_ifs at houtbox ⊢ with hp
  · obtain ⟨reply, houtbox, -⟩ := houtbox
    simp [houtbox]
  · simp [houtbox]

/-- A poll that is dropped or taken for data leaves one reply missing, and a fault ends the loop. -/
theorem pollLoop_step_lost (s : PollLoop) (label : PollLoopStep) (t : PollLoop)
    (h : PollsAnswered s) (ht : pollLoopMachine.step s label = some t)
    (hguard : ¬ PollKept s label) : ¬ PollsAnswered t := by
  intro hanswered
  have hbefore := h.answered.length_eq
  have hafter := hanswered.answered.length_eq
  cases label with
  | arrive | other => exact hguard trivial
  | recv beyond =>
    obtain ⟨d, queue, hinbox, rfl, hdropped⟩ | ⟨d, e, rest, p, hinbox, hhdr, hheaded, hdata, hmax, rfl⟩ |
      ⟨d, queue, p, hinbox, hhdr, hheaded, hdata, hreturned, rfl⟩ | ⟨d, queue, hinbox, hheaded, hfaults, rfl⟩ :=
        uoeUdcPollLoop_cases ht
    · have hpoll : d.IsPoll := by
        by_contra hpoll
        refine hguard fun d' queue' hinbox' => ?_
        obtain ⟨rfl, rfl⟩ := List.cons.inj (hinbox.symm.trans hinbox')
        refine ⟨fun hd => absurd hd hpoll, fun hd => (hdropped hd).2, fun hd hpos hle => ?_⟩
        refine absurd ⟨?_, hle⟩ (hdropped hd).1
        omega
      rw [consume_one hinbox, if_pos hpoll] at hafter
      have hsame : (s.consume queue).outbox = s.outbox := rfl
      rw [hsame, List.length_append, List.length_singleton] at hafter
      omega
    · have hpoll : e.IsPoll := by
        by_contra hpoll
        refine hguard fun d' queue' hinbox' => ?_
        obtain ⟨rfl, rfl⟩ := List.cons.inj (hinbox.symm.trans hinbox')
        refine ⟨fun _ => ⟨by omega, hmax⟩, fun _ hfaults => ?_, fun _ _ _ e' he' => ?_⟩
        · unfold UoeHeader.Faults at hfaults
          omega
        obtain rfl := Option.some.inj he'
        exact hpoll
      have hsame : (s.consume rest).outbox = s.outbox := rfl
      have hiff : p.hdr.IsPoll ↔ d.IsPoll := by simp [Datagram.IsPoll, hheaded, hhdr]
      rw [handle_outbox_length, (handle_answered _ _ _ _).1, hsame, consume_two hinbox, if_pos hpoll]
        at hafter
      by_cases hd : d.IsPoll
      · simp only [hiff, hd, if_true, List.length_append, List.length_singleton] at hafter
        omega
      · simp only [hiff, hd, if_false, List.length_append, List.length_singleton,
          List.length_nil] at hafter
        omega
    · refine hguard fun d' queue' hinbox' => ?_
      obtain ⟨rfl, rfl⟩ := List.cons.inj (hinbox.symm.trans hinbox')
      refine ⟨fun _ => hreturned, fun _ hfaults => hreturned.1.ne' hfaults, fun _ hpos _ => ?_⟩
      omega
    · exact absurd hanswered.running (by simp)

end LinuxFunctionTest.DummyUsb
