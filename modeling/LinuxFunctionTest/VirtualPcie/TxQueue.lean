import LinuxFunctionTest.VirtualPcie.Packet
import LinuxFunctionTest.Library.Machine
import Mathlib.Data.List.Nodup
import Mathlib.Data.List.Perm.Basic

/-!
# The transmit queue under interleaving

`vpci_packet_send` and `vpci_tx_thread`, cut where another thread can come between: a sender reads
`connected` and then appends under the lock; the thread takes a packet under the lock, reads
`connected`, reads `sock`, sends, counts and frees. Any number of senders run at once, and `connected`
and `sock` change at any time. The thread loads `dev->sock` once more for `kernel_sendmsg`, which faults
on a null socket; then the packet in the hands of the thread is lost. This is the only way to lose one.

Packets are numbered objects. Besides the queue the system keeps its history: the packets accepted,
refused and taken, what became of each, and the releases.
-/

namespace LinuxFunctionTest.VirtualPcie

open Errno

/-- A packet structure: its number, its contents, and whether it is a local variable of the keepalive
timer. Such a packet has no data buffer. -/
structure TxPkt where
  id : ℕ
  pkt : VpciPacket
  onStack : Bool
  deriving DecidableEq

/-- Where a call of `vpci_packet_send` stands: before it reads `connected`, before it appends, or, in
the keepalive timer, back in the caller. -/
inductive SendPc where
  | check
  | append
  | returned
  deriving DecidableEq

/-- A call in progress. -/
structure SendCall where
  obj : TxPkt
  pc : SendPc
  deriving DecidableEq

/-- Where the transmit thread stands: waiting, with a packet before it reads `connected`, before it
reads `sock`, before it sends, and before it frees, or ended by a fault with its packet. -/
inductive TxThread where
  | waiting
  | taken (p : TxPkt)
  | linked (p : TxPkt)
  | sending (p : TxPkt)
  | counted (p : TxPkt)
  | faulted (p : TxPkt)
  deriving DecidableEq

/-- What the thread counts a packet as. -/
inductive TxOutcome where
  | sent
  | failed
  | dropped
  deriving DecidableEq

/-- Who releases a packet. -/
inductive TxParty where
  | sender
  | txThread
  deriving DecidableEq

/-- The memory that is released: the data buffer, or the structure itself, freed or out of scope. -/
inductive TxRelease where
  | data (id : ℕ) (party : TxParty)
  | packet (id : ℕ) (party : TxParty)
  deriving DecidableEq

/-- The packet a release is about. -/
def TxRelease.id : TxRelease → ℕ
  | .data id _ => id
  | .packet id _ => id

/-- The device, its queue with the numbers of the packets, the calls and the thread; then the
history. The list in `dev` is not used. -/
structure TxSystem where
  dev : VpciDevice
  txList : List TxPkt
  calls : List SendCall
  thread : TxThread
  fresh : ℕ
  accepted : List TxPkt
  refused : List TxPkt
  taken : List TxPkt
  outcomes : List (TxPkt × TxOutcome)
  otherErrors : ℕ
  releases : List TxRelease

namespace TxSystem

/-- The device as its functions see it. -/
def device (s : TxSystem) : VpciDevice := { s.dev with txList := s.txList.map TxPkt.pkt }

/-- `atomic64_inc(&dev->stats.dropped)`. -/
def countDropped (s : TxSystem) : TxSystem :=
  { s with dev := { s.dev with stats := { s.dev.stats with dropped := s.dev.stats.dropped + 1 } } }

/-- A call of `vpci_packet_send` with a new packet. -/
def call (s : TxSystem) (pkt : VpciPacket) (onStack : Bool) : TxSystem :=
  { s with calls := s.calls ++ [⟨⟨s.fresh, pkt, onStack⟩, .check⟩], fresh := s.fresh + 1 }

/-- Put call `i` elsewhere. -/
def setPc (s : TxSystem) (i : ℕ) (obj : TxPkt) (pc : SendPc) : TxSystem :=
  { s with calls := s.calls.set i ⟨obj, pc⟩ }

/-- Call `i` returns to its caller. The handlers ignore the result and return in turn; the timer still
has its packet on the stack. -/
def leave (s : TxSystem) (i : ℕ) (obj : TxPkt) : TxSystem :=
  { s with calls := if obj.onStack then s.calls.set i ⟨obj, .returned⟩ else s.calls.eraseIdx i }

/-- The packet of call `i` is refused. -/
def refuse (s : TxSystem) (i : ℕ) (obj : TxPkt) : TxSystem :=
  { s.countDropped with refused := s.refused ++ [obj] }.leave i obj

/-- The packet of call `i` is linked. -/
def accept (s : TxSystem) (i : ℕ) (obj : TxPkt) : TxSystem :=
  { s with txList := s.txList ++ [obj], accepted := s.accepted ++ [obj] }.leave i obj

/-- `vpci_packet_send` reads `connected`. -/
def sendCheck (s : TxSystem) (i : ℕ) : Option TxSystem :=
  match s.calls[i]? with
  | some ⟨obj, .check⟩ =>
    if s.dev.connected then some (s.setPc i obj .append)
    else some (s.refuse i obj)
  | _ => none

/-- `vpci_packet_send` appends under the lock, wakes the thread and returns 0. -/
def sendAppend (s : TxSystem) (i : ℕ) : Option TxSystem :=
  match s.calls[i]? with
  | some ⟨obj, .append⟩ => some (s.accept i obj)
  | _ => none

/-- The thread takes the first packet under the lock. On an empty list it waits again. -/
def txTake (s : TxSystem) : Option TxSystem :=
  match s.thread, s.txList with
  | .waiting, [] => some s
  | .waiting, p :: rest =>
    some { s with txList := rest, thread := .taken p, taken := s.taken ++ [p] }
  | _, _ => none

/-- The thread counts its packet as dropped. -/
def txDrop (s : TxSystem) (p : TxPkt) : TxSystem :=
  { s.countDropped with thread := .counted p, outcomes := s.outcomes ++ [(p, .dropped)] }

/-- The thread reads `connected`. -/
def txReadConnected (s : TxSystem) : Option TxSystem :=
  match s.thread with
  | .taken p => some (if s.dev.connected then { s with thread := .linked p } else s.txDrop p)
  | _ => none

/-- The thread reads `sock`. -/
def txReadSock (s : TxSystem) : Option TxSystem :=
  match s.thread with
  | .linked p => some (if s.dev.sock then { s with thread := .sending p } else s.txDrop p)
  | _ => none

/-- The thread counts its packet as a send error. -/
def txFail (s : TxSystem) (p : TxPkt) : TxSystem :=
  { s with dev := s.dev.countError, thread := .counted p, outcomes := s.outcomes ++ [(p, .failed)] }

/-- The thread counts its packet as sent, with the bytes that `kernel_sendmsg` reports. -/
def txSent (s : TxSystem) (p : TxPkt) (ret : ℤ) : TxSystem :=
  { s with
    dev := { s.dev with stats := { s.dev.stats with
      txPackets := s.dev.stats.txPackets + 1
      txBytes := s.dev.stats.txBytes + UInt64.ofNat ret.toNat } }
    thread := .counted p
    outcomes := s.outcomes ++ [(p, .sent)] }

/-- `kernel_sendmsg` returns `ret`, and the thread counts the packet. From a null socket it does not
return. -/
def txSendmsg (s : TxSystem) (ret : ℤ) : Option TxSystem :=
  match s.thread with
  | .sending p =>
    some (if s.dev.sock then if ret < 0 then s.txFail p else s.txSent p ret
      else { s with thread := .faulted p })
  | _ => none

/-- `kfree(pkt->data)` and `kfree(pkt)`; the first does nothing for a packet without data. -/
def kfreePkt (s : TxSystem) (p : TxPkt) : TxSystem :=
  { s with
    thread := .waiting
    releases := s.releases ++ (if p.onStack then [] else [.data p.id .txThread]) ++
      [.packet p.id .txThread] }

/-- The thread frees its packet and waits for the next one. -/
def txFree (s : TxSystem) : Option TxSystem :=
  match s.thread with
  | .counted p => some (s.kfreePkt p)
  | _ => none

end TxSystem

/-- A step of a sender, of the thread, or of the rest of the driver: `connected` and `sock` change,
and errors that are no send errors are counted. -/
inductive QueueStep where
  | send (pkt : VpciPacket)
  | check (i : ℕ)
  | append (i : ℕ)
  | take
  | readConnected
  | readSock
  | sendmsg (ret : ℤ)
  | free
  | setConnected (connected : Bool)
  | setSock (sock : Bool)
  | countError

/-- The senders of allocated packets and the thread in any order. -/
def queueMachine : Machine TxSystem QueueStep where
  step s step := match step with
    | .send pkt => some (s.call pkt false)
    | .check i => s.sendCheck i
    | .append i => s.sendAppend i
    | .take => s.txTake
    | .readConnected => s.txReadConnected
    | .readSock => s.txReadSock
    | .sendmsg ret => s.txSendmsg ret
    | .free => s.txFree
    | .setConnected connected => some { s with dev := { s.dev with connected := connected } }
    | .setSock sock => some { s with dev := { s.dev with sock := sock } }
    | .countError => some { s with dev := s.dev.countError, otherErrors := s.otherErrors + 1 }

/-- The device with an empty queue and nobody at work. -/
def txSystemStart (dev : VpciDevice) : TxSystem where
  dev := { dev with txList := [] }
  txList := []
  calls := []
  thread := .waiting
  fresh := 0
  accepted := []
  refused := []
  taken := []
  outcomes := []
  otherErrors := 0
  releases := []

/-- The packet the thread has taken and not counted yet. -/
def TxThread.uncounted : TxThread → List TxPkt
  | .waiting | .counted _ => []
  | .taken p | .linked p | .sending p | .faulted p => [p]

/-- The steps that the thread has to go until its packet is counted. -/
def TxThread.stepsLeft : TxThread → ℕ
  | .taken _ => 3
  | .linked _ => 2
  | .sending _ => 1
  | .waiting | .counted _ | .faulted _ => 0

/-- The steps of the thread. -/
def QueueStep.ofThread : QueueStep → Bool
  | .take | .readConnected | .readSock | .sendmsg _ | .free => true
  | .send _ | .check _ | .append _ | .setConnected _ | .setSock _ | .countError => false

/-- The socket is there whenever the thread reads it for `kernel_sendmsg`. -/
def SocketThere (s : TxSystem) : QueueStep → Prop
  | .sendmsg _ => s.dev.sock = true
  | _ => True

instance (s : TxSystem) (step : QueueStep) : Decidable (SocketThere s step) := by
  unfold SocketThere
  split <;> infer_instance

namespace TxSystem

/-- How many packets were counted as `outcome`. -/
def countOf (s : TxSystem) (outcome : TxOutcome) : ℕ := (s.outcomes.map Prod.snd).count outcome

/-- The packet of a call that has not been answered. -/
def unanswered (c : SendCall) : Option ℕ :=
  match c.pc with
  | .check | .append => some c.obj.id
  | .returned => none

/-- The packets on their way into the queue. -/
def pending (s : TxSystem) : List ℕ := s.calls.filterMap unanswered

/-- Every packet that was passed to `vpci_packet_send`: under way, accepted or refused. -/
def passed (s : TxSystem) : List ℕ :=
  s.pending ++ (s.accepted.map TxPkt.id ++ s.refused.map TxPkt.id)

end TxSystem

/-- The thread can go on with the packet `p` in its hands, and any three steps of it, whatever comes in
between, get the packet counted unless they fault. -/
structure GetsCounted (s : TxSystem) (p : TxPkt) : Prop where
  goesOn : ∃ step t, step.ofThread = true ∧ queueMachine.step s step = some t
  threeSteps : ∀ steps t, queueMachine.run s steps = some t → 3 ≤ steps.countP QueueStep.ofThread →
    (∀ q, t.thread ≠ .faulted q) → ∃ outcome, s.outcomes ++ [(p, outcome)] <+: t.outcomes

/-- The queue keeps order and loses nothing, and every counter is accounted for. The counters started
at `start`. -/
structure QueueFaithful (start : VpciStats) (s : TxSystem) : Prop where
  fifo : s.taken ++ s.txList = s.accepted
  once : (s.accepted.map TxPkt.id).Nodup
  counted : s.taken = s.outcomes.map Prod.fst ++ s.thread.uncounted
  running : ∀ p, s.thread ≠ .faulted p
  settled : ∀ p ∈ s.thread.uncounted, GetsCounted s p
  txPackets : s.dev.stats.txPackets = start.txPackets + UInt64.ofNat (s.countOf .sent)
  errors : s.dev.stats.errors = start.errors + UInt64.ofNat (s.countOf .failed + s.otherErrors)
  dropped : s.dev.stats.dropped =
    start.dropped + UInt64.ofNat (s.countOf .dropped + s.refused.length)
  refused : ∀ p ∈ s.refused, p.id ∉ s.accepted.map TxPkt.id

/-- The counters of the history. -/
structure QueueCounted (start : VpciStats) (s : TxSystem) : Prop where
  fifo : s.taken ++ s.txList = s.accepted
  counted : s.taken = s.outcomes.map Prod.fst ++ s.thread.uncounted
  txPackets : s.dev.stats.txPackets = start.txPackets + UInt64.ofNat (s.countOf .sent)
  errors : s.dev.stats.errors = start.errors + UInt64.ofNat (s.countOf .failed + s.otherErrors)
  dropped : s.dev.stats.dropped =
    start.dropped + UInt64.ofNat (s.countOf .dropped + s.refused.length)

/-- Every packet was passed once, under a number that was new. -/
structure QueueNumbered (s : TxSystem) : Prop where
  distinct : s.passed.Nodup
  lt : ∀ id ∈ s.passed, id < s.fresh

/-- A counter that goes up with its history. -/
theorem counter_succ (x : UInt64) (n : ℕ) : x + UInt64.ofNat n + 1 = x + UInt64.ofNat (n + 1) := by
  rw [UInt64.ofNat_add, UInt64.add_assoc]
  rfl

/-- A counter that goes up or stays with its history. -/
theorem counter_if (x : UInt64) (n : ℕ) (c : Prop) [Decidable c] :
    (x + UInt64.ofNat n + if c then 1 else 0) = x + UInt64.ofNat (n + if c then 1 else 0) := by
  by_cases hc : c
  · rw [if_pos hc, if_pos hc, counter_succ]
  · rw [if_neg hc, if_neg hc, UInt64.add_zero, Nat.add_zero]

section Inversion

variable {s t : TxSystem}

/-- What reading `connected` does to a call. -/
theorem sendCheck_cases {i : ℕ} (h : s.sendCheck i = some t) :
    ∃ obj, s.calls[i]? = some ⟨obj, .check⟩ ∧
      (s.dev.connected = true ∧ t = s.setPc i obj .append ∨
        s.dev.connected = false ∧ t = s.refuse i obj) := by
  unfold TxSystem.sendCheck at h
  split at h
  · next obj hcall =>
    refine ⟨obj, hcall, ?_⟩
    split at h
    · next hconn => exact Or.inl ⟨hconn, (Option.some.inj h).symm⟩
    · next hconn => exact Or.inr ⟨by simpa using hconn, (Option.some.inj h).symm⟩
  · exact absurd h (by simp)

/-- What appending does. -/
theorem sendAppend_cases {i : ℕ} (h : s.sendAppend i = some t) :
    ∃ obj, s.calls[i]? = some ⟨obj, .append⟩ ∧ t = s.accept i obj := by
  unfold TxSystem.sendAppend at h
  split at h
  · next obj hcall => exact ⟨obj, hcall, (Option.some.inj h).symm⟩
  · exact absurd h (by simp)

/-- What the thread does to the list. -/
theorem txTake_cases (h : s.txTake = some t) :
    s.thread = .waiting ∧ (t = s ∨ ∃ p rest, s.txList = p :: rest ∧
      t = { s with txList := rest, thread := .taken p, taken := s.taken ++ [p] }) := by
  unfold TxSystem.txTake at h
  split at h
  · next hthread _ => exact ⟨hthread, Or.inl (Option.some.inj h).symm⟩
  · next p rest hthread hlist =>
    exact ⟨hthread, Or.inr ⟨p, rest, hlist, (Option.some.inj h).symm⟩⟩
  · exact absurd h (by simp)

/-- What reading `connected` does to the thread. -/
theorem txReadConnected_cases (h : s.txReadConnected = some t) :
    ∃ p, s.thread = .taken p ∧ (t = { s with thread := .linked p } ∨ t = s.txDrop p) := by
  unfold TxSystem.txReadConnected at h
  split at h
  · next p hthread =>
    refine ⟨p, hthread, ?_⟩
    split at h
    · exact Or.inl (Option.some.inj h).symm
    · exact Or.inr (Option.some.inj h).symm
  · exact absurd h (by simp)

/-- What reading `sock` does to the thread. -/
theorem txReadSock_cases (h : s.txReadSock = some t) :
    ∃ p, s.thread = .linked p ∧ (t = { s with thread := .sending p } ∨ t = s.txDrop p) := by
  unfold TxSystem.txReadSock at h
  split at h
  · next p hthread =>
    refine ⟨p, hthread, ?_⟩
    split at h
    · exact Or.inl (Option.some.inj h).symm
    · exact Or.inr (Option.some.inj h).symm
  · exact absurd h (by simp)

/-- What the result of `kernel_sendmsg` is counted as, and what becomes of the thread without a
socket. -/
theorem txSendmsg_cases {ret : ℤ} (h : s.txSendmsg ret = some t) :
    ∃ p, s.thread = .sending p ∧
      (s.dev.sock = true ∧ (t = s.txFail p ∨ t = s.txSent p ret) ∨
        s.dev.sock = false ∧ t = { s with thread := .faulted p }) := by
  unfold TxSystem.txSendmsg at h
  split at h
  · next p hthread =>
    refine ⟨p, hthread, ?_⟩
    split_ifs at h with hsock hret
    · exact Or.inl ⟨hsock, Or.inl (Option.some.inj h).symm⟩
    · exact Or.inl ⟨hsock, Or.inr (Option.some.inj h).symm⟩
    · exact Or.inr ⟨by simpa using hsock, (Option.some.inj h).symm⟩
  · exact absurd h (by simp)

/-- What the thread frees. -/
theorem txFree_cases (h : s.txFree = some t) :
    ∃ p, s.thread = .counted p ∧ t = s.kfreePkt p := by
  unfold TxSystem.txFree at h
  split at h
  · next p hthread => exact ⟨p, hthread, (Option.some.inj h).symm⟩
  · exact absurd h (by simp)

end Inversion

section Counting

variable {start : VpciStats} {s t : TxSystem}

/-- A step of a sender's call alone touches no counter. -/
theorem QueueCounted.of_same (h : QueueCounted start s) (hdev : t.dev.stats = s.dev.stats)
    (htaken : t.taken = s.taken) (hlist : t.txList = s.txList) (haccepted : t.accepted = s.accepted)
    (hrefused : t.refused = s.refused) (houtcomes : t.outcomes = s.outcomes)
    (hother : t.otherErrors = s.otherErrors) (hthread : t.thread.uncounted = s.thread.uncounted) :
    QueueCounted start t := by
  obtain ⟨hfifo, hcounted, htx, herr, hdrop⟩ := h
  refine ⟨?_, ?_, ?_, ?_, ?_⟩
  · rw [htaken, hlist, haccepted, hfifo]
  · rw [htaken, houtcomes, hthread, hcounted]
  · rw [hdev, TxSystem.countOf, houtcomes, htx, TxSystem.countOf]
  · rw [hdev, TxSystem.countOf, houtcomes, hother, herr, TxSystem.countOf]
  · rw [hdev, TxSystem.countOf, houtcomes, hrefused, hdrop, TxSystem.countOf]

/-- The thread counts its packet once: `outcome` tells which of the three counters goes up. -/
theorem QueueCounted.count (h : QueueCounted start s) {p : TxPkt} (outcome : TxOutcome)
    (hp : s.thread.uncounted = [p]) (htaken : t.taken = s.taken) (hlist : t.txList = s.txList)
    (haccepted : t.accepted = s.accepted) (hrefused : t.refused = s.refused)
    (houtcomes : t.outcomes = s.outcomes ++ [(p, outcome)])
    (hother : t.otherErrors = s.otherErrors) (hthread : t.thread.uncounted = [])
    (htx : t.dev.stats.txPackets = s.dev.stats.txPackets + if outcome = .sent then 1 else 0)
    (herr : t.dev.stats.errors = s.dev.stats.errors + if outcome = .failed then 1 else 0)
    (hdrop : t.dev.stats.dropped = s.dev.stats.dropped + if outcome = .dropped then 1 else 0) :
    QueueCounted start t := by
  have hcount : ∀ other, t.countOf other = s.countOf other + if outcome = other then 1 else 0 := by
    intro other
    rw [TxSystem.countOf, houtcomes, List.map_append, List.count_append, TxSystem.countOf]
    simp [List.count_singleton]
  refine ⟨?_, ?_, ?_, ?_, ?_⟩
  · rw [htaken, hlist, haccepted, h.fifo]
  · rw [htaken, houtcomes, hthread, h.counted, hp]
    simp
  · rw [htx, h.txPackets, counter_if, hcount]
  · rw [herr, h.errors, counter_if, hcount, hother, Nat.add_right_comm]
  · rw [hdrop, h.dropped, counter_if, hcount, hrefused, Nat.add_right_comm]

/-- A packet that the thread drops is counted as dropped. -/
theorem QueueCounted.drop (h : QueueCounted start s) {p : TxPkt}
    (hp : s.thread.uncounted = [p]) : QueueCounted start (s.txDrop p) :=
  h.count .dropped hp rfl rfl rfl rfl rfl rfl rfl (UInt64.add_zero _).symm (UInt64.add_zero _).symm
    rfl

/-- Every step keeps the counters accounted for. -/
theorem queueMachine_step_counted (h : QueueCounted start s) (step : QueueStep)
    (ht : queueMachine.step s step = some t) : QueueCounted start t := by
  cases step with
  | send pkt =>
    obtain rfl := Option.some.inj ht
    exact h.of_same rfl rfl rfl rfl rfl rfl rfl rfl
  | check i =>
    obtain ⟨obj, _, ⟨_, rfl⟩ | ⟨_, rfl⟩⟩ := sendCheck_cases ht
    · exact h.of_same rfl rfl rfl rfl rfl rfl rfl rfl
    · refine ⟨h.fifo, h.counted, h.txPackets, h.errors, ?_⟩
      change s.dev.stats.dropped + 1 =
        _ + UInt64.ofNat (s.countOf .dropped + (s.refused ++ [obj]).length)
      rw [h.dropped, counter_succ, List.length_append, List.length_singleton, Nat.add_assoc]
  | append i =>
    obtain ⟨obj, _, rfl⟩ := sendAppend_cases ht
    refine ⟨?_, h.counted, h.txPackets, h.errors, h.dropped⟩
    change s.taken ++ (s.txList ++ [obj]) = s.accepted ++ [obj]
    rw [← List.append_assoc, h.fifo]
  | take =>
    obtain ⟨hthread, rfl | ⟨p, rest, hlist, rfl⟩⟩ := txTake_cases ht
    · exact h
    · refine ⟨?_, ?_, h.txPackets, h.errors, h.dropped⟩
      · change s.taken ++ [p] ++ rest = s.accepted
        rw [List.append_assoc, List.singleton_append, ← hlist, h.fifo]
      · change s.taken ++ [p] = s.outcomes.map Prod.fst ++ [p]
        have hcounted := h.counted
        rw [hthread] at hcounted
        rw [hcounted]
        simp [TxThread.uncounted]
  | readConnected =>
    obtain ⟨p, hthread, rfl | rfl⟩ := txReadConnected_cases ht
    · exact h.of_same rfl rfl rfl rfl rfl rfl rfl (by rw [hthread]; rfl)
    · exact h.drop (by rw [hthread]; rfl)
  | readSock =>
    obtain ⟨p, hthread, rfl | rfl⟩ := txReadSock_cases ht
    · exact h.of_same rfl rfl rfl rfl rfl rfl rfl (by rw [hthread]; rfl)
    · exact h.drop (by rw [hthread]; rfl)
  | sendmsg ret =>
    obtain ⟨p, hthread, ⟨_, rfl | rfl⟩ | ⟨_, rfl⟩⟩ := txSendmsg_cases ht
    · exact h.count .failed (by rw [hthread]; rfl) rfl rfl rfl rfl rfl rfl rfl
        (UInt64.add_zero _).symm rfl (UInt64.add_zero _).symm
    · exact h.count .sent (by rw [hthread]; rfl) rfl rfl rfl rfl rfl rfl rfl
        rfl (UInt64.add_zero _).symm (UInt64.add_zero _).symm
    · exact h.of_same rfl rfl rfl rfl rfl rfl rfl (by rw [hthread]; rfl)
  | free =>
    obtain ⟨p, hthread, rfl⟩ := txFree_cases ht
    exact h.of_same rfl rfl rfl rfl rfl rfl rfl (by rw [hthread]; rfl)
  | setConnected connected =>
    obtain rfl := Option.some.inj ht
    exact h.of_same rfl rfl rfl rfl rfl rfl rfl rfl
  | setSock sock =>
    obtain rfl := Option.some.inj ht
    exact h.of_same rfl rfl rfl rfl rfl rfl rfl rfl
  | countError =>
    obtain rfl := Option.some.inj ht
    refine ⟨h.fifo, h.counted, h.txPackets, ?_, h.dropped⟩
    change s.dev.stats.errors + 1 = _ + UInt64.ofNat (s.countOf .failed + (s.otherErrors + 1))
    rw [h.errors, counter_succ, Nat.add_assoc]

end Counting

section Numbering

variable {s t : TxSystem} {i : ℕ} {obj : TxPkt}

/-- A call in progress among the others. -/
theorem calls_perm {c : SendCall} (h : s.calls[i]? = some c) :
    s.calls.Perm (c :: s.calls.eraseIdx i) := by
  obtain ⟨hlt, hget⟩ := List.getElem?_eq_some_iff.mp h
  exact hget ▸ (List.getElem_cons_eraseIdx_perm hlt).symm

/-- The calls after one of them has moved on. -/
theorem calls_set_perm {c : SendCall} (h : s.calls[i]? = some c) (c' : SendCall) :
    (s.calls.set i c').Perm (c' :: s.calls.eraseIdx i) :=
  List.set_perm_cons_eraseIdx (List.getElem?_eq_some_iff.mp h).1 c'

/-- The packets under way, with that of one call in front. -/
theorem pending_perm {c : SendCall} (h : s.calls[i]? = some c) :
    s.pending.Perm
      ((TxSystem.unanswered c).toList ++ (s.calls.eraseIdx i).filterMap TxSystem.unanswered) := by
  have hmap := (calls_perm h).filterMap TxSystem.unanswered
  cases hc : TxSystem.unanswered c <;> simpa [TxSystem.pending, hc] using hmap

/-- The packets under way after one call has moved on. -/
theorem setPc_pending_perm {c : SendCall} (h : s.calls[i]? = some c) (pc : SendPc) :
    (s.setPc i obj pc).pending.Perm
      ((TxSystem.unanswered ⟨obj, pc⟩).toList ++
        (s.calls.eraseIdx i).filterMap TxSystem.unanswered) := by
  have hmap := (calls_set_perm h ⟨obj, pc⟩).filterMap TxSystem.unanswered
  cases hc : TxSystem.unanswered ⟨obj, pc⟩ <;> simpa [TxSystem.pending, TxSystem.setPc, hc] using hmap

/-- A call that has its answer is not under way any more. -/
theorem leave_pending_perm (obj : TxPkt) {c : SendCall} (h : s.calls[i]? = some c) :
    (s.leave i obj).pending.Perm ((s.calls.eraseIdx i).filterMap TxSystem.unanswered) := by
  unfold TxSystem.leave
  by_cases hstack : obj.onStack
  · rw [if_pos hstack]
    exact setPc_pending_perm h .returned
  · rw [if_neg hstack]
    exact List.Perm.refl _

/-- A step that passes no packet only moves packets on. -/
theorem QueueNumbered.of_perm (h : QueueNumbered s) (hperm : t.passed.Perm s.passed)
    (hfresh : t.fresh = s.fresh) : QueueNumbered t where
  distinct := hperm.nodup_iff.mpr h.distinct
  lt id hid := hfresh ▸ h.lt id (hperm.mem_iff.mp hid)

/-- A new packet gets a new number. -/
theorem QueueNumbered.call (h : QueueNumbered s) (pkt : VpciPacket) (onStack : Bool) :
    QueueNumbered (s.call pkt onStack) := by
  have hperm : (s.call pkt onStack).passed.Perm (s.fresh :: s.passed) := by
    simp only [TxSystem.passed, TxSystem.pending, TxSystem.call, List.filterMap_append]
    exact List.Perm.append_right _ (List.perm_append_singleton _ _)
  constructor
  · rw [hperm.nodup_iff, List.nodup_cons]
    exact ⟨fun hmem => Nat.lt_irrefl _ (h.lt _ hmem), h.distinct⟩
  · intro id hid
    rcases List.mem_cons.mp (hperm.mem_iff.mp hid) with rfl | hid
    · exact Nat.lt_succ_self _
    · exact Nat.lt_succ_of_lt (h.lt id hid)

/-- The packets that were passed, with one of them under way in front. -/
theorem passed_perm {c : SendCall} (h : s.calls[i]? = some c) :
    s.passed.Perm ((TxSystem.unanswered c).toList ++
      ((s.calls.eraseIdx i).filterMap TxSystem.unanswered ++
        (s.accepted.map TxPkt.id ++ s.refused.map TxPkt.id))) :=
  ((pending_perm h).append_right _).trans (List.Perm.of_eq (List.append_assoc _ _ _))

/-- Reading `connected` moves the packet on, or refuses it. -/
theorem QueueNumbered.check (h : QueueNumbered s) (ht : s.sendCheck i = some t) :
    QueueNumbered t := by
  obtain ⟨obj, hcall, ⟨_, rfl⟩ | ⟨_, rfl⟩⟩ := sendCheck_cases ht
  · refine h.of_perm (t := s.setPc i obj .append) ?_ rfl
    exact ((setPc_pending_perm hcall .append).trans (pending_perm hcall).symm).append_right _
  · refine h.of_perm (t := s.refuse i obj) (List.Perm.trans ?_ (passed_perm hcall).symm) rfl
    refine ((leave_pending_perm obj hcall).append_right _).trans ?_
    rw [List.perm_iff_count]
    intro id
    simp only [TxSystem.refuse, TxSystem.leave, TxSystem.countDropped, TxSystem.unanswered,
      Option.toList_some, List.map_append, List.map_cons, List.map_nil, List.count_append]
    omega

/-- Appending accepts the packet. -/
theorem QueueNumbered.append (h : QueueNumbered s) (ht : s.sendAppend i = some t) :
    QueueNumbered t := by
  obtain ⟨obj, hcall, rfl⟩ := sendAppend_cases ht
  refine h.of_perm (t := s.accept i obj) (List.Perm.trans ?_ (passed_perm hcall).symm) rfl
  refine ((leave_pending_perm obj hcall).append_right _).trans ?_
  rw [List.perm_iff_count]
  intro id
  simp only [TxSystem.accept, TxSystem.leave, TxSystem.unanswered,
    Option.toList_some, List.map_append, List.map_cons, List.map_nil, List.count_append]
  omega

/-- Every step keeps the numbering. -/
theorem queueMachine_step_numbered (h : QueueNumbered s) (step : QueueStep)
    (ht : queueMachine.step s step = some t) : QueueNumbered t := by
  have hsame : t.passed = s.passed → t.fresh = s.fresh → QueueNumbered t :=
    fun hpassed hfresh => h.of_perm (List.Perm.of_eq hpassed) hfresh
  cases step with
  | send pkt => exact Option.some.inj ht ▸ h.call pkt false
  | check i => exact h.check ht
  | append i => exact h.append ht
  | take =>
    obtain ⟨_, rfl | ⟨p, rest, _, rfl⟩⟩ := txTake_cases ht
    · exact h
    · exact hsame rfl rfl
  | readConnected =>
    obtain ⟨p, _, rfl | rfl⟩ := txReadConnected_cases ht
    · exact hsame rfl rfl
    · exact hsame rfl rfl
  | readSock =>
    obtain ⟨p, _, rfl | rfl⟩ := txReadSock_cases ht
    · exact hsame rfl rfl
    · exact hsame rfl rfl
  | sendmsg ret =>
    obtain ⟨p, _, ⟨_, rfl | rfl⟩ | ⟨_, rfl⟩⟩ := txSendmsg_cases ht
    · exact hsame rfl rfl
    · exact hsame rfl rfl
    · exact hsame rfl rfl
  | free =>
    obtain ⟨p, _, rfl⟩ := txFree_cases ht
    exact hsame rfl rfl
  | setConnected connected =>
    obtain rfl := Option.some.inj ht
    exact hsame rfl rfl
  | setSock sock =>
    obtain rfl := Option.some.inj ht
    exact hsame rfl rfl
  | countError =>
    obtain rfl := Option.some.inj ht
    exact hsame rfl rfl

/-- The three ways of a packet exclude each other, and no packet goes one of them twice. -/
theorem QueueNumbered.apart (h : QueueNumbered s) :
    (s.accepted.map TxPkt.id).Nodup ∧ (s.refused.map TxPkt.id).Nodup ∧
      (∀ id ∈ s.pending, id ∉ s.accepted.map TxPkt.id ∧ id ∉ s.refused.map TxPkt.id) ∧
      ∀ id ∈ s.refused.map TxPkt.id, id ∉ s.accepted.map TxPkt.id := by
  obtain ⟨_, hanswered, hpending⟩ := List.nodup_append.mp h.distinct
  obtain ⟨haccepted, hrefused, hapart⟩ := List.nodup_append.mp hanswered
  refine ⟨haccepted, hrefused, fun id hid => ⟨fun hmem => ?_, fun hmem => ?_⟩, ?_⟩
  · exact hpending id hid id (List.mem_append_left _ hmem) rfl
  · exact hpending id hid id (List.mem_append_right _ hmem) rfl
  · exact fun id hid hmem => hapart id hmem id hid rfl

end Numbering

section Settling

variable {s t : TxSystem} {p : TxPkt}

/-- What is counted stays counted. -/
theorem queueMachine_step_outcomes (step : QueueStep) (ht : queueMachine.step s step = some t) :
    s.outcomes <+: t.outcomes := by
  cases step with
  | check i =>
    obtain ⟨obj, _, ⟨_, rfl⟩ | ⟨_, rfl⟩⟩ := sendCheck_cases ht
    · exact List.prefix_refl _
    · exact List.prefix_refl _
  | append i =>
    obtain ⟨obj, _, rfl⟩ := sendAppend_cases ht
    exact List.prefix_refl _
  | take =>
    obtain ⟨_, rfl | ⟨p, rest, _, rfl⟩⟩ := txTake_cases ht
    · exact List.prefix_refl _
    · exact List.prefix_refl _
  | readConnected =>
    obtain ⟨p, _, rfl | rfl⟩ := txReadConnected_cases ht
    · exact List.prefix_refl _
    · exact List.prefix_append _ _
  | readSock =>
    obtain ⟨p, _, rfl | rfl⟩ := txReadSock_cases ht
    · exact List.prefix_refl _
    · exact List.prefix_append _ _
  | sendmsg ret =>
    obtain ⟨p, _, ⟨_, rfl | rfl⟩ | ⟨_, rfl⟩⟩ := txSendmsg_cases ht
    · exact List.prefix_append _ _
    · exact List.prefix_append _ _
    · exact List.prefix_refl _
  | free =>
    obtain ⟨p, _, rfl⟩ := txFree_cases ht
    exact List.prefix_refl _
  | send _ | setConnected _ | setSock _ | countError =>
    obtain rfl := Option.some.inj ht
    exact List.prefix_refl _

/-- What is counted stays counted to the end of a run. -/
theorem queueMachine_run_outcomes {steps : List QueueStep}
    (ht : queueMachine.run s steps = some t) : s.outcomes <+: t.outcomes := by
  have hstep : ∀ u step v, s.outcomes <+: u.outcomes → queueMachine.step u step = some v →
      s.outcomes <+: v.outcomes :=
    fun u step v hu hv => hu.trans (queueMachine_step_outcomes step hv)
  exact queueMachine.run_invariant hstep (List.prefix_refl _) ht

/-- A step of anybody else leaves the thread where it is. -/
theorem queueMachine_step_others (step : QueueStep) (hother : step.ofThread = false)
    (ht : queueMachine.step s step = some t) : t.thread = s.thread ∧ t.outcomes = s.outcomes := by
  cases step with
  | check i =>
    obtain ⟨obj, _, ⟨_, rfl⟩ | ⟨_, rfl⟩⟩ := sendCheck_cases ht
    · exact ⟨rfl, rfl⟩
    · exact ⟨rfl, rfl⟩
  | append i =>
    obtain ⟨obj, _, rfl⟩ := sendAppend_cases ht
    exact ⟨rfl, rfl⟩
  | send _ | setConnected _ | setSock _ | countError =>
    obtain rfl := Option.some.inj ht
    exact ⟨rfl, rfl⟩
  | take | readConnected | readSock | sendmsg _ | free => cases hother

/-- A step of the thread with an uncounted packet counts it, faults, or comes one step closer. -/
theorem queueMachine_step_closer (hp : p ∈ s.thread.uncounted) (step : QueueStep)
    (hthread : step.ofThread = true) (ht : queueMachine.step s step = some t) :
    (∃ outcome, t.outcomes = s.outcomes ++ [(p, outcome)]) ∨ t.thread = .faulted p ∨
      t.outcomes = s.outcomes ∧ p ∈ t.thread.uncounted ∧
        t.thread.stepsLeft + 1 = s.thread.stepsLeft := by
  cases step with
  | take =>
    obtain ⟨hwaiting, _⟩ := txTake_cases ht
    rw [hwaiting] at hp
    cases hp
  | readConnected =>
    obtain ⟨q, htaken, rfl | rfl⟩ := txReadConnected_cases ht
    · rw [htaken] at hp ⊢
      exact .inr (.inr ⟨rfl, hp, rfl⟩)
    · rw [htaken] at hp
      exact .inl ⟨.dropped, by rw [List.mem_singleton.mp hp]; rfl⟩
  | readSock =>
    obtain ⟨q, hlinked, rfl | rfl⟩ := txReadSock_cases ht
    · rw [hlinked] at hp ⊢
      exact .inr (.inr ⟨rfl, hp, rfl⟩)
    · rw [hlinked] at hp
      exact .inl ⟨.dropped, by rw [List.mem_singleton.mp hp]; rfl⟩
  | sendmsg ret =>
    obtain ⟨q, hsending, hcases⟩ := txSendmsg_cases ht
    rw [hsending] at hp
    obtain rfl := List.mem_singleton.mp hp
    obtain ⟨_, rfl | rfl⟩ | ⟨_, rfl⟩ := hcases
    · exact .inl ⟨.failed, rfl⟩
    · exact .inl ⟨.sent, rfl⟩
    · exact .inr (.inl rfl)
  | free =>
    obtain ⟨q, hcounted, _⟩ := txFree_cases ht
    rw [hcounted] at hp
    cases hp
  | send _ | check _ | append _ | setConnected _ | setSock _ | countError => cases hthread

/-- A thread that faulted takes no step any more. -/
theorem queueMachine_step_faulted (hfaulted : s.thread = .faulted p) (step : QueueStep)
    (ht : queueMachine.step s step = some t) :
    t.thread = .faulted p ∧ t.outcomes = s.outcomes := by
  cases hother : step.ofThread with
  | false =>
    obtain ⟨hsame, houtcomes⟩ := queueMachine_step_others step hother ht
    exact ⟨hsame.trans hfaulted, houtcomes⟩
  | true =>
    cases step with
    | take => cases hfaulted.symm.trans (txTake_cases ht).1
    | readConnected =>
      obtain ⟨q, htaken, _⟩ := txReadConnected_cases ht
      cases hfaulted.symm.trans htaken
    | readSock =>
      obtain ⟨q, hlinked, _⟩ := txReadSock_cases ht
      cases hfaulted.symm.trans hlinked
    | sendmsg ret =>
      obtain ⟨q, hsending, _⟩ := txSendmsg_cases ht
      cases hfaulted.symm.trans hsending
    | free =>
      obtain ⟨q, hcounted, _⟩ := txFree_cases ht
      cases hfaulted.symm.trans hcounted
    | send _ | check _ | append _ | setConnected _ | setSock _ | countError => cases hother

/-- After a fault nothing is counted any more. -/
theorem queueMachine_run_faulted {steps : List QueueStep} (hfaulted : s.thread = .faulted p)
    (ht : queueMachine.run s steps = some t) :
    t.thread = .faulted p ∧ t.outcomes = s.outcomes := by
  have hstep : ∀ u step v, u.thread = .faulted p ∧ u.outcomes = s.outcomes →
      queueMachine.step u step = some v → v.thread = .faulted p ∧ v.outcomes = s.outcomes := by
    rintro u step v ⟨hfaulted, houtcomes⟩ hv
    obtain ⟨hstays, hsame⟩ := queueMachine_step_faulted hfaulted step hv
    exact ⟨hstays, hsame.trans houtcomes⟩
  exact queueMachine.run_invariant hstep ⟨hfaulted, rfl⟩ ht

/-- Enough steps of the thread count its packet, if it does not fault. -/
theorem run_counts (hp : p ∈ s.thread.uncounted) {steps : List QueueStep}
    (ht : queueMachine.run s steps = some t) (hrunning : ∀ q, t.thread ≠ .faulted q)
    (henough : s.thread.stepsLeft ≤ steps.countP QueueStep.ofThread) :
    ∃ outcome, s.outcomes ++ [(p, outcome)] <+: t.outcomes := by
  induction steps generalizing s with
  | nil =>
    obtain rfl := Option.some.inj ht
    cases hthread : s.thread with
    | faulted q => exact absurd hthread (hrunning q)
    | waiting | counted q =>
      rw [hthread] at hp
      cases hp
    | taken q | linked q | sending q =>
      rw [hthread] at henough
      cases henough
  | cons step rest ih =>
    obtain ⟨u, hu, ht⟩ := Option.bind_eq_some_iff.mp ht
    cases hother : step.ofThread with
    | false =>
      obtain ⟨hsame, houtcomes⟩ := queueMachine_step_others step hother hu
      rw [List.countP_cons_of_neg (by rw [hother]; exact Bool.false_ne_true)] at henough
      rw [← houtcomes]
      exact ih (hsame ▸ hp) ht (hsame ▸ henough)
    | true =>
      rw [List.countP_cons_of_pos hother] at henough
      obtain ⟨outcome, hcounted⟩ | hfaulted | ⟨houtcomes, hp, hleft⟩ :=
        queueMachine_step_closer hp step hother hu
      · exact ⟨outcome, hcounted ▸ queueMachine_run_outcomes ht⟩
      · exact absurd (queueMachine_run_faulted hfaulted ht).1 (hrunning p)
      · rw [← houtcomes]
        exact ih hp ht (by omega)

/-- A thread that did not fault gets its packet counted. -/
theorem getsCounted (hrunning : ∀ q, s.thread ≠ .faulted q) (hp : p ∈ s.thread.uncounted) :
    GetsCounted s p where
  goesOn := by
    cases hthread : s.thread with
    | taken q =>
      refine ⟨.readConnected, if s.dev.connected then { s with thread := .linked q } else s.txDrop q,
        rfl, ?_⟩
      change s.txReadConnected = _
      rw [TxSystem.txReadConnected, hthread]
    | linked q =>
      refine ⟨.readSock, if s.dev.sock then { s with thread := .sending q } else s.txDrop q, rfl, ?_⟩
      change s.txReadSock = _
      rw [TxSystem.txReadSock, hthread]
    | sending q =>
      refine ⟨.sendmsg 0, if s.dev.sock then s.txSent q 0 else { s with thread := .faulted q }, rfl, ?_⟩
      change s.txSendmsg 0 = _
      rw [TxSystem.txSendmsg, hthread]
      exact congrArg some (if_congr Iff.rfl (if_neg (Int.lt_irrefl 0)) rfl)
    | faulted q => exact absurd hthread (hrunning q)
    | waiting | counted q =>
      rw [hthread] at hp
      cases hp
  threeSteps steps t ht hthree hrunning := by
    have hleft : s.thread.stepsLeft ≤ 3 := by
      cases s.thread <;> simp [TxThread.stepsLeft]
    exact run_counts hp ht hrunning (Nat.le_trans hleft hthree)

/-- With the socket there the thread does not fault. -/
theorem queueMachine_step_running (hrunning : ∀ q, s.thread ≠ .faulted q) (step : QueueStep)
    (ht : queueMachine.step s step = some t) (hsocket : SocketThere s step) (p : TxPkt) :
    t.thread ≠ .faulted p := by
  cases hother : step.ofThread with
  | false => exact (queueMachine_step_others step hother ht).1 ▸ hrunning p
  | true =>
    cases step with
    | take =>
      obtain ⟨_, rfl | ⟨p, rest, _, rfl⟩⟩ := txTake_cases ht
      · exact hrunning p
      · exact TxThread.noConfusion
    | readConnected =>
      obtain ⟨q, _, rfl | rfl⟩ := txReadConnected_cases ht
      · exact TxThread.noConfusion
      · exact TxThread.noConfusion
    | readSock =>
      obtain ⟨q, _, rfl | rfl⟩ := txReadSock_cases ht
      · exact TxThread.noConfusion
      · exact TxThread.noConfusion
    | sendmsg ret =>
      obtain ⟨q, _, ⟨_, rfl | rfl⟩ | ⟨hsock, _⟩⟩ := txSendmsg_cases ht
      · exact TxThread.noConfusion
      · exact TxThread.noConfusion
      · exact absurd hsocket (by rw [SocketThere, hsock]; exact Bool.false_ne_true)
    | free =>
      obtain ⟨q, _, rfl⟩ := txFree_cases ht
      exact TxThread.noConfusion
    | send _ | check _ | append _ | setConnected _ | setSock _ | countError => cases hother

/-- Without it the send ends the thread. -/
theorem queueMachine_step_faults (step : QueueStep) (ht : queueMachine.step s step = some t)
    (hsocket : ¬ SocketThere s step) : ∃ p, t.thread = .faulted p := by
  cases step with
  | sendmsg ret =>
    obtain ⟨p, _, ⟨hsock, _⟩ | ⟨_, rfl⟩⟩ := txSendmsg_cases ht
    · exact absurd hsock hsocket
    · exact ⟨p, rfl⟩
  | send _ | check _ | append _ | take | readConnected | readSock | free | setConnected _
  | setSock _ | countError => exact absurd trivial hsocket

end Settling

/-- What every step keeps, and the guarded ones besides. -/
structure QueueInv (start : VpciStats) (s : TxSystem) : Prop where
  counted : QueueCounted start s
  numbered : QueueNumbered s
  running : ∀ p, s.thread ≠ .faulted p

/-- The invariant implies that the queue is faithful. -/
theorem QueueInv.faithful {start : VpciStats} {s : TxSystem} (h : QueueInv start s) :
    QueueFaithful start s := by
  obtain ⟨honce, _, _, hrefused⟩ := h.numbered.apart
  exact ⟨h.counted.fifo, honce, h.counted.counted, h.running, fun p hp => getsCounted h.running hp,
    h.counted.txPackets, h.counted.errors, h.counted.dropped,
    fun p hp => hrefused p.id (List.mem_map_of_mem hp)⟩

/-- In a run from any device, whatever becomes of its link, the queue keeps order, loses and repeats
nothing and counts each packet once exactly when `sock` is never null where the thread sends. -/
theorem txQueue_faithful_iff_socketThere (dev : VpciDevice) (steps : List QueueStep) :
    queueMachine.Always (QueueFaithful dev.stats) (txSystemStart dev) steps ↔
      queueMachine.Guarded SocketThere (txSystemStart dev) steps := by
  have hstart : QueueInv dev.stats (txSystemStart dev) :=
    ⟨⟨rfl, rfl, (UInt64.add_zero _).symm, (UInt64.add_zero _).symm, (UInt64.add_zero _).symm⟩,
      ⟨List.nodup_nil, fun _ hid => absurd hid List.not_mem_nil⟩, fun _ => TxThread.noConfusion⟩
  have hgood : ∀ s, QueueInv dev.stats s → QueueFaithful dev.stats s := fun _ h => h.faithful
  refine queueMachine.always_iff_guarded hgood ?_ ?_ hstart steps
  · intro s step t h ht hsocket
    exact ⟨queueMachine_step_counted h.counted step ht, queueMachine_step_numbered h.numbered step ht,
      queueMachine_step_running h.running step ht hsocket⟩
  · intro s step t _ ht hsocket hfaithful
    obtain ⟨p, hp⟩ := queueMachine_step_faults step ht hsocket
    exact hfaithful.running p hp

/-- A run in which a second `vpci_net_connect`, whose `kernel_connect` fails, clears `sock` between the
thread's test and its send. -/
def lossRun : List QueueStep :=
  [.send ⟨⟨0, 0, vpciMsgIrq, 0, 0, 0, 0, 0⟩, []⟩, .check 0, .append 0, .take, .readConnected, .readSock,
    .setSock false, .sendmsg 0]

/-- The packet of that run is accepted and taken, and however the run goes on it is never counted. -/
theorem txQueue_loses_packet :
    ¬ queueMachine.Always (QueueFaithful vpciConnected.stats) (txSystemStart vpciConnected) lossRun ∧
      ∃ s, queueMachine.run (txSystemStart vpciConnected) lossRun = some s ∧
        s.accepted.map TxPkt.id = [0] ∧ s.taken = s.accepted ∧ s.dev.stats = vpciConnected.stats ∧
        ∀ later t, queueMachine.run s later = some t → t.outcomes = [] := by
  let lost : TxPkt := ⟨0, ⟨⟨0, 0, vpciMsgIrq, 0, 0, 0, 0, 0⟩, []⟩, false⟩
  have hrun : queueMachine.run (txSystemStart vpciConnected) lossRun =
      some { txSystemStart { vpciConnected with sock := false } with
        thread := .faulted lost, fresh := 1, accepted := [lost], taken := [lost] } := rfl
  refine ⟨fun h => ?_, _, hrun, rfl, rfl, rfl, fun later t ht => (queueMachine_run_faulted rfl ht).2⟩
  exact (h.of_reached _ (List.prefix_refl _) hrun).running lost rfl

section Sequential

variable {s : TxSystem}

/-- A new call is the last one of the list. -/
theorem call_getElem? (pkt : VpciPacket) (onStack : Bool) :
    (s.call pkt onStack).calls[s.calls.length]? = some ⟨⟨s.fresh, pkt, onStack⟩, .check⟩ := by
  simp [TxSystem.call]

/-- When the last call returns the others are left. -/
theorem eraseIdx_snoc (calls : List SendCall) (c : SendCall) :
    (calls ++ [c]).eraseIdx calls.length = calls := by
  rw [List.eraseIdx_append_of_length_le (Nat.le_refl _), Nat.sub_self]
  exact List.append_nil _

/-- Without interference a call on a device that is not connected is `vpci_packet_send`. -/
theorem send_refused_run (pkt : VpciPacket) (hconn : s.dev.connected = false) :
    ∃ t, queueMachine.run s [.send pkt, .check s.calls.length] = some t ∧
      (t.device, -enotconn) = vpciPacketSend s.device pkt ∧ t.calls = s.calls ∧
      t.refused = s.refused ++ [⟨s.fresh, pkt, false⟩] := by
  have hno : ¬ s.dev.connected = true := by
    rw [hconn]
    exact Bool.false_ne_true
  have hcheck : queueMachine.step (s.call pkt false) (.check s.calls.length) =
      some ((s.call pkt false).refuse s.calls.length ⟨s.fresh, pkt, false⟩) := by
    change (s.call pkt false).sendCheck s.calls.length = _
    rw [TxSystem.sendCheck, call_getElem?]
    exact if_neg hno
  refine ⟨(s.call pkt false).refuse s.calls.length ⟨s.fresh, pkt, false⟩, ?_, ?_, ?_, rfl⟩
  · rw [queueMachine.run_cons_of_step rfl, queueMachine.run_cons_of_step hcheck]
    rfl
  · exact (if_neg hno).symm
  · exact eraseIdx_snoc _ _

/-- Without interference a call on a connected device is `vpci_packet_send`. -/
theorem send_accepted_run (pkt : VpciPacket) (hconn : s.dev.connected = true) :
    ∃ t, queueMachine.run s [.send pkt, .check s.calls.length, .append s.calls.length] = some t ∧
      (t.device, 0) = vpciPacketSend s.device pkt ∧ t.calls = s.calls ∧
      t.accepted = s.accepted ++ [⟨s.fresh, pkt, false⟩] := by
  have hset : ((s.call pkt false).setPc s.calls.length ⟨s.fresh, pkt, false⟩ .append).calls =
      s.calls ++ [⟨⟨s.fresh, pkt, false⟩, .append⟩] := by
    simp [TxSystem.call, TxSystem.setPc]
  have hcheck : queueMachine.step (s.call pkt false) (.check s.calls.length) =
      some ((s.call pkt false).setPc s.calls.length ⟨s.fresh, pkt, false⟩ .append) := by
    change (s.call pkt false).sendCheck s.calls.length = _
    rw [TxSystem.sendCheck, call_getElem?]
    exact if_pos hconn
  have happend : queueMachine.step
      ((s.call pkt false).setPc s.calls.length ⟨s.fresh, pkt, false⟩ .append)
      (.append s.calls.length) = some (((s.call pkt false).setPc s.calls.length
        ⟨s.fresh, pkt, false⟩ .append).accept s.calls.length ⟨s.fresh, pkt, false⟩) := by
    change TxSystem.sendAppend _ _ = _
    rw [TxSystem.sendAppend, hset, List.getElem?_concat_length]
  refine ⟨((s.call pkt false).setPc s.calls.length ⟨s.fresh, pkt, false⟩ .append).accept
    s.calls.length ⟨s.fresh, pkt, false⟩, ?_, ?_, ?_, rfl⟩
  · rw [queueMachine.run_cons_of_step rfl, queueMachine.run_cons_of_step hcheck,
      queueMachine.run_cons_of_step happend]
    rfl
  · refine Eq.trans ?_ (if_pos hconn).symm
    simp [TxSystem.device, TxSystem.accept, TxSystem.leave, TxSystem.setPc, TxSystem.call]
  · change List.eraseIdx (TxSystem.calls _) _ = _
    rw [hset]
    exact eraseIdx_snoc _ _

/-- Without interference a round of the thread is `vpci_tx_thread`. -/
theorem txThread_run (ret : ℤ) (p : TxPkt) (rest : List TxPkt) (hthread : s.thread = .waiting)
    (hlist : s.txList = p :: rest) :
    ∃ steps t sent, queueMachine.run s steps = some t ∧
      vpciTxThread s.device ret = some (p.pkt, sent, t.device) ∧ t.thread = .waiting ∧
      t.taken = s.taken ++ [p] := by
  have hdevice : s.device = { s.dev with txList := p.pkt :: rest.map TxPkt.pkt } := by
    rw [TxSystem.device, hlist, List.map_cons]
  let u : TxSystem := { s with txList := rest, thread := .taken p, taken := s.taken ++ [p] }
  have htake : queueMachine.step s .take = some u := by
    change s.txTake = _
    rw [TxSystem.txTake, hthread, hlist]
  rw [hdevice]
  dsimp only [vpciTxThread]
  by_cases hconn : s.dev.connected = true
  · have hread : queueMachine.step u .readConnected = some { u with thread := .linked p } :=
      congrArg some (if_pos hconn)
    by_cases hsock : s.dev.sock = true
    · have hcheck : queueMachine.step { u with thread := .linked p } .readSock =
          some { u with thread := .sending p } := congrArg some (if_pos hsock)
      rw [if_pos (by rw [hconn, hsock]; rfl)]
      by_cases hret : ret < 0
      · have hsend : queueMachine.step { u with thread := .sending p } (.sendmsg ret) =
            some ({ u with thread := .sending p }.txFail p) :=
          congrArg some ((if_pos hsock).trans (if_pos hret))
        refine ⟨[.take, .readConnected, .readSock, .sendmsg ret, .free],
          ({ u with thread := .sending p }.txFail p).kfreePkt p, true, ?_, ?_, rfl, rfl⟩
        · rw [queueMachine.run_cons_of_step htake, queueMachine.run_cons_of_step hread,
            queueMachine.run_cons_of_step hcheck, queueMachine.run_cons_of_step hsend]
          rfl
        · rw [if_pos hret]
          rfl
      · have hsend : queueMachine.step { u with thread := .sending p } (.sendmsg ret) =
            some ({ u with thread := .sending p }.txSent p ret) :=
          congrArg some ((if_pos hsock).trans (if_neg hret))
        refine ⟨[.take, .readConnected, .readSock, .sendmsg ret, .free],
          ({ u with thread := .sending p }.txSent p ret).kfreePkt p, true, ?_, ?_, rfl, rfl⟩
        · rw [queueMachine.run_cons_of_step htake, queueMachine.run_cons_of_step hread,
            queueMachine.run_cons_of_step hcheck, queueMachine.run_cons_of_step hsend]
          rfl
        · rw [if_neg hret]
          rfl
    · have hcheck : queueMachine.step { u with thread := .linked p } .readSock =
          some ({ u with thread := .linked p }.txDrop p) := congrArg some (if_neg hsock)
      rw [if_neg (by simp [hsock])]
      refine ⟨[.take, .readConnected, .readSock, .free],
        ({ u with thread := .linked p }.txDrop p).kfreePkt p, false, ?_, rfl, rfl, rfl⟩
      rw [queueMachine.run_cons_of_step htake, queueMachine.run_cons_of_step hread,
        queueMachine.run_cons_of_step hcheck]
      rfl
  · have hread : queueMachine.step u .readConnected = some (u.txDrop p) := congrArg some (if_neg hconn)
    rw [if_neg (by simp [hconn])]
    refine ⟨[.take, .readConnected, .free], (u.txDrop p).kfreePkt p, false, ?_, rfl, rfl, rfl⟩
    rw [queueMachine.run_cons_of_step htake, queueMachine.run_cons_of_step hread]
    rfl

end Sequential

end LinuxFunctionTest.VirtualPcie
