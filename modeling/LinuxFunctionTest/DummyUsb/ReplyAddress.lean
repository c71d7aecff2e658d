import LinuxFunctionTest.DummyUsb.PollReplies

/-!
# Where replies go

The senders address every datagram to `conn.remote_data`. `uoe_create_client` fills it in;
`uoe_create_server` leaves it zeroed, and the loop does not store the source that `uoe_recv_packet`
hands it. The main result is that the replies of a server reach the hosts that polled exactly when
every poll it answers came from address 0 and port 0.
-/

namespace LinuxFunctionTest.DummyUsb

/-- Every reply was sent to the source of the poll it answers. -/
def RepliesToSource (s : PollLoop) : Prop := ∀ sent ∈ s.outbox, sent.dest = sent.src

/-- A poll that is about to be answered came from the zeroed address. -/
def PolledFromZero (s : PollLoop) : PollLoopStep → Prop
  | .recv _ => ∀ d queue, s.inbox = d :: queue → d.IsPoll → d.hdr.Returned → d.src = sockAddrZero
  | _ => True

/-- A server is created without a peer. -/
theorem uoeCreateServer_remoteData {listenAddr : UInt32} {listenPort eventPort : UInt16}
    {retData retEvent : ℤ} {conn : UoeConnection}
    (h : uoeCreateServer listenAddr listenPort eventPort retData retEvent = .ok conn) :
    conn.remoteData = sockAddrZero := by
  unfold uoeCreateServer uoeCreateUdpSocket at h
  split_ifs at h
  · cases h
  · cases h
  · cases h
  · obtain rfl := Except.ok.inj h
    rfl

/-- The server has no peer and its replies went to the sources of their polls. -/
structure RepliesToZero (s : PollLoop) : Prop where
  peerless : s.conn.remoteData = sockAddrZero
  toSource : RepliesToSource s

/-- Nothing but the loop sends, and nothing sets the peer. -/
theorem other_conn {s t : PollLoop} {step : GadgetStep} (ht : s.other step = some t) :
    t.conn = s.conn ∧ t.outbox = s.outbox := by
  unfold PollLoop.other at ht
  split at ht
  · cases ht
  · obtain ⟨g, -, rfl⟩ := Option.map_eq_some_iff.mp ht
    split_ifs <;> exact ⟨rfl, rfl⟩
  · obtain ⟨g, -, rfl⟩ := Option.map_eq_some_iff.mp ht
    exact ⟨rfl, rfl⟩

/-- A packet does not set the peer. -/
theorem handle_conn (s : PollLoop) (p : UoePacket) (src : SockAddr) (beyond : List UInt8) :
    (s.handle p src beyond).conn = s.conn := by
  unfold PollLoop.handle
  split_ifs <;> rfl

/-- The replies of a server without a peer stay right under a packet exactly when it is no poll or
came from the zeroed address. -/
theorem handle_toSource_iff {s : PollLoop} (h : RepliesToZero s) (p : UoePacket) (src : SockAddr)
    (beyond : List UInt8) :
    RepliesToSource (s.handle p src beyond) ↔ (p.hdr.IsPoll → src = sockAddrZero) := by
  have houtbox := (handle_answered s p src beyond).2
  unfold RepliesToSource
  split_ifs at houtbox with hp
  · obtain ⟨reply, houtbox, -⟩ := houtbox
    rw [houtbox, List.forall_mem_cons]
    simp only [h.peerless, hp, forall_true_left]
    exact ⟨fun hall => hall.1.symm, fun hsrc => ⟨hsrc.symm, h.toSource⟩⟩
  · rw [houtbox]
    exact ⟨fun _ hpoll => absurd hpoll hp, fun _ => h.toSource⟩

/-- The condition on the poll that the next packet holds, if any. -/
theorem polledFromZero_iff {s : PollLoop} {d : Datagram} {queue : List Datagram}
    (hinbox : s.inbox = d :: queue) {p : UoePacket} (hhdr : p.hdr = d.hdr) (hheaded : d.Headed)
    (hreturned : d.hdr.Returned) {beyond : List UInt8} :
    (p.hdr.IsPoll → d.src = sockAddrZero) ↔ PolledFromZero s (.recv beyond) := by
  have hpoll : p.hdr.IsPoll ↔ d.IsPoll := by simp [Datagram.IsPoll, hheaded, hhdr]
  constructor
  · intro h d' queue' hinbox' hd' _
    obtain ⟨rfl, rfl⟩ := List.cons.inj (hinbox.symm.trans hinbox')
    exact h (hpoll.mpr hd')
  · exact fun h hp => h d queue hinbox (hpoll.mp hp) hreturned

/-- One pass of the loop of a server without a peer sends right exactly when the poll it answers, if
any, came from the zeroed address. -/
theorem recv_toSource_iff {s t : PollLoop} (h : RepliesToZero s) {beyond : List UInt8}
    (ht : uoeUdcPollLoop s beyond = some t) :
    t.conn = s.conn ∧ (RepliesToSource t ↔ PolledFromZero s (.recv beyond)) := by
  obtain ⟨d, queue, hinbox, rfl, hdropped⟩ | ⟨d, e, rest, p, hinbox, hhdr, hheaded, hpos, hmax, rfl⟩ |
    ⟨d, queue, p, hinbox, hhdr, hheaded, -, hreturned, rfl⟩ | ⟨d, queue, hinbox, -, hfaults, rfl⟩ :=
      uoeUdcPollLoop_cases ht
  · refine ⟨rfl, fun _ d' queue' hinbox' hpoll hreturned => ?_, fun _ => h.toSource⟩
    obtain ⟨rfl, rfl⟩ := List.cons.inj (hinbox.symm.trans hinbox')
    exact absurd hreturned (hdropped hpoll.1).1
  · have hu : RepliesToZero (s.consume rest) := ⟨h.peerless, h.toSource⟩
    refine ⟨handle_conn _ _ _ _, (handle_toSource_iff hu p d.src beyond).trans ?_⟩
    exact polledFromZero_iff hinbox hhdr hheaded ⟨by omega, hmax⟩
  · have hu : RepliesToZero (s.consume queue) := ⟨h.peerless, h.toSource⟩
    refine ⟨handle_conn _ _ _ _, (handle_toSource_iff hu p d.src beyond).trans ?_⟩
    exact polledFromZero_iff hinbox hhdr hheaded hreturned
  · refine ⟨rfl, fun _ d' queue' hinbox' _ hreturned => ?_, fun _ => h.toSource⟩
    obtain ⟨rfl, rfl⟩ := List.cons.inj (hinbox.symm.trans hinbox')
    exact absurd hfaults hreturned.1.ne'

/-- In every run of a controller created by `uoe_create_server`, every reply goes to the source of
its poll exactly when every poll that is answered came from address 0 and port 0. -/
theorem repliesToSource_iff_fromZero (listenAddr : UInt32) (listenPort eventPort : UInt16)
    (retData retEvent : ℤ) {conn : UoeConnection}
    (hconn : uoeCreateServer listenAddr listenPort eventPort retData retEvent = .ok conn)
    (req : ReqRef → UsbRequest) (userBuf : ℕ → ℕ → UInt8) (labels : List PollLoopStep) :
    pollLoopMachine.Always RepliesToSource (pollLoopStart conn req userBuf) labels ↔
      pollLoopMachine.Guarded PolledFromZero (pollLoopStart conn req userBuf) labels := by
  have hinit : RepliesToZero (pollLoopStart conn req userBuf) :=
    ⟨uoeCreateServer_remoteData hconn, fun _ hsent => absurd hsent List.not_mem_nil⟩
  refine pollLoopMachine.always_iff_guarded (fun s (hs : RepliesToZero s) => hs.toSource) ?_ ?_
    hinit labels
  · intro s label t hs ht hguard
    cases label with
    | arrive d =>
      obtain rfl := Option.some.inj ht
      exact ⟨hs.peerless, hs.toSource⟩
    | other step =>
      obtain ⟨hconn', houtbox⟩ := other_conn ht
      exact ⟨hconn' ▸ hs.peerless, fun sent hsent => hs.toSource sent (houtbox ▸ hsent)⟩
    | recv beyond =>
      obtain ⟨hconn', hiff⟩ := recv_toSource_iff hs ht
      exact ⟨hconn' ▸ hs.peerless, hiff.mpr hguard⟩
  · intro s label t hs ht hguard hgood
    cases label with
    | arrive | other => exact hguard trivial
    | recv beyond => exact hguard ((recv_toSource_iff hs ht).2.mp hgood)

/-- A server on the default ports and one poll from the zeroed address. -/
theorem repliesToSource_iff_fromZero_default :
    uoeCreateServer 0 5555 5556 0 0 = .ok ⟨sockAddrZero, sockAddrZero, ⟨0, 5556⟩, true⟩ ∧
      (pollLoopMachine.Always RepliesToSource
          (pollLoopStart ⟨sockAddrZero, sockAddrZero, ⟨0, 5556⟩, true⟩
            (fun _ => ⟨.fifoBuf, 0, 0, 0, true⟩) fun _ _ => 0)
          [.arrive ⟨sockAddrZero, uoeSendPoll uoePollIn 0x81 1⟩, .recv []] ↔
        pollLoopMachine.Guarded PolledFromZero
          (pollLoopStart ⟨sockAddrZero, sockAddrZero, ⟨0, 5556⟩, true⟩
            (fun _ => ⟨.fifoBuf, 0, 0, 0, true⟩) fun _ _ => 0)
          [.arrive ⟨sockAddrZero, uoeSendPoll uoePollIn 0x81 1⟩, .recv []]) :=
  ⟨rfl, repliesToSource_iff_fromZero 0 5555 5556 0 0 rfl _ _ _⟩

/-- One poll from 10.0.0.1, port 40000: the NAK goes to address 0 and port 0. -/
theorem repliesToSource_broken :
    uoeCreateServer 0 5555 5556 0 0 = .ok ⟨sockAddrZero, sockAddrZero, ⟨0, 5556⟩, true⟩ ∧
      ¬ pollLoopMachine.Always RepliesToSource
        (pollLoopStart ⟨sockAddrZero, sockAddrZero, ⟨0, 5556⟩, true⟩
          (fun _ => ⟨.fifoBuf, 0, 0, 0, true⟩) fun _ _ => 0)
        [.arrive ⟨⟨0x0a000001, 40000⟩, uoeSendPoll uoePollIn 0x81 1⟩, .recv []] := by
  refine ⟨rfl, fun h => ?_⟩
  have hend := h.of_reached _ (List.prefix_refl _) rfl
  exact absurd (hend ⟨sockAddrZero, .nak 0x81 1, ⟨0x0a000001, 40000⟩⟩ (by decide)) (by decide)

end LinuxFunctionTest.DummyUsb
