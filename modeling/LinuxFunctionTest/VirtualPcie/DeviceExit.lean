import LinuxFunctionTest.VirtualPcie.BarTable

/-!
# What the removal of a device releases

The calls that map BARs, connect, disconnect and queue packets, each running to its end before the next, with
the receive threads, the keepalive timer and the reconnect work in between, and `vpci_device_exit` after any
sequence of them. The exit goes by `connected` and by the fields that name the threads, and unmaps two BARs of six:
what a second connect forgot, what nobody transmits, and the other four BARs stay behind.
-/

namespace LinuxFunctionTest.VirtualPcie

/-- The fields of `struct vpci_device` that hold something, with the threads that exist and the state of the
work. A receive thread in `waiting` is inside a `kthread_stop` that never returns. Observed, newest first: the
packets that were queued and freed. -/
structure VpciHoldings where
  bars : VpciBars
  connected : Bool
  sock : Bool
  rxThread : Option ℕ
  txThread : Option ℕ
  rxThreads : List ℕ
  txThreads : List ℕ
  waiting : List ℕ
  timer : Bool
  workPending : Bool
  workRunning : Bool
  txList : List ℕ
  packets : List (LedgerEntry ℕ)
  fresh : ℕ

/-- What goes on while a disconnect runs: how many packets the transmit threads take before one of them is
stopped, and how many are queued after that. -/
structure Meanwhile where
  served : ℕ
  late : ℕ

/-- Which of the functions that `vpci_net_connect` calls succeed. -/
structure NetChoice where
  sockCreate : Bool
  kernelConnect : Bool
  runRx : Bool
  runTx : Bool

namespace VpciHoldings

/-- The device as `vpci_device_init` leaves it. -/
def vpciDeviceInit : VpciHoldings where
  bars := barInit.table
  connected := false
  sock := false
  rxThread := none
  txThread := none
  rxThreads := []
  txThreads := []
  waiting := []
  timer := false
  workPending := false
  workRunning := false
  txList := []
  packets := []
  fresh := 0

/-- `vpci_packet_send` with a new packet. -/
def vpciPacketSend (dev : VpciHoldings) : VpciHoldings :=
  if dev.connected then
    { dev with
      txList := dev.txList ++ [dev.fresh]
      packets := .acquire dev.fresh :: dev.packets
      fresh := dev.fresh + 1 }
  else dev

/-- An iteration of `vpci_tx_thread` in one of the transmit threads, if there are any: the first packet leaves
the list and is freed. -/
def vpciTxThread (dev : VpciHoldings) : VpciHoldings :=
  match dev.txThreads, dev.txList with
  | _ :: _, pkt :: rest => { dev with txList := rest, packets := .release pkt :: dev.packets }
  | _, _ => dev

/-- `vpci_keepalive_timer`, which arms itself again if the device is connected. -/
def vpciKeepaliveTimer (dev : VpciHoldings) : VpciHoldings :=
  if dev.connected then dev.vpciPacketSend else { dev with timer := false }

/-- `vpci_net_connect`, and whether it succeeds. -/
def vpciNetConnect (dev : VpciHoldings) (c : NetChoice) : VpciHoldings × Bool :=
  if ¬ c.sockCreate then (dev, false)
  else if ¬ c.kernelConnect then ({ dev with sock := false }, false)
  else if ¬ c.runRx then ({ dev with rxThread := none, sock := false }, false)
  else if ¬ c.runTx then
    -- the receive thread that was started is stopped again
    ({ dev with txThread := none, rxThread := none, sock := false, fresh := dev.fresh + 1 }, false)
  else
    ({ dev with
      sock := true
      rxThread := some dev.fresh
      rxThreads := dev.fresh :: dev.rxThreads
      txThread := some (dev.fresh + 1)
      txThreads := (dev.fresh + 1) :: dev.txThreads
      connected := true
      timer := true
      fresh := dev.fresh + 2 }, true)

/-- Stop the transmit thread that the device names. -/
def stopTxThread (dev : VpciHoldings) : VpciHoldings :=
  match dev.txThread with
  | some id => { dev with txThreads := dev.txThreads.filter (· ≠ id), txThread := none }
  | none => dev

/-- `vpci_net_disconnect` up to the receive thread: the timer and the transmit thread. -/
def stopTransmit (dev : VpciHoldings) (during : Meanwhile) : VpciHoldings :=
  vpciPacketSend^[during.late] (vpciTxThread^[during.served] { dev with timer := false }).stopTxThread

/-- `vpci_net_disconnect`, and whether it returns. It does not if it stops the thread that calls it, `self`, or
one that waits. -/
def vpciNetDisconnect (dev : VpciHoldings) (self : Option ℕ) (during : Meanwhile) : VpciHoldings × Bool :=
  let dev := dev.stopTransmit during
  match dev.rxThread with
  | some id =>
    if self = some id ∨ id ∈ dev.waiting then ({ dev with waiting := self.toList ++ dev.waiting }, false)
    else
      ({ dev with
        rxThreads := dev.rxThreads.filter (· ≠ id)
        rxThread := none
        sock := false
        connected := false }, true)
  | none => ({ dev with sock := false, connected := false }, true)

/-- `vpci_rx_thread` at the end of the stream or on a lost connection. -/
def vpciRxThread (dev : VpciHoldings) (id : ℕ) (during : Meanwhile) : VpciHoldings :=
  match dev.vpciNetDisconnect (some id) during with
  | (dev, true) => { dev with workPending := true, rxThreads := dev.rxThreads.filter (· ≠ id) }
  | (dev, false) => dev

/-- An iteration of `vpci_reconnect_work`. -/
def vpciReconnectWork (dev : VpciHoldings) (c : NetChoice) : VpciHoldings :=
  if dev.connected then { dev with workRunning := false }
  else
    match dev.vpciNetConnect c with
    | (dev, true) => { dev with workRunning := false }
    | (dev, false) => dev

/-- Work under way goes on, with the given outcomes of the connects it still tries, until it returns. -/
def finishWork (dev : VpciHoldings) : List NetChoice → Option VpciHoldings
  | [] => if dev.workRunning then none else some dev
  | c :: tries => if dev.workRunning then (dev.vpciReconnectWork c).finishWork tries else some dev

/-- `cancel_work_sync`, which takes the work off the queue and returns when work under way has. -/
def cancelWorkSync (dev : VpciHoldings) (tries : List NetChoice) : Option VpciHoldings :=
  { dev with workPending := false }.finishWork tries

/-- Disconnect a device that is connected, if that returns. -/
def disconnectConnected (dev : VpciHoldings) (during : Meanwhile) : Option VpciHoldings :=
  if dev.connected then
    match dev.vpciNetDisconnect none during with
    | (dev, true) => some dev
    | (_, false) => none
  else some dev

/-- `vpci_device_exit`, if it returns. -/
def vpciDeviceExit (dev : VpciHoldings) (during : Meanwhile) (tries : List NetChoice) :
    Option VpciHoldings := do
  let dev ← dev.disconnectConnected during
  let dev ← dev.cancelWorkSync tries
  return { dev with timer := false, bars := vpciBarUnmap (vpciBarUnmap dev.bars 0) 1 }

end VpciHoldings

/-- What happens to a device: a call, or a move of a thread, the timer or the work. -/
inductive DeviceCall where
  | bar (call : BarCall)
  | connect (loopback : Bool) (c : NetChoice)
  | disconnect (during : Meanwhile)
  | packetSend
  | txThread
  | keepalive
  | rxThread (id : ℕ) (during : Meanwhile)
  | work (c : NetChoice)

/-- The sequences of calls. A call of `vpci_net_disconnect` that never returns stays where it waits. -/
def holdingsMachine : Machine VpciHoldings DeviceCall where
  step dev label := match label with
    | .bar call => some { dev with bars := (call.run dev.bars).1 }
    | .connect true _ => some { dev with connected := true }
    | .connect false c => some (dev.vpciNetConnect c).1
    | .disconnect during => some (dev.vpciNetDisconnect none during).1
    | .packetSend => some dev.vpciPacketSend
    | .txThread => some dev.vpciTxThread
    | .keepalive => if dev.timer then some dev.vpciKeepaliveTimer else none
    | .rxThread id during =>
      if id ∈ dev.rxThreads ∧ id ∉ dev.waiting then some (dev.vpciRxThread id during) else none
    | .work c =>
      if dev.workRunning then some (dev.vpciReconnectWork c)
      else if dev.workPending then
        some ({ dev with workPending := false, workRunning := true }.vpciReconnectWork c)
      else none

/-- Nothing is mapped, every queued packet was freed, and nothing of the device can run any more. -/
structure Released (dev : VpciHoldings) : Prop where
  bars : Ledger.Settled dev.bars.mappings
  packets : Ledger.Settled dev.packets
  rxThreads : dev.rxThreads = []
  txThreads : dev.txThreads = []
  timer : dev.timer = false
  work : dev.workPending = false ∧ dev.workRunning = false

/-- The exit reaches all that the device holds: the receive thread it stops does not wait for itself, only the
first two BARs are mapped, the transmit threads take every packet before they are stopped and none follows, every
thread is one that a connected device names, and the work is not under way. -/
structure Covered (dev : VpciHoldings) (during : Meanwhile) : Prop where
  stops : dev.connected = true → ∀ id, dev.rxThread = some id → id ∉ dev.waiting
  bars : ∀ i < vpciMaxBars, 2 ≤ i → (dev.bars.bars i).addr = none
  served : dev.txList.length ≤ if dev.connected = true ∧ dev.txThreads ≠ [] then during.served else 0
  late : dev.connected = true → during.late = 0
  rxThreads : ∀ id ∈ dev.rxThreads, dev.connected = true ∧ dev.rxThread = some id
  txThreads : ∀ id ∈ dev.txThreads, dev.connected = true ∧ dev.txThread = some id
  work : dev.workRunning = false

namespace VpciHoldings

section Queue

variable {dev : VpciHoldings}

/-- What was queued and not freed is on the list. -/
def QueueKept (dev : VpciHoldings) : Prop := ∀ pkt, Ledger.balance dev.packets pkt = dev.txList.count pkt

/-- Every packet queued was freed when the list is empty. -/
theorem QueueKept.settled_iff (h : QueueKept dev) : Ledger.Settled dev.packets ↔ dev.txList = [] := by
  rw [Ledger.settled_iff_of_balance h]
  simp only [List.count_eq_zero, List.eq_nil_iff_forall_not_mem]

/-- A packet is queued at the end. -/
theorem vpciPacketSend_kept (h : QueueKept dev) : QueueKept dev.vpciPacketSend := by
  unfold vpciPacketSend
  split_ifs
  · intro pkt
    simp only [Ledger.balance_acquire, h pkt, List.count_append, List.count_singleton, beq_iff_eq]
    split_ifs <;> omega
  · exact h

/-- A packet is freed from the front. -/
theorem vpciTxThread_kept (h : QueueKept dev) : QueueKept dev.vpciTxThread := by
  unfold vpciTxThread
  split
  · next first rest _ hlist =>
    intro pkt
    simp only [Ledger.balance_release, h pkt, hlist, List.count_cons, beq_iff_eq]
    split_ifs <;> omega
  · exact h

/-- The transmit threads take from the front of the list. -/
theorem vpciTxThread_iterate (dev : VpciHoldings) (n : ℕ) : ∃ packets, vpciTxThread^[n] dev =
    { dev with
      txList := if dev.txThreads = [] then dev.txList else dev.txList.drop n
      packets := packets } := by
  induction n generalizing dev with
  | zero => exact ⟨dev.packets, by simp⟩
  | succ n ih =>
    rw [Function.iterate_succ_apply]
    cases hthreads : dev.txThreads with
    | nil =>
      obtain ⟨packets, heq⟩ := ih dev
      have hsame : dev.vpciTxThread = dev := by simp [vpciTxThread, hthreads]
      exact ⟨packets, by rw [hsame, heq]; simp [hthreads]⟩
    | cons id ids =>
      cases hlist : dev.txList with
      | nil =>
        obtain ⟨packets, heq⟩ := ih dev
        have hsame : dev.vpciTxThread = dev := by simp [vpciTxThread, hthreads, hlist]
        exact ⟨packets, by rw [hsame, heq]; simp [hthreads, hlist]⟩
      | cons pkt rest =>
        obtain ⟨packets, heq⟩ := ih { dev with txList := rest, packets := .release pkt :: dev.packets }
        have htaken : dev.vpciTxThread =
            { dev with txList := rest, packets := .release pkt :: dev.packets } := by
          simp [vpciTxThread, hthreads, hlist]
        exact ⟨packets, by rw [htaken, heq]; simp [hthreads]⟩

/-- Packets that are sent go to its end, if the device is connected. -/
theorem vpciPacketSend_iterate (dev : VpciHoldings) (n : ℕ) : ∃ packets fresh, vpciPacketSend^[n] dev =
    { dev with
      txList := dev.txList ++ if dev.connected then List.range' dev.fresh n else []
      packets := packets
      fresh := fresh } := by
  induction n generalizing dev with
  | zero => exact ⟨dev.packets, dev.fresh, by simp⟩
  | succ n ih =>
    rw [Function.iterate_succ_apply]
    obtain ⟨packets, fresh, heq⟩ := ih dev.vpciPacketSend
    refine ⟨packets, fresh, ?_⟩
    rw [heq]
    cases hconn : dev.connected with
    | false => simp [vpciPacketSend, hconn]
    | true => simp [vpciPacketSend, hconn, List.range'_succ]

end Queue

section Disconnect

variable {dev dev' : VpciHoldings}

/-- The packets that are left when a disconnect is through. -/
def leftover (dev : VpciHoldings) (during : Meanwhile) : List ℕ :=
  (if dev.txThreads = [] then dev.txList else dev.txList.drop during.served) ++
    if dev.connected then List.range' dev.fresh during.late else []

/-- Nothing is left when there was nothing or the transmit threads took it, and nothing followed. -/
theorem leftover_eq_nil (dev : VpciHoldings) (during : Meanwhile) :
    (if dev.connected then dev.leftover during else dev.txList) = [] ↔
      (dev.txList.length ≤ if dev.connected = true ∧ dev.txThreads ≠ [] then during.served else 0) ∧
        (dev.connected = true → during.late = 0) := by
  cases hconn : dev.connected with
  | false => simp
  | true =>
    unfold leftover
    rw [if_pos rfl, List.append_eq_nil_iff]
    refine and_congr ?_ (by simp [hconn])
    by_cases hthreads : dev.txThreads = []
    · rw [if_pos hthreads, if_neg (by simp [hthreads]), Nat.le_zero, List.length_eq_zero_iff]
    · rw [if_neg hthreads, if_pos ⟨rfl, hthreads⟩, List.drop_eq_nil_iff]

/-- No transmit thread is named afterwards, and the one that was is gone. -/
theorem stopTxThread_eq (dev : VpciHoldings) : dev.stopTxThread =
    { dev with txThread := none, txThreads := dev.txThreads.filter fun id => dev.txThread ≠ some id } := by
  unfold stopTxThread
  cases htx : dev.txThread with
  | none =>
    have hall : (dev.txThreads.filter fun id => (none : Option ℕ) ≠ some id) = dev.txThreads := by simp
    change dev = _
    rw [hall, ← htx]
  | some id => simp only [ne_eq, Option.some.injEq, eq_comm]

/-- The timer is deleted, and the transmit thread that the device names is gone. -/
theorem stopTransmit_eq (dev : VpciHoldings) (during : Meanwhile) : ∃ packets fresh,
    dev.stopTransmit during =
      { dev with
        txThread := none
        txThreads := dev.txThreads.filter fun id => dev.txThread ≠ some id
        timer := false
        txList := dev.leftover during
        packets := packets
        fresh := fresh } := by
  obtain ⟨packets, hserved⟩ := vpciTxThread_iterate { dev with timer := false } during.served
  obtain ⟨packets', fresh, hlate⟩ := vpciPacketSend_iterate
    { dev with
      txThread := none
      txThreads := dev.txThreads.filter fun id => dev.txThread ≠ some id
      timer := false
      txList := if dev.txThreads = [] then dev.txList else dev.txList.drop during.served
      packets := packets } during.late
  refine ⟨packets', fresh, ?_⟩
  rw [stopTransmit, hserved, stopTxThread_eq]
  exact hlate

/-- A disconnect that returns has also released the receive thread that the device names. -/
theorem vpciNetDisconnect_returns {self : Option ℕ} {during : Meanwhile}
    (h : dev.vpciNetDisconnect self during = (dev', true)) : ∃ packets fresh, dev' =
      { dev with
        connected := false
        sock := false
        rxThread := none
        txThread := none
        rxThreads := dev.rxThreads.filter fun id => dev.rxThread ≠ some id
        txThreads := dev.txThreads.filter fun id => dev.txThread ≠ some id
        timer := false
        txList := dev.leftover during
        packets := packets
        fresh := fresh } := by
  obtain ⟨packets, fresh, hstop⟩ := stopTransmit_eq dev during
  refine ⟨packets, fresh, ?_⟩
  unfold vpciNetDisconnect at h
  rw [hstop] at h
  cases hrx : dev.rxThread with
  | none =>
    simp only [hrx, Prod.mk.injEq, and_true] at h
    rw [← h]
    simp
  | some id =>
    simp only [hrx] at h
    split_ifs at h with hwaits
    · exact absurd (congrArg Prod.snd h) (by simp)
    · simp only [Prod.mk.injEq, and_true] at h
      rw [← h]
      simp [eq_comm]

/-- The packets and the BARs are accounted for. -/
structure Kept (dev : VpciHoldings) : Prop where
  queue : QueueKept dev
  bars : MappingsKept dev.bars

/-- Other fields do not matter. -/
theorem Kept.of_eq (h : Kept dev) (hbars : dev'.bars = dev.bars) (hlist : dev'.txList = dev.txList)
    (hpackets : dev'.packets = dev.packets) : Kept dev' := by
  refine ⟨?_, hbars ▸ h.bars⟩
  intro pkt
  rw [hlist, hpackets]
  exact h.queue pkt

/-- A packet that is queued is accounted for. -/
theorem Kept.packetSend (h : Kept dev) : Kept dev.vpciPacketSend := by
  refine ⟨vpciPacketSend_kept h.queue, ?_⟩
  unfold vpciPacketSend
  split_ifs <;> exact h.bars

/-- One that is taken and freed is. -/
theorem Kept.txThread (h : Kept dev) : Kept dev.vpciTxThread := by
  refine ⟨vpciTxThread_kept h.queue, ?_⟩
  unfold vpciTxThread
  split <;> exact h.bars

/-- What every iteration keeps, all of them keep. -/
theorem Kept.iterate (h : Kept dev) {f : VpciHoldings → VpciHoldings} (hf : ∀ dev, Kept dev → Kept (f dev))
    (n : ℕ) : Kept (f^[n] dev) := by
  induction n with
  | zero => exact h
  | succ n ih =>
    rw [Function.iterate_succ_apply']
    exact hf _ ih

/-- A disconnect keeps account of the packets. -/
theorem Kept.netDisconnect (h : Kept dev) (self : Option ℕ) (during : Meanwhile) :
    Kept (dev.vpciNetDisconnect self during).1 := by
  have hstart : Kept { dev with timer := false } := h.of_eq rfl rfl rfl
  have hstop : Kept (dev.stopTransmit during) := by
    refine Kept.iterate ?_ (fun _ => Kept.packetSend) during.late
    rw [stopTxThread_eq]
    exact (hstart.iterate (fun _ => Kept.txThread) during.served).of_eq rfl rfl rfl
  unfold vpciNetDisconnect
  simp only
  split
  · split_ifs
    · exact hstop.of_eq rfl rfl rfl
    · exact hstop.of_eq rfl rfl rfl
  · exact hstop.of_eq rfl rfl rfl

/-- A connect does not touch packets and BARs. -/
theorem Kept.netConnect (h : Kept dev) (c : NetChoice) : Kept (dev.vpciNetConnect c).1 := by
  unfold vpciNetConnect
  split_ifs <;> exact h.of_eq rfl rfl rfl

/-- Nor does the work. -/
theorem Kept.reconnectWork (h : Kept dev) (c : NetChoice) : Kept (dev.vpciReconnectWork c) := by
  have hconnect := h.netConnect c
  unfold vpciReconnectWork
  split_ifs
  · exact h.of_eq rfl rfl rfl
  · split
    · next heq =>
      rw [heq] at hconnect
      exact hconnect.of_eq rfl rfl rfl
    · next heq =>
      rw [heq] at hconnect
      exact hconnect

/-- What the end of the stream leaves is accounted for. -/
theorem Kept.rxThread (h : Kept dev) (id : ℕ) (during : Meanwhile) : Kept (dev.vpciRxThread id during) := by
  have hdisconnect := h.netDisconnect (some id) during
  unfold vpciRxThread
  split
  · next heq =>
    rw [heq] at hdisconnect
    exact hdisconnect.of_eq rfl rfl rfl
  · next heq =>
    rw [heq] at hdisconnect
    exact hdisconnect

end Disconnect

section Exit

variable {dev dev' : VpciHoldings} {during : Meanwhile} {tries : List NetChoice}

/-- Work that is not under way has nothing to finish. -/
theorem finishWork_idle (h : dev.workRunning = false) (tries : List NetChoice) :
    dev.finishWork tries = some dev := by
  cases tries <;> simp [finishWork, h]

/-- On an unconnected device the work goes on, or it has started threads. -/
theorem vpciReconnectWork_unconnected (h : dev.connected = false) (c : NetChoice) :
    ((dev.vpciReconnectWork c).connected = false ∧
        (dev.vpciReconnectWork c).workRunning = dev.workRunning) ∨
      ((dev.vpciReconnectWork c).workRunning = false ∧ (dev.vpciReconnectWork c).rxThreads ≠ []) := by
  unfold vpciReconnectWork vpciNetConnect
  obtain ⟨sockCreate, kernelConnect, runRx, runTx⟩ := c
  cases sockCreate <;> cases kernelConnect <;> cases runRx <;> cases runTx <;> simp [h]

/-- Work under way on an unconnected device returns when a connect succeeds, which starts threads. -/
theorem finishWork_running (hwork : dev.workRunning = true) (hconn : dev.connected = false)
    (h : dev.finishWork tries = some dev') : dev'.rxThreads ≠ [] := by
  induction tries generalizing dev with
  | nil => simp [finishWork, hwork] at h
  | cons c rest ih =>
    rw [finishWork, if_pos hwork] at h
    obtain ⟨hdown, hrunning⟩ | ⟨hdone, hthreads⟩ := vpciReconnectWork_unconnected hconn c
    · exact ih (hrunning.trans hwork) hdown h
    · rw [finishWork_idle hdone] at h
      obtain rfl := Option.some.inj h
      exact hthreads

/-- What the first part of the exit leaves of a device. -/
structure Unconnected (dev : VpciHoldings) (during : Meanwhile) (mid : VpciHoldings) : Prop where
  connected : mid.connected = false
  bars : mid.bars = dev.bars
  workRunning : mid.workRunning = dev.workRunning
  txList : mid.txList = if dev.connected then dev.leftover during else dev.txList
  rxThreads : ∀ id, id ∈ mid.rxThreads ↔ id ∈ dev.rxThreads ∧ ¬ (dev.connected = true ∧ dev.rxThread = some id)
  txThreads : ∀ id, id ∈ mid.txThreads ↔ id ∈ dev.txThreads ∧ ¬ (dev.connected = true ∧ dev.txThread = some id)
  kept : Kept dev → Kept mid

/-- A device is unconnected after its disconnect, if not before. -/
theorem disconnectConnected_unconnected (h : dev.disconnectConnected during = some dev') :
    Unconnected dev during dev' := by
  unfold disconnectConnected at h
  split_ifs at h with hconn
  · split at h
    · next mid heq =>
      obtain rfl := Option.some.inj h
      have hkept := fun hdev : Kept dev => hdev.netDisconnect none during
      rw [heq] at hkept
      obtain ⟨packets, fresh, rfl⟩ := vpciNetDisconnect_returns heq
      exact
        { connected := rfl
          bars := rfl
          workRunning := rfl
          txList := (if_pos hconn).symm
          rxThreads := fun id => by simp [hconn]
          txThreads := fun id => by simp [hconn]
          kept := hkept }
    · exact absurd h (by simp)
  · obtain rfl := Option.some.inj h
    have hdown : dev.connected = false := by simpa using hconn
    exact
      { connected := hdown
        bars := rfl
        workRunning := rfl
        txList := (if_neg hconn).symm
        rxThreads := fun id => by simp [hdown]
        txThreads := fun id => by simp [hdown]
        kept := id }

/-- What is left of the BARs: the exit unmaps the first two. -/
theorem exit_settled_bars {t : VpciBars} (h : MappingsKept t) :
    Ledger.Settled (vpciBarUnmap (vpciBarUnmap t 0) 1).mappings ↔
      ∀ i < vpciMaxBars, 2 ≤ i → (t.bars i).addr = none := by
  rw [(vpciBarUnmap_mappings (vpciBarUnmap_mappings h 0) 1).settled_iff]
  constructor
  · intro hall i hi htwo
    have hnone := hall i hi
    rwa [vpciBarUnmap_other _ (show i ≠ (1 : ℤ).toNat by simp; omega),
      vpciBarUnmap_other _ (show i ≠ (0 : ℤ).toNat by simp; omega)] at hnone
  · intro hrest i hi
    by_cases hone : i = 1
    · subst hone
      exact vpciBarUnmap_addr _ (show BarNum 1 by decide)
    · rw [vpciBarUnmap_other _ (by simpa using hone)]
      by_cases hzero : i = 0
      · subst hzero
        exact vpciBarUnmap_addr _ (show BarNum 0 by decide)
      · rw [vpciBarUnmap_other _ (by simpa using hzero)]
        exact hrest i hi (by omega)

/-- The disconnect of the exit returns exactly when the receive thread that it stops does not itself wait. -/
theorem disconnectConnected_returns_iff : (∃ mid, dev.disconnectConnected during = some mid) ↔
    (dev.connected = true → ∀ id, dev.rxThread = some id → id ∉ dev.waiting) := by
  unfold disconnectConnected
  by_cases hconn : dev.connected = true
  · rw [if_pos hconn, forall_prop_of_true hconn]
    obtain ⟨packets, fresh, hstop⟩ := stopTransmit_eq dev during
    unfold vpciNetDisconnect
    rw [hstop]
    cases hthread : dev.rxThread with
    | none => exact iff_of_true ⟨_, rfl⟩ (by simp)
    | some id =>
      simp only [Option.some.injEq, forall_eq']
      by_cases hwaits : id ∈ dev.waiting
      · rw [if_pos (.inr hwaits)]
        exact iff_of_false (by simp) (not_not.mpr hwaits)
      · rw [if_neg (by simpa using hwaits)]
        exact iff_of_true ⟨_, rfl⟩ hwaits
  · rw [if_neg hconn]
    exact iff_of_true ⟨_, rfl⟩ fun h => absurd h hconn

/-- What the exit returns when the work is not under way: the rest of the device behind the disconnect. -/
theorem vpciDeviceExit_idle (hwork : dev.workRunning = false) : dev.vpciDeviceExit during tries =
    (dev.disconnectConnected during).map fun mid =>
      { mid with workPending := false, timer := false, bars := vpciBarUnmap (vpciBarUnmap mid.bars 0) 1 } := by
  unfold VpciHoldings.vpciDeviceExit cancelWorkSync
  cases hmid : dev.disconnectConnected during with
  | none => rfl
  | some mid =>
    have hidle : ({ mid with workPending := false } : VpciHoldings).workRunning = false :=
      (disconnectConnected_unconnected hmid).workRunning.trans hwork
    simp [finishWork_idle hidle]

/-- An exit with the work under way leaves threads behind, if it returns. -/
theorem vpciDeviceExit_working (hwork : dev.workRunning = true)
    (hexit : dev.vpciDeviceExit during tries = some dev') : dev'.rxThreads ≠ [] := by
  unfold VpciHoldings.vpciDeviceExit at hexit
  simp only [Option.bind_eq_bind, Option.bind_eq_some_iff, Option.pure_def, Option.some.injEq] at hexit
  obtain ⟨mid, hmid, last, hlast, rfl⟩ := hexit
  have hun := disconnectConnected_unconnected hmid
  have hrunning : ({ mid with workPending := false } : VpciHoldings).workRunning = true :=
    hun.workRunning.trans hwork
  change last.rxThreads ≠ []
  exact finishWork_running hrunning hun.connected hlast

end Exit

end VpciHoldings

open VpciHoldings

/-- Every call keeps account of the packets and the BARs. -/
theorem holdingsMachine_kept (dev : VpciHoldings) (call : DeviceCall) (dev' : VpciHoldings) (h : Kept dev)
    (hs : holdingsMachine.step dev call = some dev') : Kept dev' := by
  cases call with
  | bar call =>
    obtain rfl := Option.some.inj hs
    exact ⟨h.queue, call.run_mappings h.bars⟩
  | connect loopback c =>
    cases loopback with
    | true =>
      obtain rfl := Option.some.inj hs
      exact h.of_eq rfl rfl rfl
    | false =>
      obtain rfl := Option.some.inj hs
      exact h.netConnect c
  | disconnect during =>
    obtain rfl := Option.some.inj hs
    exact h.netDisconnect none during
  | packetSend =>
    obtain rfl := Option.some.inj hs
    exact h.packetSend
  | txThread =>
    obtain rfl := Option.some.inj hs
    exact h.txThread
  | keepalive =>
    simp only [holdingsMachine, Option.ite_none_right_eq_some, Option.some.injEq] at hs
    obtain ⟨-, rfl⟩ := hs
    unfold vpciKeepaliveTimer
    split_ifs
    · exact h.packetSend
    · exact h.of_eq rfl rfl rfl
  | rxThread id during =>
    simp only [holdingsMachine, Option.ite_none_right_eq_some, Option.some.injEq] at hs
    obtain ⟨-, rfl⟩ := hs
    exact h.rxThread id during
  | work c =>
    simp only [holdingsMachine] at hs
    split_ifs at hs
    · obtain rfl := Option.some.inj hs
      exact h.reconnectWork c
    · obtain rfl := Option.some.inj hs
      refine Kept.reconnectWork ?_ c
      exact h.of_eq rfl rfl rfl

/-- A device that was just initialized holds nothing. -/
theorem vpciDeviceInit_kept : Kept VpciHoldings.vpciDeviceInit := by
  exact ⟨fun _ => rfl, fun _ => rfl⟩

/-- What is left behind the disconnect is released exactly when all that the device held was within reach. -/
theorem released_mid_iff {dev mid : VpciHoldings} {during : Meanwhile} (hkept : Kept dev)
    (hwork : dev.workRunning = false) (hmid : dev.disconnectConnected during = some mid) :
    Released { mid with
      workPending := false, timer := false, bars := vpciBarUnmap (vpciBarUnmap mid.bars 0) 1 } ↔
      Covered dev during := by
  have hun := disconnectConnected_unconnected hmid
  have hbars : Ledger.Settled (vpciBarUnmap (vpciBarUnmap mid.bars 0) 1).mappings ↔
      ∀ i < vpciMaxBars, 2 ≤ i → (dev.bars.bars i).addr = none := by
    rw [hun.bars]
    exact exit_settled_bars hkept.bars
  have hpackets := (hun.kept hkept).queue.settled_iff
  rw [hun.txList, leftover_eq_nil] at hpackets
  constructor
  · intro h
    have hrx : mid.rxThreads = [] := h.rxThreads
    have htx : mid.txThreads = [] := h.txThreads
    obtain ⟨hserved, hlate⟩ := hpackets.mp h.packets
    refine ⟨disconnectConnected_returns_iff.mp ⟨mid, hmid⟩, hbars.mp h.bars, hserved, hlate, ?_, ?_, hwork⟩
    · intro id hid
      by_contra hnot
      have hmem := (hun.rxThreads id).mpr ⟨hid, hnot⟩
      rw [hrx] at hmem
      exact absurd hmem List.not_mem_nil
    · intro id hid
      by_contra hnot
      have hmem := (hun.txThreads id).mpr ⟨hid, hnot⟩
      rw [htx] at hmem
      exact absurd hmem List.not_mem_nil
  · intro h
    refine ⟨hbars.mpr h.bars, hpackets.mpr ⟨h.served, h.late⟩, ?_, ?_, rfl, rfl, hun.workRunning.trans hwork⟩
    · refine List.eq_nil_iff_forall_not_mem.mpr fun id hid => ?_
      obtain ⟨hmem, hnot⟩ := (hun.rxThreads id).mp hid
      exact hnot (h.rxThreads id hmem)
    · refine List.eq_nil_iff_forall_not_mem.mpr fun id hid => ?_
      obtain ⟨hmem, hnot⟩ := (hun.txThreads id).mp hid
      exact hnot (h.txThreads id hmem)

/-- A connect in which nothing fails. -/
def netSuccess : NetChoice := ⟨true, true, true, true⟩

end LinuxFunctionTest.VirtualPcie
