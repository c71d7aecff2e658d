import LinuxFunctionTest.Library.Outline
import LinuxFunctionTest.VirtualPcie.Connection

/-!
# Who stops which thread

The interleavings of the connection with `vpci_device_exit` as one more caller, and a record of the calls of
`kthread_stop`. Both functions first decide to stop the thread that a field names and then read the field again
to stop it, and the field keeps the name until the thread has returned. So a thread is stopped twice when a
second call decides in between, and a receive thread that decides to stop the one it finds may find itself.
-/

namespace LinuxFunctionTest.VirtualPcie

/-- The two fields of `struct vpci_device` that name a thread. -/
inductive ThreadField where
  | rx
  | tx
  deriving DecidableEq

/-- A thread, by the field it is started for. -/
structure VpciThread where
  field : ThreadField
  id : ℕ
  deriving DecidableEq

/-- The thread that a field names. -/
def Connection.thread (dev : Connection) : ThreadField → Option ℕ
  | .rx => dev.rxThread
  | .tx => dev.txThread

/-- A call of `kthread_stop`: the thread of the device that makes it, if one does, and the thread it names. -/
structure StopCall where
  caller : Option VpciThread
  thread : VpciThread
  deriving DecidableEq

/-- The thread of the device that is the caller. -/
def Caller.thread : Caller → Option VpciThread
  | .ioctl => none
  | .work => none
  | .rxThread id => some ⟨.rx, id⟩

namespace Pc

/-- The field whose thread the next statement stops. -/
def stopsField : Pc → Option ThreadField
  | .connect .stopRx => some .rx
  | .disconnect .stopRx => some .rx
  | .disconnect .stopTx => some .tx
  | _ => none

/-- The thread whose return is awaited. -/
def awaits : Pc → Option VpciThread
  | .connect (.waitRx id) => some ⟨.rx, id⟩
  | .disconnect (.waitRx id) => some ⟨.rx, id⟩
  | .disconnect (.waitTx id) => some ⟨.tx, id⟩
  | _ => none

/-- The thread that the next statement stores in its field. -/
def stores : Pc → Option VpciThread
  | .connect (.storeRx id) => some ⟨.rx, id⟩
  | .connect (.storeTx id) => some ⟨.tx, id⟩
  | _ => none

/-- The field whose thread is stopped next if the statement, whose function succeeds or not, leads there. -/
def decides (dev : Connection) (ok : Bool) : Pc → Option ThreadField
  | .connect .runTx => if ok then none else some .rx
  | .disconnect .checkTx => if dev.txThread.isSome then some .tx else none
  | .disconnect .checkRx => if dev.rxThread.isSome then some .rx else none
  | _ => none

/-- The call of `kthread_stop` that the next statement is, if it is one. -/
def stopCalls (dev : Connection) (self : Option VpciThread) (pc : Pc) : List StopCall :=
  match pc.stopsField with
  | some f => (dev.thread f).toList.map fun id => ⟨self, ⟨f, id⟩⟩
  | none => []

end Pc

/-- A position of `vpci_device_exit`: before the removal, at the test of `connected`, inside the disconnect, at
`cancel_work_sync`, and past it. The rest stops no thread. -/
inductive ExitPc where
  | bound
  | checkConnected
  | disconnect (pc : DisconnectPc)
  | cancelWork
  | finished
  deriving DecidableEq

/-- The position in the functions of the connection. -/
def ExitPc.pc : ExitPc → Pc
  | .disconnect pc => .disconnect pc
  | _ => .finished

/-- The next statement of `vpci_device_exit`. -/
def vpciDeviceExit (s : VpciState) : ExitPc → Option (Connection × ExitPc)
  | .bound => none
  | .checkConnected =>
    some (s.dev, if s.dev.connected then .disconnect .timerDelete else .cancelWork)
  | .disconnect pc => (vpciNetDisconnect s.dev pc).map fun r =>
      (r.1, match r.2 with
        | .goto pc => .disconnect pc
        | .ret _ => .cancelWork)
  | .cancelWork =>
    if ∃ c ∈ s.calls, c.caller = .work ∧ c.pc ≠ .finished then none else some (s.dev, .finished)
  | .finished => none

/-- The connection with its removal. Observed, newest first: the calls of `kthread_stop`. -/
structure JoinState where
  conn : VpciState
  removal : ExitPc
  stops : List StopCall
  deriving DecidableEq

/-- A step: of the connection, an ioctl that connects in loopback mode, the removal of the device, or the next
statement of `vpci_device_exit`. -/
inductive JoinStep where
  | conn (label : VpciStep)
  | loopback
  | remove
  | exit

namespace JoinState

/-- The calls of `kthread_stop` that a step of the connection makes. -/
def stopCalls (s : JoinState) : VpciStep → List StopCall
  | .advance k _ =>
    match s.conn.calls[k]? with
    | some call => call.pc.stopCalls s.conn.dev call.caller.thread
    | none => []
  | _ => []

/-- Where somebody is: the thread of the device that it is, if it is one, and the position. -/
structure Position where
  self : Option VpciThread
  pc : Pc
  deriving DecidableEq

/-- A call as a position. -/
def position (call : Call) : Position := ⟨call.caller.thread, call.pc⟩

/-- Where everybody is, the removal first. -/
def positions (s : JoinState) : List Position := ⟨none, s.removal.pc⟩ :: s.conn.calls.map position

end JoinState

open JoinState

/-- The interleavings. -/
def joinMachine : Machine JoinState JoinStep where
  step s label := match label with
    | .conn label => (connectionMachine.step s.conn label).map fun conn =>
        { s with conn := conn, stops := s.stopCalls label ++ s.stops }
    | .loopback =>
      some { s with conn := { s.conn with dev := { s.conn.dev with connected := true }, role := .loopback } }
    | .remove => if s.removal = .bound then some { s with removal := .checkConnected } else none
    | .exit => (vpciDeviceExit s.conn s.removal).map fun r =>
        { s with
          conn := { s.conn with dev := r.1 }
          removal := r.2
          stops := s.removal.pc.stopCalls s.conn.dev none ++ s.stops }

/-- A device that was just initialized. -/
def joinInit : JoinState := ⟨vpciDeviceInit, .bound, []⟩

/-- No thread stopped itself, and none was stopped twice. -/
structure JoinsSound (stops : List StopCall) : Prop where
  notSelf : ∀ c ∈ stops, c.caller ≠ some c.thread
  once : (stops.map StopCall.thread).Nodup

/-- The statement at a position does not lead into another call: if it decides to stop the thread that a field
names, nobody else is about to, nobody waits for that thread, and it is not the one that decides; and if it
stores a receive thread, that thread is not about to stop the one it finds. -/
def Undisputed (s : JoinState) (ok : Bool) (p : Position) : Prop :=
  (∀ f ∈ p.pc.decides s.conn.dev ok,
    (∀ q ∈ s.positions, q.pc.stopsField ≠ some f) ∧
      ∀ id ∈ s.conn.dev.thread f, p.self ≠ some ⟨f, id⟩ ∧ ∀ q ∈ s.positions, q.pc.awaits ≠ some ⟨f, id⟩) ∧
    ∀ t ∈ p.pc.stores, ∀ q ∈ s.positions, q.self = some t → q.pc.stopsField ≠ some t.field

instance (s : JoinState) (ok : Bool) (p : Position) : Decidable (Undisputed s ok p) := by
  unfold Undisputed
  infer_instance

/-- The position that a step advances is undisputed. -/
def StopsAlone (s : JoinState) : JoinStep → Prop
  | .conn (.advance k ok) => ∀ call ∈ s.conn.calls[k]?, Undisputed s ok (position call)
  | .exit => Undisputed s true ⟨none, s.removal.pc⟩
  | _ => True

instance (s : JoinState) (label : JoinStep) : Decidable (StopsAlone s label) := by
  unfold StopsAlone
  split <;> infer_instance

/-- What a statement does to the fields, and where it leads. -/
structure Statement (dev dev' : Connection) (fresh : ℕ) (ok : Bool) (pc pc' : Pc) : Prop where
  thread : ∀ f id, dev'.thread f = some id → dev.thread f = some id ∨ pc.stores = some ⟨f, id⟩
  awaited : ∀ t, pc.awaits = some t → dev'.thread t.field = none
  decides : ∀ f, pc'.stopsField = some f → pc.decides dev ok = some f
  awaits : ∀ f id, pc.stopsField = some f → dev.thread f = some id → pc'.awaits = some ⟨f, id⟩
  fresh : ∀ t, pc'.stores = some t → t.id = fresh

/-- Nobody at this position is about to stop a thread, waits for one, or stores one. -/
structure Pc.Idle (pc : Pc) : Prop where
  stopsField : pc.stopsField = none
  awaits : pc.awaits = none
  stores : pc.stores = none

section Statements

variable {dev dev' : Connection} {fresh : ℕ} {ok : Bool} {pc pc' : Pc}

/-- A statement that stops nothing and leads to one that neither stops nor stores a thread. -/
theorem statement_to_idle (hpc : pc.stopsField = none) (hpc' : pc'.stopsField = none)
    (hstores : pc'.stores = none)
    (hthread : ∀ f id, dev'.thread f = some id → dev.thread f = some id ∨ pc.stores = some ⟨f, id⟩)
    (hawaited : ∀ t, pc.awaits = some t → dev'.thread t.field = none) :
    Statement dev dev' fresh ok pc pc' where
  thread := hthread
  awaited := hawaited
  decides f h := absurd (hpc'.symm.trans h) (by simp)
  awaits f id h := absurd (hpc.symm.trans h) (by simp)
  fresh t h := absurd (hstores.symm.trans h) (by simp)

/-- A statement that does not touch the fields and leads to one that neither stops nor stores a thread. -/
theorem statement_pass (hpc : pc.stopsField = none) (hwait : pc.awaits = none) (hpc' : pc'.stopsField = none)
    (hstores : pc'.stores = none) (hdev : dev'.rxThread = dev.rxThread ∧ dev'.txThread = dev.txThread) :
    Statement dev dev' fresh ok pc pc' := by
  refine statement_to_idle hpc hpc' hstores (fun f id h => .inl ?_)
    fun t h => absurd (hwait.symm.trans h) (by simp)
  cases f with
  | rx => exact hdev.1.symm.trans h
  | tx => exact hdev.2.symm.trans h

/-- A statement that decides whether the next one stops a thread. -/
theorem statement_decides (hpc : pc.stopsField = none) (hwait : pc.awaits = none)
    (hdecides : pc.decides dev ok = pc'.stopsField) (hstores : pc'.stores = none)
    (hthread : ∀ f id, dev'.thread f = some id → dev.thread f = some id) :
    Statement dev dev' fresh ok pc pc' where
  thread f id h := .inl (hthread f id h)
  awaited t h := absurd (hwait.symm.trans h) (by simp)
  decides f h := hdecides.trans h
  awaits f id h := absurd (hpc.symm.trans h) (by simp)
  fresh t h := absurd (hstores.symm.trans h) (by simp)

/-- A call of `kthread_stop`, after which the caller waits. -/
theorem statement_stop {f : ThreadField} {id : ℕ} (hpc : pc.stopsField = some f) (hid : dev.thread f = some id)
    (hpc' : pc'.awaits = some ⟨f, id⟩) (hwait : pc.awaits = none) (hstops : pc'.stopsField = none)
    (hstores : pc'.stores = none)
    (hdev : dev'.rxThread = dev.rxThread ∧ dev'.txThread = dev.txThread) :
    Statement dev dev' fresh ok pc pc' where
  thread g i h := by
    cases g with
    | rx => exact .inl (hdev.1.symm.trans h)
    | tx => exact .inl (hdev.2.symm.trans h)
  awaited t h := absurd (hwait.symm.trans h) (by simp)
  decides g h := absurd (hstops.symm.trans h) (by simp)
  awaits g i hg hi := by
    obtain rfl := Option.some.inj (hpc.symm.trans hg)
    obtain rfl := Option.some.inj (hid.symm.trans hi)
    exact hpc'
  fresh t h := absurd (hstores.symm.trans h) (by simp)

/-- A statement that has waited for a thread and clears the field. -/
theorem statement_clear {f : ThreadField} {id : ℕ} (hpc : pc.stopsField = none) (hwait : pc.awaits = some ⟨f, id⟩)
    (hpc' : pc'.stopsField = none) (hstores : pc'.stores = none) (hclear : dev'.thread f = none)
    (hother : ∀ g, g ≠ f → dev'.thread g = dev.thread g) : Statement dev dev' fresh ok pc pc' := by
  refine statement_to_idle hpc hpc' hstores (fun g i hi => .inl ?_) fun t ht => ?_
  · by_cases hg : g = f
    · subst hg
      exact absurd (hclear.symm.trans hi) (by simp)
    · exact (hother g hg).symm.trans hi
  · obtain rfl := Option.some.inj (hwait.symm.trans ht)
    exact hclear

/-- A call of `kthread_run` that succeeds. -/
theorem statement_run {f : ThreadField} (hpc : pc.stopsField = none) (hwait : pc.awaits = none)
    (hpc' : pc'.stopsField = none) (hstores : pc'.stores = some ⟨f, fresh⟩)
    (hdev : dev'.rxThread = dev.rxThread ∧ dev'.txThread = dev.txThread) :
    Statement dev dev' fresh ok pc pc' where
  thread g i h := by
    cases g with
    | rx => exact .inl (hdev.1.symm.trans h)
    | tx => exact .inl (hdev.2.symm.trans h)
  awaited t h := absurd (hwait.symm.trans h) (by simp)
  decides g h := absurd (hpc'.symm.trans h) (by simp)
  awaits g i hg := absurd (hpc.symm.trans hg) (by simp)
  fresh t h := by
    obtain rfl := Option.some.inj (hstores.symm.trans h)
    rfl

/-- A statement that stores a thread in its field. -/
theorem statement_store {f : ThreadField} {id : ℕ} (hpc : pc.stopsField = none) (hwait : pc.awaits = none)
    (hstore : pc.stores = some ⟨f, id⟩) (hpc' : pc'.stopsField = none) (hstores : pc'.stores = none)
    (hset : dev'.thread f = some id) (hother : ∀ g, g ≠ f → dev'.thread g = dev.thread g) :
    Statement dev dev' fresh ok pc pc' := by
  refine statement_to_idle hpc hpc' hstores (fun g i hi => ?_) fun t ht =>
    absurd (hwait.symm.trans ht) (by simp)
  by_cases hg : g = f
  · subst hg
    obtain rfl := Option.some.inj (hset.symm.trans hi)
    exact .inr hstore
  · exact .inl ((hother g hg).symm.trans hi)

/-- The statements of `vpci_net_disconnect`. -/
theorem vpciNetDisconnect_statement {pc : DisconnectPc} {out : Outcome DisconnectPc}
    (h : vpciNetDisconnect dev pc = some (dev', out)) {ret : Bool → Pc} (hret : ∀ ok, (ret ok).Idle)
    (fresh : ℕ) (ok : Bool) : Statement dev dev' fresh ok (.disconnect pc) (out.pc .disconnect ret) := by
  cases pc with
  | timerDelete =>
    obtain ⟨rfl, rfl⟩ := Prod.mk.inj (Option.some.inj h)
    exact statement_pass rfl rfl rfl rfl ⟨rfl, rfl⟩
  | checkTx =>
    obtain ⟨rfl, rfl⟩ := Prod.mk.inj (Option.some.inj h)
    cases htx : dev.txThread <;>
      exact statement_decides rfl rfl (by simp [Pc.decides, htx, Outcome.pc, Pc.stopsField]) rfl fun _ _ => id
  | stopTx =>
    simp only [vpciNetDisconnect] at h
    split at h
    · exact absurd h (by simp)
    · next id hid =>
      obtain ⟨rfl, rfl⟩ := Prod.mk.inj (Option.some.inj h)
      exact statement_stop (f := .tx) rfl hid rfl rfl rfl rfl ⟨rfl, rfl⟩
  | waitTx id =>
    simp only [vpciNetDisconnect, Option.ite_none_left_eq_some, Option.some.injEq, Prod.mk.injEq] at h
    obtain ⟨-, rfl, rfl⟩ := h
    refine statement_clear (f := .tx) rfl rfl rfl rfl rfl fun g hg => ?_
    cases g with
    | rx => rfl
    | tx => exact absurd rfl hg
  | checkRx =>
    obtain ⟨rfl, rfl⟩ := Prod.mk.inj (Option.some.inj h)
    cases hrx : dev.rxThread <;>
      exact statement_decides rfl rfl (by simp [Pc.decides, hrx, Outcome.pc, Pc.stopsField]) rfl fun _ _ => id
  | stopRx =>
    simp only [vpciNetDisconnect] at h
    split at h
    · exact absurd h (by simp)
    · next id hid =>
      obtain ⟨rfl, rfl⟩ := Prod.mk.inj (Option.some.inj h)
      exact statement_stop (f := .rx) rfl hid rfl rfl rfl rfl ⟨rfl, rfl⟩
  | waitRx id =>
    simp only [vpciNetDisconnect, Option.ite_none_left_eq_some, Option.some.injEq, Prod.mk.injEq] at h
    obtain ⟨-, rfl, rfl⟩ := h
    refine statement_clear (f := .rx) rfl rfl rfl rfl rfl fun g hg => ?_
    cases g with
    | rx => exact absurd rfl hg
    | tx => rfl
  | checkSock =>
    obtain ⟨rfl, rfl⟩ := Prod.mk.inj (Option.some.inj h)
    cases hsock : dev.sock <;> exact statement_pass rfl rfl rfl rfl ⟨rfl, rfl⟩
  | sockRelease =>
    simp only [vpciNetDisconnect] at h
    split at h
    · exact absurd h (by simp)
    · obtain ⟨rfl, rfl⟩ := Prod.mk.inj (Option.some.inj h)
      exact statement_pass rfl rfl rfl rfl ⟨rfl, rfl⟩
  | clearSock =>
    obtain ⟨rfl, rfl⟩ := Prod.mk.inj (Option.some.inj h)
    exact statement_pass rfl rfl rfl rfl ⟨rfl, rfl⟩
  | clearConnected =>
    obtain ⟨rfl, rfl⟩ := Prod.mk.inj (Option.some.inj h)
    exact statement_pass rfl rfl (hret true).stopsField (hret true).stores ⟨rfl, rfl⟩

/-- The statements of `vpci_net_connect`. -/
theorem vpciNetConnect_statement {pc : ConnectPc} {out : Outcome ConnectPc}
    (h : vpciNetConnect dev fresh ok pc = some (dev', out)) {ret : Bool → Pc} (hret : ∀ ok, (ret ok).Idle) :
    Statement dev dev' fresh ok (.connect pc) (out.pc .connect ret) := by
  cases pc with
  | sockCreate =>
    simp only [vpciNetConnect] at h
    split_ifs at h
    · obtain ⟨rfl, rfl⟩ := Prod.mk.inj (Option.some.inj h)
      exact statement_pass rfl rfl rfl rfl ⟨rfl, rfl⟩
    · obtain ⟨rfl, rfl⟩ := Prod.mk.inj (Option.some.inj h)
      exact statement_pass rfl rfl (hret false).stopsField (hret false).stores ⟨rfl, rfl⟩
  | kernelConnect =>
    simp only [vpciNetConnect] at h
    split at h
    · exact absurd h (by simp)
    · obtain ⟨rfl, rfl⟩ := Prod.mk.inj (Option.some.inj h)
      cases ok <;> exact statement_pass rfl rfl rfl rfl ⟨rfl, rfl⟩
  | runRx =>
    simp only [vpciNetConnect] at h
    split_ifs at h
    · obtain ⟨rfl, rfl⟩ := Prod.mk.inj (Option.some.inj h)
      exact statement_run (f := .rx) rfl rfl rfl rfl ⟨rfl, rfl⟩
    · obtain ⟨rfl, rfl⟩ := Prod.mk.inj (Option.some.inj h)
      refine statement_to_idle rfl rfl rfl (fun f id hid => .inl ?_) fun t ht => absurd ht (by simp [Pc.awaits])
      cases f with
      | rx => exact absurd hid (by simp [Connection.thread])
      | tx => exact hid
  | storeRx id =>
    obtain ⟨rfl, rfl⟩ := Prod.mk.inj (Option.some.inj h)
    refine statement_store (f := .rx) rfl rfl rfl rfl rfl rfl fun g hg => ?_
    cases g with
    | rx => exact absurd rfl hg
    | tx => rfl
  | runTx =>
    simp only [vpciNetConnect] at h
    split_ifs at h with hok
    · obtain ⟨rfl, rfl⟩ := Prod.mk.inj (Option.some.inj h)
      exact statement_run (f := .tx) rfl rfl rfl rfl ⟨rfl, rfl⟩
    · obtain ⟨rfl, rfl⟩ := Prod.mk.inj (Option.some.inj h)
      refine statement_decides rfl rfl (if_neg hok) rfl fun f id hid => ?_
      cases f with
      | rx => exact hid
      | tx => exact absurd hid (by simp [Connection.thread])
  | storeTx id =>
    obtain ⟨rfl, rfl⟩ := Prod.mk.inj (Option.some.inj h)
    refine statement_store (f := .tx) rfl rfl rfl rfl rfl rfl fun g hg => ?_
    cases g with
    | rx => rfl
    | tx => exact absurd rfl hg
  | setConnected =>
    obtain ⟨rfl, rfl⟩ := Prod.mk.inj (Option.some.inj h)
    exact statement_pass rfl rfl (hret true).stopsField (hret true).stores ⟨rfl, rfl⟩
  | stopRx =>
    simp only [vpciNetConnect] at h
    split at h
    · exact absurd h (by simp)
    · next id hid =>
      obtain ⟨rfl, rfl⟩ := Prod.mk.inj (Option.some.inj h)
      exact statement_stop (f := .rx) rfl hid rfl rfl rfl rfl ⟨rfl, rfl⟩
  | waitRx id =>
    simp only [vpciNetConnect, Option.ite_none_left_eq_some, Option.some.injEq, Prod.mk.injEq] at h
    obtain ⟨-, rfl, rfl⟩ := h
    refine statement_clear (f := .rx) rfl rfl rfl rfl rfl fun g hg => ?_
    cases g with
    | rx => exact absurd rfl hg
    | tx => rfl
  | sockRelease =>
    simp only [vpciNetConnect] at h
    split at h
    · exact absurd h (by simp)
    · obtain ⟨rfl, rfl⟩ := Prod.mk.inj (Option.some.inj h)
      exact statement_pass rfl rfl rfl rfl ⟨rfl, rfl⟩
  | clearSock =>
    obtain ⟨rfl, rfl⟩ := Prod.mk.inj (Option.some.inj h)
    exact statement_pass rfl rfl (hret false).stopsField (hret false).stores ⟨rfl, rfl⟩

/-- The statements of a call. -/
theorem callStep_statement {call : Call} (h : callStep dev fresh ok call = some (dev', pc')) :
    Statement dev dev' fresh ok call.pc pc' := by
  unfold callStep at h
  split at h
  · next pc hpc =>
    obtain ⟨⟨dev'', out⟩, hs, heq⟩ := Option.map_eq_some_iff.mp h
    obtain ⟨rfl, rfl⟩ := Prod.mk.inj heq
    rw [hpc]
    refine vpciNetConnect_statement hs fun ok => ?_
    unfold connectReturn
    split_ifs <;> exact ⟨rfl, rfl, rfl⟩
  · next pc hpc =>
    obtain ⟨⟨dev'', out⟩, hs, heq⟩ := Option.map_eq_some_iff.mp h
    obtain ⟨rfl, rfl⟩ := Prod.mk.inj heq
    rw [hpc]
    refine vpciNetDisconnect_statement hs (fun _ => ?_) fresh ok
    cases call.caller <;> exact ⟨rfl, rfl, rfl⟩
  · next hpc =>
    obtain ⟨rfl, rfl⟩ := Prod.mk.inj (Option.some.inj h)
    rw [hpc]
    split_ifs <;> exact statement_pass rfl rfl rfl rfl ⟨rfl, rfl⟩
  · next hpc =>
    obtain ⟨rfl, rfl⟩ := Prod.mk.inj (Option.some.inj h)
    rw [hpc]
    exact statement_pass rfl rfl rfl rfl ⟨rfl, rfl⟩
  · next hpc =>
    split at h
    · obtain ⟨rfl, rfl⟩ := Prod.mk.inj (Option.some.inj h)
      rw [hpc]
      exact statement_pass rfl rfl rfl rfl ⟨rfl, rfl⟩
    · exact absurd h (by simp)
  · exact absurd h (by simp)

/-- The statements of the exit. -/
theorem vpciDeviceExit_statement {s : VpciState} {pc pc' : ExitPc} (h : vpciDeviceExit s pc = some (dev', pc'))
    (fresh : ℕ) (ok : Bool) : Statement s.dev dev' fresh ok pc.pc pc'.pc := by
  cases pc with
  | bound => exact absurd h (by simp [vpciDeviceExit])
  | checkConnected =>
    obtain ⟨rfl, rfl⟩ := Prod.mk.inj (Option.some.inj h)
    split_ifs <;> exact statement_pass rfl rfl rfl rfl ⟨rfl, rfl⟩
  | disconnect pc =>
    obtain ⟨⟨dev'', out⟩, hs, heq⟩ := Option.map_eq_some_iff.mp h
    obtain ⟨rfl, rfl⟩ := Prod.mk.inj heq
    have hidle : Pc.finished.Idle := ⟨rfl, rfl, rfl⟩
    have hstatement := vpciNetDisconnect_statement hs (fun _ => hidle) fresh ok
    cases out with
    | goto pc' => exact hstatement
    | ret ok' => exact hstatement
  | cancelWork =>
    simp only [vpciDeviceExit, Option.ite_none_left_eq_some, Option.some.injEq, Prod.mk.injEq] at h
    obtain ⟨-, rfl, rfl⟩ := h
    exact statement_pass rfl rfl rfl rfl ⟨rfl, rfl⟩
  | finished => exact absurd h (by simp [vpciDeviceExit])

/-- A statement that stores a thread stops none. -/
theorem Pc.stopsField_of_stores {t : VpciThread} (h : pc.stores = some t) : pc.stopsField = none := by
  unfold Pc.stores at h
  split at h <;> first | rfl | exact absurd h (by simp)

/-- A statement that decides neither stops nor stores a thread. -/
theorem Pc.idle_of_decides {f : ThreadField} (h : pc.decides dev ok = some f) :
    pc.stopsField = none ∧ pc.stores = none := by
  unfold Pc.decides at h
  split at h <;> first | exact ⟨rfl, rfl⟩ | exact absurd h (by simp)

/-- A statement makes no call of `kthread_stop`, or stops the thread that its field names. -/
theorem Pc.stopCalls_cases (dev : Connection) (self : Option VpciThread) (pc : Pc) :
    pc.stopCalls dev self = [] ∨ ∃ t : VpciThread,
      pc.stopsField = some t.field ∧ dev.thread t.field = some t.id ∧ pc.stopCalls dev self = [⟨self, t⟩] := by
  unfold Pc.stopCalls
  split
  · next f hf =>
    cases hid : dev.thread f with
    | none => exact .inl rfl
    | some id => exact .inr ⟨⟨f, id⟩, hf, hid, rfl⟩
  · exact .inl rfl

end Statements

/-- What the callers share. -/
structure JoinShared where
  dev : Connection
  fresh : ℕ
  stops : List StopCall

/-- What is known at a position: the thread that is to be stopped was not stopped and is not the caller, and the
thread that is to be stored is unknown to others. -/
structure Position.Holds (s : JoinShared) (p : Position) : Prop where
  stops : ∀ f, p.pc.stopsField = some f → ∀ id, s.dev.thread f = some id →
    ⟨f, id⟩ ∉ s.stops.map StopCall.thread ∧ p.self ≠ some ⟨f, id⟩
  stores : ∀ t, p.pc.stores = some t →
    t ∉ s.stops.map StopCall.thread ∧ s.dev.thread t.field ≠ some t.id ∧ t.id < s.fresh

/-- Two positions are not both about to stop the thread of a field or to store a thread. -/
def Position.Apart (p q : Position) : Prop :=
  (∀ f, p.pc.stopsField = some f → q.pc.stopsField ≠ some f) ∧ ∀ t, p.pc.stores = some t → q.pc.stores ≠ some t

/-- The invariant: a field that still names a stopped thread does so because that thread is awaited. -/
structure JoinInv (s : JoinShared) (positions : List Position) : Prop where
  sound : JoinsSound s.stops
  awaited : ∀ t ∈ s.stops.map StopCall.thread, s.dev.thread t.field = some t.id →
    ∃ p ∈ positions, p.pc.awaits = some t
  outline : Outline Position.Holds Position.Apart s positions
  stopped : ∀ t ∈ s.stops.map StopCall.thread, t.id < s.fresh
  named : ∀ f id, s.dev.thread f = some id → id < s.fresh

/-- What the callers of a state share. -/
def JoinState.shared (s : JoinState) : JoinShared := ⟨s.conn.dev, s.conn.fresh, s.stops⟩

section Invariant

variable {s : JoinState}

/-- Two positions that are apart either way. -/
theorem Position.Apart.symm {p q : Position} (h : Position.Apart p q) : Position.Apart q p :=
  ⟨fun f hq hp => h.1 f hp hq, fun t hq hp => h.2 t hp hq⟩

/-- A caller that does nothing with threads yet may join. -/
theorem JoinInv.enter {σ : JoinShared} {positions : List Position} (h : JoinInv σ positions) {p : Position}
    (hstops : p.pc.stopsField = none) (hstores : p.pc.stores = none) : JoinInv σ (positions ++ [p]) where
  sound := h.sound
  awaited := by
    intro t ht hname
    obtain ⟨q, hq, hawaits⟩ := h.awaited t ht hname
    exact ⟨q, List.mem_append_left _ hq, hawaits⟩
  outline := by
    have hapart : ∀ q, Position.Apart p q := fun q =>
      ⟨fun f hf => absurd (hstops.symm.trans hf) (by simp), fun t ht => absurd (hstores.symm.trans ht) (by simp)⟩
    refine h.outline.enter ⟨fun f hf => ?_, fun t ht => ?_⟩ fun q => ⟨hapart q, (hapart q).symm⟩
    · exact absurd (hstops.symm.trans hf) (by simp)
    · exact absurd (hstores.symm.trans ht) (by simp)
  stopped := h.stopped
  named := h.named

/-- Only the fields of the device matter. -/
theorem JoinInv.of_thread {dev dev' : Connection} {fresh : ℕ} {stops : List StopCall}
    {positions : List Position} (h : JoinInv ⟨dev, fresh, stops⟩ positions) (hdev : dev'.thread = dev.thread) :
    JoinInv ⟨dev', fresh, stops⟩ positions := by
  obtain ⟨hsound, hawaited, houtline, hstopped, hnamed⟩ := h
  refine ⟨hsound, ?_, ?_, hstopped, ?_⟩
  · simpa only [hdev] using hawaited
  · refine houtline.interfere fun k p hp => ?_
    obtain ⟨hstops, hstores⟩ := houtline.holds k p hp
    exact ⟨by simpa only [hdev] using hstops, by simpa only [hdev] using hstores⟩
  · simpa only [hdev] using hnamed

section Advance

variable {j : ℕ} {p : Position} {ok : Bool} {dev' : Connection} {pc' : Pc} {fresh' : ℕ}

/-- A thread was stopped before a statement, or it is the one that the statement stops. -/
theorem mem_stopped {dev : Connection} {self : Option VpciThread} {pc : Pc} {stops : List StopCall}
    {t : VpciThread} (h : t ∈ (pc.stopCalls dev self ++ stops).map StopCall.thread) :
    t ∈ stops.map StopCall.thread ∨ pc.stopsField = some t.field ∧ dev.thread t.field = some t.id := by
  rw [List.map_append, List.mem_append] at h
  rcases h with h | h
  · obtain hnone | ⟨u, hfield, hid, hone⟩ := Pc.stopCalls_cases dev self pc
    · rw [hnone] at h
      exact absurd h List.not_mem_nil
    · rw [hone] at h
      obtain rfl := List.mem_singleton.mp h
      exact .inr ⟨hfield, hid⟩
  · exact .inl h

/-- No thread stops itself or is stopped again. -/
theorem JoinInv.advance_sound (h : JoinInv s.shared s.positions) (hj : s.positions[j]? = some p) :
    JoinsSound (p.pc.stopCalls s.conn.dev p.self ++ s.stops) := by
  obtain hnone | ⟨t, hfield, hid, hone⟩ := Pc.stopCalls_cases s.conn.dev p.self p.pc
  · rw [hnone]
    exact h.sound
  · obtain ⟨hstopped, hself⟩ := (h.outline.holds j p hj).stops t.field hfield t.id hid
    rw [hone]
    refine ⟨fun c hc => ?_, List.nodup_cons.mpr ⟨hstopped, h.sound.once⟩⟩
    rcases List.mem_cons.mp hc with rfl | hc
    · exact hself
    · exact h.sound.notSelf c hc

/-- What is known at the next position. -/
theorem JoinInv.advance_self (h : JoinInv s.shared s.positions) (hguard : Undisputed s ok p)
    (hs : Statement s.conn.dev dev' s.conn.fresh ok p.pc pc') (hj : s.positions[j]? = some p)
    (hnew : ∀ t, pc'.stores = some t → t.id < fresh') :
    Position.Holds ⟨dev', fresh', p.pc.stopCalls s.conn.dev p.self ++ s.stops⟩ ⟨p.self, pc'⟩ := by
  constructor
  · intro f hf id hid
    have hdecides := hs.decides f hf
    obtain ⟨hstops, hstores⟩ := Pc.idle_of_decides hdecides
    obtain ⟨-, hnamed⟩ := hguard.1 f hdecides
    have hid' := (hs.thread f id hid).resolve_right (by simp [hstores])
    obtain ⟨hself, hawaits⟩ := hnamed id hid'
    refine ⟨fun hmem => ?_, hself⟩
    rcases mem_stopped hmem with hmem | ⟨hfield, -⟩
    · obtain ⟨q, hq, hawait⟩ := h.awaited _ hmem hid'
      exact hawaits q hq hawait
    · exact absurd (hstops.symm.trans hfield) (by simp)
  · intro t ht
    have hfresh := hs.fresh t ht
    refine ⟨fun hmem => ?_, fun hname => ?_, hnew t ht⟩
    · rcases mem_stopped hmem with hmem | ⟨-, hname⟩
      · exact absurd (h.stopped t hmem) (by simp [JoinState.shared, hfresh])
      · exact absurd (h.named t.field t.id hname) (by simp [JoinState.shared, hfresh])
    · rcases hs.thread t.field t.id hname with hname | hstores
      · exact absurd (h.named t.field t.id hname) (by simp [JoinState.shared, hfresh])
      · have hlt := ((h.outline.holds j p hj).stores t hstores).2.2
        exact absurd hlt (by simp [JoinState.shared, hfresh])

/-- What is known at the other positions stays known. -/
theorem JoinInv.advance_other (h : JoinInv s.shared s.positions) (hguard : Undisputed s ok p)
    (hs : Statement s.conn.dev dev' s.conn.fresh ok p.pc pc') (hj : s.positions[j]? = some p)
    (hfresh : s.conn.fresh ≤ fresh') {i : ℕ} {q : Position} (hi : i ≠ j) (hq : s.positions[i]? = some q) :
    Position.Holds ⟨dev', fresh', p.pc.stopCalls s.conn.dev p.self ++ s.stops⟩ q := by
  have hp := h.outline.holds j p hj
  have hholds := h.outline.holds i q hq
  have hapart := h.outline.apart i j q p hq hj hi
  constructor
  · intro f hf id hid
    rcases hs.thread f id hid with hid' | hstores
    · obtain ⟨hstopped, hself⟩ := hholds.stops f hf id hid'
      refine ⟨fun hmem => ?_, hself⟩
      rcases mem_stopped hmem with hmem | ⟨hfield, -⟩
      · exact hstopped hmem
      · exact hapart.1 f hf hfield
    · -- the field names the thread that was just stored
      refine ⟨fun hmem => ?_, fun hself => hguard.2 _ hstores q (List.mem_of_getElem? hq) hself hf⟩
      rcases mem_stopped hmem with hmem | ⟨hfield, -⟩
      · exact (hp.stores _ hstores).1 hmem
      · exact absurd ((Pc.stopsField_of_stores hstores).symm.trans hfield) (by simp)
  · intro t ht
    obtain ⟨hstopped, hname, hlt⟩ := hholds.stores t ht
    refine ⟨fun hmem => ?_, fun hname' => ?_, Nat.lt_of_lt_of_le hlt hfresh⟩
    · rcases mem_stopped hmem with hmem | ⟨-, hnamed⟩
      · exact hstopped hmem
      · exact hname hnamed
    · rcases hs.thread t.field t.id hname' with hnamed | hstores
      · exact hname hnamed
      · exact hapart.2 t ht hstores

/-- A position that goes on undisputed keeps the invariant. -/
theorem JoinInv.advance (h : JoinInv s.shared s.positions) (hguard : Undisputed s ok p)
    (hs : Statement s.conn.dev dev' s.conn.fresh ok p.pc pc') (hj : s.positions[j]? = some p)
    (hfresh : s.conn.fresh ≤ fresh') (hnew : ∀ t, pc'.stores = some t → t.id < fresh') :
    JoinInv ⟨dev', fresh', p.pc.stopCalls s.conn.dev p.self ++ s.stops⟩
      (s.positions.set j ⟨p.self, pc'⟩) where
  sound := h.advance_sound hj
  awaited := by
    intro t ht hname
    rcases hs.thread t.field t.id hname with hname' | hstores
    · rcases mem_stopped ht with ht | ⟨hfield, hid⟩
      · -- somebody else waits for it, since this position would have cleared the field
        obtain ⟨q, hq, hawaits⟩ := h.awaited t ht hname'
        obtain ⟨i, hi⟩ := List.mem_iff_getElem?.mp hq
        have hij : i ≠ j := by
          rintro rfl
          obtain rfl := Option.some.inj (hj.symm.trans hi)
          exact absurd (hname.symm.trans (hs.awaited t hawaits)) (by simp)
        refine ⟨q, List.mem_iff_getElem?.mpr ⟨i, ?_⟩, hawaits⟩
        rwa [List.getElem?_set_ne hij.symm]
      · have hlt := (List.getElem?_eq_some_iff.mp hj).1
        refine ⟨⟨p.self, pc'⟩, List.mem_iff_getElem?.mpr ⟨j, ?_⟩, hs.awaits t.field t.id hfield hid⟩
        rw [List.getElem?_set_self hlt]
    · rcases mem_stopped ht with ht | ⟨hfield, -⟩
      · exact absurd ht ((h.outline.holds j p hj).stores t hstores).1
      · exact absurd ((Pc.stopsField_of_stores hstores).symm.trans hfield) (by simp)
  outline := by
    refine h.outline.advance (h.advance_self hguard hs hj hnew)
      (fun i q hi hq => h.advance_other hguard hs hj hfresh hi hq) fun i q hi hq => ?_
    have hapart : Position.Apart ⟨p.self, pc'⟩ q := by
      constructor
      · intro f hf
        exact (hguard.1 f (hs.decides f hf)).1 q (List.mem_of_getElem? hq)
      · intro t ht hstores
        have hlt := ((h.outline.holds i q hq).stores t hstores).2.2
        exact absurd hlt (by simp [JoinState.shared, hs.fresh t ht])
    exact ⟨hapart, hapart.symm⟩
  stopped := by
    intro t ht
    rcases mem_stopped ht with ht | ⟨-, hname⟩
    · exact Nat.lt_of_lt_of_le (h.stopped t ht) hfresh
    · exact Nat.lt_of_lt_of_le (h.named t.field t.id hname) hfresh
  named := by
    intro f id hid
    rcases hs.thread f id hid with hid | hstores
    · exact Nat.lt_of_lt_of_le (h.named f id hid) hfresh
    · exact Nat.lt_of_lt_of_le ((h.outline.holds j p hj).stores _ hstores).2.2 hfresh

end Advance

/-- A new call does nothing with threads yet. -/
theorem JoinInv.call (h : JoinInv s.shared s.positions) {c : Call} (hstops : c.pc.stopsField = none)
    (hstores : c.pc.stores = none) (role : VpciRole) (stops : List StopCall) (hsame : stops = s.stops) :
    JoinInv ⟨s.conn.dev, s.conn.fresh, stops⟩
      (JoinState.positions ⟨{ s.conn with role := role, calls := s.conn.calls ++ [c] }, s.removal, stops⟩) := by
  subst hsame
  have henter := h.enter (p := position c) hstops hstores
  simp only [JoinState.positions, List.map_append, List.map_cons, List.map_nil]
  exact henter

/-- Every step of the connection whose position is undisputed keeps the invariant. -/
theorem JoinInv.conn_step (h : JoinInv s.shared s.positions) {label : VpciStep} {conn : VpciState}
    (hs : connectionMachine.step s.conn label = some conn) (hguard : StopsAlone s (.conn label)) :
    JoinInv ⟨conn.dev, conn.fresh, s.stopCalls label ++ s.stops⟩
      (JoinState.positions ⟨conn, s.removal, s.stopCalls label ++ s.stops⟩) := by
  cases label with
  | ioctl cmd =>
    obtain rfl := Option.some.inj hs
    cases cmd with
    | connect => exact h.call (c := ⟨.ioctl, .connect .sockCreate⟩) rfl rfl .rc _ rfl
    | disconnect => exact h.call (c := ⟨.ioctl, .disconnect .timerDelete⟩) rfl rfl s.conn.role _ rfl
    | setRole arg => exact h
  | work =>
    simp only [connectionMachine, Option.ite_none_left_eq_some, Option.some.injEq] at hs
    obtain ⟨-, rfl⟩ := hs
    exact h.call (c := ⟨.work, .workTest⟩) rfl rfl s.conn.role _ rfl
  | rxFail id =>
    simp only [connectionMachine, Option.ite_none_right_eq_some, Option.some.injEq] at hs
    obtain ⟨-, rfl⟩ := hs
    exact h.call (c := ⟨.rxThread id, .disconnect .timerDelete⟩) rfl rfl s.conn.role _ rfl
  | advance k ok =>
    simp only [connectionMachine] at hs
    split at hs
    · exact absurd hs (by simp)
    · next call hk =>
      obtain ⟨⟨dev', pc'⟩, hcall, rfl⟩ := Option.map_eq_some_iff.mp hs
      have hj : s.positions[k + 1]? = some (position call) := by
        simp [JoinState.positions, hk]
      have hstatement := callStep_statement hcall
      have hadvance := h.advance (hguard call hk) hstatement hj (Nat.le_succ _)
        fun t ht => Nat.lt_succ_of_le (hstatement.fresh t ht).le
      have hstops : s.stopCalls (.advance k ok) = call.pc.stopCalls s.conn.dev call.caller.thread := by
        simp [JoinState.stopCalls, hk]
      rw [hstops]
      simp only [JoinState.positions, List.map_set, List.set_cons_succ] at hadvance ⊢
      exact hadvance
  | rxReturn id =>
    simp only [connectionMachine, Option.ite_none_right_eq_some, Option.some.injEq] at hs
    obtain ⟨-, rfl⟩ := hs
    exact h.of_thread (funext fun f => by cases f <;> rfl)
  | txReturn id =>
    simp only [connectionMachine, Option.ite_none_right_eq_some, Option.some.injEq] at hs
    obtain ⟨-, rfl⟩ := hs
    exact h.of_thread (funext fun f => by cases f <;> rfl)

end Invariant

/-- Every step whose position is undisputed keeps the invariant. -/
theorem joinMachine_step_inv (s : JoinState) (label : JoinStep) (t : JoinState)
    (h : JoinInv s.shared s.positions) (hs : joinMachine.step s label = some t) (hguard : StopsAlone s label) :
    JoinInv t.shared t.positions := by
  cases label with
  | conn label =>
    obtain ⟨conn, hconn, rfl⟩ := Option.map_eq_some_iff.mp hs
    exact h.conn_step hconn hguard
  | loopback =>
    obtain rfl := Option.some.inj hs
    exact h.of_thread (funext fun f => by cases f <;> rfl)
  | remove =>
    simp only [joinMachine, Option.ite_none_right_eq_some, Option.some.injEq] at hs
    obtain ⟨hbound, rfl⟩ := hs
    have hpositions : JoinState.positions { s with removal := .checkConnected } = s.positions := by
      simp [JoinState.positions, hbound, ExitPc.pc]
    exact hpositions ▸ h
  | exit =>
    obtain ⟨⟨dev', removal⟩, hexit, rfl⟩ := Option.map_eq_some_iff.mp hs
    have hstatement := vpciDeviceExit_statement hexit s.conn.fresh true
    refine h.advance hguard hstatement (show s.positions[0]? = some _ from rfl) (Nat.le_refl _) fun t ht => ?_
    exact absurd ht (by cases removal <;> simp [ExitPc.pc, Pc.stores])

/-- Nobody does anything with threads at first. -/
theorem joinInit_inv : JoinInv joinInit.shared joinInit.positions where
  sound := ⟨fun c hc => absurd hc List.not_mem_nil, List.nodup_nil⟩
  awaited t ht := absurd ht List.not_mem_nil
  outline := by
    refine ⟨fun k p hp => ?_, fun j k p q hp hq hne => ?_⟩
    · obtain rfl := List.mem_singleton.mp (List.mem_of_getElem? hp)
      exact ⟨fun f hf => absurd hf (by simp [Pc.stopsField, joinInit, ExitPc.pc]),
        fun t ht => absurd ht (by simp [Pc.stores, joinInit, ExitPc.pc])⟩
    · obtain rfl := List.mem_singleton.mp (List.mem_of_getElem? hp)
      exact ⟨fun f hf => absurd hf (by simp [Pc.stopsField, joinInit, ExitPc.pc]),
        fun t ht => absurd ht (by simp [Pc.stores, joinInit, ExitPc.pc])⟩
  stopped t ht := absurd ht List.not_mem_nil
  named f id h := by
    cases f <;> exact absurd h (by simp [joinInit, JoinState.shared, vpciDeviceInit, Connection.thread])

/-- Along every run in which no position that decides to stop a thread, or stores one, is disputed, no thread
waits for itself and none is stopped twice. -/
theorem joinsSound_of_stopsAlone {labels : List JoinStep}
    (h : joinMachine.Guarded StopsAlone joinInit labels) :
    joinMachine.Always (fun s => JoinsSound s.stops) joinInit labels :=
  (joinMachine.always_of_guarded joinMachine_step_inv joinInit_inv h).mono _ fun _ hs => hs.sound

/-- A connect by the first call, in which nothing fails. -/
def joinConnect : List JoinStep := (.ioctl .connect :: List.replicate 7 (.advance 0 true)).map .conn

/-- A connect, and the removal of the device. -/
theorem joinsSound_of_stopsAlone_removal :
    joinMachine.Always (fun s => JoinsSound s.stops) joinInit
      (joinConnect ++ .remove :: List.replicate 4 .exit ++ .conn (.txReturn 4) :: List.replicate 3 .exit ++
        .conn (.rxReturn 2) :: List.replicate 6 .exit) :=
  joinsSound_of_stopsAlone (by decide)

/-- A receive thread that meets the end of the stream stops itself, and two disconnects stop the transmit thread
twice. -/
theorem joinsSound_broken :
    (¬ joinMachine.Always (fun s => JoinsSound s.stops) joinInit
      (joinConnect ++ .conn (.rxFail 2) :: List.replicate 3 (.conn (.advance 1 true)) ++
        .conn (.txReturn 4) :: List.replicate 3 (.conn (.advance 1 true)))) ∧
      ¬ joinMachine.Always (fun s => JoinsSound s.stops) joinInit
        (joinConnect ++ .conn (.ioctl .disconnect) :: .conn (.rxFail 2) ::
          List.replicate 2 (.conn (.advance 1 true)) ++ List.replicate 2 (.conn (.advance 2 true)) ++
          [.conn (.advance 1 true), .conn (.advance 2 true)]) := by
  constructor
  · intro h
    have hsound := h.of_reached joinMachine (List.prefix_refl _) rfl
    exact absurd hsound.notSelf (by decide)
  · intro h
    have hsound := h.of_reached joinMachine (List.prefix_refl _) rfl
    exact absurd hsound.once (by decide)

end LinuxFunctionTest.VirtualPcie
