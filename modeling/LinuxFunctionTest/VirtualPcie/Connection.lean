import LinuxFunctionTest.Library.Machine
import Mathlib.Data.Nat.Notation

/-!
# The connection of a virtual PCIe device

`vpci_net_connect` and `vpci_net_disconnect` statement by statement, under the calls that reach them:
`vpci_ioctl`, `vpci_reconnect_work`, and the receive thread on an error or at the end of the
stream. Nothing serializes them, so a call under way is a position in the source, and every step
advances one call by one statement. A NULL dereference ends the call that makes it where it
stands. Outside loopback mode `CONNECT` always opens a connection.
-/

namespace LinuxFunctionTest.VirtualPcie

/-- `enum vpci_role`. -/
inductive VpciRole where
  | none
  | rc
  | ep
  | loopback
  deriving DecidableEq

/-- `VPCI_ROLE_EP`. -/
def vpciRoleEp : ℕ := 2

/-- A kernel thread, and whether `kthread_stop` asked it to stop. -/
structure KThread where
  id : ℕ
  shouldStop : Bool
  deriving DecidableEq

/-- The fields of `struct vpci_device` that make up its connection, with what exists of its sockets
and threads: a socket until it is released, and a thread until it returns. -/
structure Connection where
  connected : Bool
  sock : Option ℕ
  rxThread : Option ℕ
  txThread : Option ℕ
  sockets : List ℕ
  rxThreads : List KThread
  txThreads : List KThread
  deriving DecidableEq

/-- `kthread_should_stop` becomes true for the thread. -/
def kthreadStop (id : ℕ) (threads : List KThread) : List KThread :=
  threads.map fun t => if t.id = id then { t with shouldStop := true } else t

/-- Asking a thread to stop renames none. -/
@[simp] theorem kthreadStop_ids (id : ℕ) (threads : List KThread) :
    (kthreadStop id threads).map (·.id) = threads.map (·.id) := by
  rw [kthreadStop, List.map_map]
  apply List.map_congr_left
  intro t _
  simp only [Function.comp]
  split_ifs <;> rfl

/-- How a statement ends: the call goes on, or returns whether it succeeded. -/
inductive Outcome (π : Type) where
  | goto (pc : π)
  | ret (ok : Bool)
  deriving DecidableEq

/-- A position in `vpci_net_connect`. A thread that `kthread_run` created runs before its pointer is
stored. The waits are those inside `kthread_stop`. -/
inductive ConnectPc where
  | sockCreate
  | kernelConnect
  | runRx
  | storeRx (id : ℕ)
  | runTx
  | storeTx (id : ℕ)
  | setConnected
  | stopRx
  | waitRx (id : ℕ)
  | sockRelease
  | clearSock
  deriving DecidableEq

/-- The next statement of `vpci_net_connect`. `ok` tells whether the function it calls succeeds, and
`fresh` names what that function creates. -/
def vpciNetConnect (dev : Connection) (fresh : ℕ) (ok : Bool) :
    ConnectPc → Option (Connection × Outcome ConnectPc)
  | .sockCreate =>
    if ok then
      some ({ dev with sock := some fresh, sockets := fresh :: dev.sockets }, .goto .kernelConnect)
    else some (dev, .ret false)
  | .kernelConnect =>
    match dev.sock with
    | none => none
    | some _ => some (dev, .goto (if ok then .runRx else .sockRelease))
  | .runRx =>
    if ok then some ({ dev with rxThreads := ⟨fresh, false⟩ :: dev.rxThreads }, .goto (.storeRx fresh))
    else some ({ dev with rxThread := none }, .goto .sockRelease)
  | .storeRx id => some ({ dev with rxThread := some id }, .goto .runTx)
  | .runTx =>
    if ok then some ({ dev with txThreads := ⟨fresh, false⟩ :: dev.txThreads }, .goto (.storeTx fresh))
    else some ({ dev with txThread := none }, .goto .stopRx)
  | .storeTx id => some ({ dev with txThread := some id }, .goto .setConnected)
  | .setConnected => some ({ dev with connected := true }, .ret true)
  | .stopRx =>
    match dev.rxThread with
    | none => none
    | some id => some ({ dev with rxThreads := kthreadStop id dev.rxThreads }, .goto (.waitRx id))
  | .waitRx id =>
    if id ∈ dev.rxThreads.map (·.id) then none
    else some ({ dev with rxThread := none }, .goto .sockRelease)
  | .sockRelease =>
    match dev.sock with
    | none => none
    | some id => some ({ dev with sockets := dev.sockets.erase id }, .goto .clearSock)
  | .clearSock => some ({ dev with sock := none }, .ret false)

/-- A position in `vpci_net_disconnect`. Each pointer is read by its check and again by its use. -/
inductive DisconnectPc where
  | timerDelete
  | checkTx
  | stopTx
  | waitTx (id : ℕ)
  | checkRx
  | stopRx
  | waitRx (id : ℕ)
  | checkSock
  | sockRelease
  | clearSock
  | clearConnected
  deriving DecidableEq

/-- The next statement of `vpci_net_disconnect`. -/
def vpciNetDisconnect (dev : Connection) : DisconnectPc → Option (Connection × Outcome DisconnectPc)
  | .timerDelete => some (dev, .goto .checkTx)
  | .checkTx => some (dev, .goto (if dev.txThread.isSome then .stopTx else .checkRx))
  | .stopTx =>
    match dev.txThread with
    | none => none
    | some id => some ({ dev with txThreads := kthreadStop id dev.txThreads }, .goto (.waitTx id))
  | .waitTx id =>
    if id ∈ dev.txThreads.map (·.id) then none
    else some ({ dev with txThread := none }, .goto .checkRx)
  | .checkRx => some (dev, .goto (if dev.rxThread.isSome then .stopRx else .checkSock))
  | .stopRx =>
    match dev.rxThread with
    | none => none
    | some id => some ({ dev with rxThreads := kthreadStop id dev.rxThreads }, .goto (.waitRx id))
  | .waitRx id =>
    if id ∈ dev.rxThreads.map (·.id) then none
    else some ({ dev with rxThread := none }, .goto .checkSock)
  | .checkSock => some (dev, .goto (if dev.sock.isSome then .sockRelease else .clearConnected))
  | .sockRelease =>
    match dev.sock with
    | none => none
    | some id => some ({ dev with sockets := dev.sockets.erase id }, .goto .clearSock)
  | .clearSock => some ({ dev with sock := none }, .goto .clearConnected)
  | .clearConnected => some ({ dev with connected := false }, .ret true)

/-- Who makes a call. -/
inductive Caller where
  | ioctl
  | work
  | rxThread (id : ℕ)
  deriving DecidableEq

/-- A position of a caller: inside one of the two functions, at the loop test of
`vpci_reconnect_work`, at the assignment after the disconnect of `vpci_ioctl`, at the end of the
receive thread, or past its end. -/
inductive Pc where
  | connect (pc : ConnectPc)
  | disconnect (pc : DisconnectPc)
  | workTest
  | roleNone
  | rxEnd
  | finished
  deriving DecidableEq

/-- A call of `vpci_net_connect` or `vpci_net_disconnect` is in progress here. -/
def Pc.InProgress : Pc → Prop
  | .connect _ => True
  | .disconnect _ => True
  | _ => False

instance (pc : Pc) : Decidable pc.InProgress := by
  cases pc <;> unfold Pc.InProgress <;> infer_instance

/-- A caller and where it is. -/
structure Call where
  caller : Caller
  pc : Pc
  deriving DecidableEq

/-- The device with the calls that were made; `fresh` is the next name of a socket or a thread. -/
structure VpciState where
  dev : Connection
  role : VpciRole
  fresh : ℕ
  calls : List Call
  deriving DecidableEq

/-- Where `vpci_net_connect` returns to: the work retries after a failure. -/
def connectReturn (caller : Caller) (ok : Bool) : Pc :=
  if caller = .work ∧ ok = false then .workTest else .finished

/-- Where `vpci_net_disconnect` returns to. -/
def disconnectReturn : Caller → Pc
  | .ioctl => .roleNone
  | .work => .finished
  | .rxThread _ => .rxEnd

/-- Where a call goes on after a statement. -/
def Outcome.pc {π : Type} (goto : π → Pc) (ret : Bool → Pc) : Outcome π → Pc
  | .goto pc => goto pc
  | .ret ok => ret ok

/-- The next statement of a call: the device and the position after it. -/
def callStep (dev : Connection) (fresh : ℕ) (ok : Bool) (call : Call) : Option (Connection × Pc) :=
  match call.pc with
  | .connect pc => (vpciNetConnect dev fresh ok pc).map fun r =>
      (r.1, r.2.pc .connect (connectReturn call.caller))
  | .disconnect pc => (vpciNetDisconnect dev pc).map fun r =>
      (r.1, r.2.pc .disconnect fun _ => disconnectReturn call.caller)
  | .workTest => some (dev, if dev.connected then .finished else .connect .sockCreate)
  | .roleNone => some (dev, .finished)
  | .rxEnd =>
    match call.caller with
    -- `schedule_work`, and then the thread returns.
    | .rxThread id => some ({ dev with rxThreads := dev.rxThreads.filter (·.id ≠ id) }, .finished)
    | _ => none
  | .finished => none

/-- The commands of `vpci_ioctl` that reach the connection. -/
inductive VpciCmd where
  | connect
  | disconnect
  | setRole (arg : ℕ)

/-- `vpci_ioctl` up to the call it makes, if any. -/
def vpciIoctl (s : VpciState) : VpciCmd → VpciState
  | .connect => { s with role := .rc, calls := s.calls ++ [⟨.ioctl, .connect .sockCreate⟩] }
  | .disconnect => { s with calls := s.calls ++ [⟨.ioctl, .disconnect .timerDelete⟩] }
  | .setRole arg => { s with role := if arg = vpciRoleEp then .ep else s.role }

/-- A step: an ioctl, the start of the work, an error or the end of the stream in a receive thread,
the next statement of a call, or the return of a thread that was asked to stop. -/
inductive VpciStep where
  | ioctl (cmd : VpciCmd)
  | work
  | rxFail (id : ℕ)
  | advance (k : ℕ) (ok : Bool)
  | rxReturn (id : ℕ)
  | txReturn (id : ℕ)

/-- The thread is inside the handling of its own error. -/
def VpciState.Handles (s : VpciState) (id : ℕ) : Prop := ∃ c ∈ s.calls, c.caller = .rxThread id

instance (s : VpciState) (id : ℕ) : Decidable (s.Handles id) := by
  unfold VpciState.Handles
  infer_instance

/-- The assignment of `vpci_ioctl` after a disconnect. -/
def roleAfter (role : VpciRole) : Pc → VpciRole
  | .roleNone => .none
  | _ => role

/-- The interleavings. The work may start whenever it is not running, as if it were scheduled at all
times. -/
def connectionMachine : Machine VpciState VpciStep where
  step s label := match label with
    | .ioctl cmd => some (vpciIoctl s cmd)
    | .work =>
      if ∃ c ∈ s.calls, c.caller = .work ∧ c.pc ≠ .finished then none
      else some { s with calls := s.calls ++ [⟨.work, .workTest⟩] }
    | .rxFail id =>
      if id ∈ s.dev.rxThreads.map (·.id) ∧ ¬ s.Handles id then
        some { s with calls := s.calls ++ [⟨.rxThread id, .disconnect .timerDelete⟩] }
      else none
    | .advance k ok =>
      match s.calls[k]? with
      | none => none
      | some call => (callStep s.dev s.fresh ok call).map fun r =>
          { s with
            dev := r.1
            role := roleAfter s.role call.pc
            fresh := s.fresh + 1
            calls := s.calls.set k { call with pc := r.2 } }
    | .rxReturn id =>
      if ⟨id, true⟩ ∈ s.dev.rxThreads ∧ ¬ s.Handles id then
        some { s with
          dev := { s.dev with rxThreads := s.dev.rxThreads.filter (·.id ≠ id) } }
      else none
    | .txReturn id =>
      if ⟨id, true⟩ ∈ s.dev.txThreads then
        some { s with
          dev := { s.dev with txThreads := s.dev.txThreads.filter (·.id ≠ id) } }
      else none

/-- No call is inside `vpci_net_connect` or `vpci_net_disconnect`. -/
def Quiescent (s : VpciState) : Prop := ∀ c ∈ s.calls, ¬ c.pc.InProgress

instance (s : VpciState) : Decidable (Quiescent s) := by
  unfold Quiescent
  infer_instance

/-- `vpci_device_init`. -/
def vpciDeviceInit : VpciState where
  dev := ⟨false, none, none, none, [], [], []⟩
  role := .none
  fresh := 0
  calls := []

end LinuxFunctionTest.VirtualPcie
