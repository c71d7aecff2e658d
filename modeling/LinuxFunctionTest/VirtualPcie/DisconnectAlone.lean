import LinuxFunctionTest.VirtualPcie.Connection
import LinuxFunctionTest.VirtualPcie.DeviceExit

/-!
# A disconnect that nothing overtakes

A call of `vpci_net_disconnect` has a run, through all its statements and with the threads that it stops
returning in between, to where the call as a whole leaves the device.
-/

namespace LinuxFunctionTest.VirtualPcie

/-- The connection is as the device has it; the names of its threads are the same. -/
structure Mirrors (dev : VpciHoldings) (conn : Connection) : Prop where
  connected : conn.connected = dev.connected
  sock : conn.sock.isSome = dev.sock
  rxThread : conn.rxThread = dev.rxThread
  txThread : conn.txThread = dev.txThread
  rxThreads : conn.rxThreads.map (·.id) = dev.rxThreads
  txThreads : conn.txThreads.map (·.id) = dev.txThreads

/-- A run from `s` takes call `k` of the caller to a position, with no other call moving. -/
def Gets (s : VpciState) (k : ℕ) (caller : Caller) (conn : Connection) (pc : Pc) : Prop :=
  ∃ labels t, connectionMachine.run s labels = some t ∧ t.dev = conn ∧ t.calls = s.calls.set k ⟨caller, pc⟩

section Alone

variable {s : VpciState} {k : ℕ} {caller : Caller} {conn : Connection} {pc : Pc}

/-- A run goes on with a step. -/
theorem Gets.step (h : Gets s k caller conn pc) {conn' : Connection} {pc' : Pc} (label : VpciStep)
    (hs : ∀ t : VpciState, t.dev = conn → t.calls = s.calls.set k ⟨caller, pc⟩ →
      ∃ u, connectionMachine.step t label = some u ∧ u.dev = conn' ∧
        u.calls = s.calls.set k ⟨caller, pc'⟩) : Gets s k caller conn' pc' := by
  obtain ⟨labels, t, hrun, hdev, hcalls⟩ := h
  obtain ⟨u, hu, hdev', hcalls'⟩ := hs t hdev hcalls
  refine ⟨labels ++ [label], u, ?_, hdev', hcalls'⟩
  rw [connectionMachine.run_append, hrun, Option.bind_some, connectionMachine.run_cons_of_step hu]
  rfl

/-- The next statement of the call. -/
theorem Gets.statement (hk : k < s.calls.length) {pc : DisconnectPc}
    (h : Gets s k caller conn (.disconnect pc)) {conn' : Connection} {out : Outcome DisconnectPc}
    (hs : vpciNetDisconnect conn pc = some (conn', out)) :
    Gets s k caller conn' (out.pc .disconnect fun _ => disconnectReturn caller) := by
  refine h.step (.advance k true) fun t hdev hcalls => ?_
  have hcall : t.calls[k]? = some ⟨caller, .disconnect pc⟩ := by rw [hcalls, List.getElem?_set_self hk]
  refine ⟨⟨conn', roleAfter t.role (.disconnect pc), t.fresh + 1,
    t.calls.set k ⟨caller, out.pc .disconnect fun _ => disconnectReturn caller⟩⟩, ?_, rfl, ?_⟩
  · simp [connectionMachine, hcall, callStep, hdev, hs]
  · rw [hcalls, List.set_set]

/-- Who handles its own error does not change. -/
theorem handles_of_set {t : VpciState} (hcalls : t.calls = s.calls.set k ⟨caller, pc⟩)
    (hk : ∃ pc, s.calls[k]? = some ⟨caller, pc⟩) {id : ℕ} (h : t.Handles id) : s.Handles id := by
  obtain ⟨c, hc, hid⟩ := h
  rw [hcalls] at hc
  rcases List.mem_or_eq_of_mem_set hc with hc | rfl
  · exact ⟨c, hc, hid⟩
  · obtain ⟨pc, hpc⟩ := hk
    exact ⟨_, List.mem_of_getElem? hpc, hid⟩

/-- A thread that was asked to stop. -/
theorem kthreadStop_mem {id : ℕ} {threads : List KThread} (h : id ∈ threads.map (·.id)) :
    ⟨id, true⟩ ∈ kthreadStop id threads := by
  obtain ⟨t, ht, rfl⟩ := List.mem_map.mp h
  exact List.mem_map.mpr ⟨t, ht, by simp⟩

/-- The names that are left when the thread that was asked to stop has returned. -/
theorem kthreadStop_filter_ids (id : ℕ) (threads : List KThread) :
    ((kthreadStop id threads).filter (·.id ≠ id)).map (·.id) =
      (threads.map (·.id)).filter fun i => some id ≠ some i := by
  rw [← kthreadStop_ids id threads, List.filter_map]
  refine congrArg _ (List.filter_congr fun t _ => ?_)
  simp [eq_comm]

/-- Nobody is left out when the thread does not exist. -/
theorem kthreadStop_filter_self {id : ℕ} {threads : List KThread} (h : id ∉ threads.map (·.id)) :
    (kthreadStop id threads).filter (·.id ≠ id) = kthreadStop id threads := by
  refine List.filter_eq_self.mpr fun t ht => decide_eq_true fun hid => h ?_
  rw [← kthreadStop_ids id threads]
  exact List.mem_map.mpr ⟨t, ht, hid⟩

/-- The transmit thread that the field names is stopped and returns. -/
theorem Gets.stopTx (hk : k < s.calls.length) (h : Gets s k caller conn (.disconnect .checkTx)) :
    ∃ threads : List KThread,
      Gets s k caller { conn with txThread := none, txThreads := threads } (.disconnect .checkRx) ∧
        threads.map (·.id) = (conn.txThreads.map (·.id)).filter fun id => conn.txThread ≠ some id := by
  cases htx : conn.txThread with
  | none =>
    refine ⟨conn.txThreads, ?_, by simp⟩
    have hnext := h.statement hk rfl
    rw [htx] at hnext
    rw [← htx]
    exact hnext
  | some id =>
    refine ⟨(kthreadStop id conn.txThreads).filter (·.id ≠ id), ?_, kthreadStop_filter_ids id conn.txThreads⟩
    have hstop : Gets s k caller conn (.disconnect .stopTx) := by
      have hnext := h.statement hk rfl
      rw [htx] at hnext
      exact hnext
    have hasks : vpciNetDisconnect conn .stopTx =
        some ({ conn with txThreads := kthreadStop id conn.txThreads }, .goto (.waitTx id)) := by
      simp [vpciNetDisconnect, htx]
    have hwait := hstop.statement hk hasks
    have hgone : Gets s k caller
        { conn with txThreads := (kthreadStop id conn.txThreads).filter (·.id ≠ id) }
        (.disconnect (.waitTx id)) := by
      by_cases hid : id ∈ conn.txThreads.map (·.id)
      · refine hwait.step (.txReturn id) fun t hdev hcalls =>
          ⟨{ t with dev := { t.dev with txThreads := t.dev.txThreads.filter (·.id ≠ id) } }, ?_, ?_, hcalls⟩
        · have hasked : ⟨id, true⟩ ∈ t.dev.txThreads := by
            rw [hdev]
            exact kthreadStop_mem hid
          exact if_pos hasked
        · rw [hdev]
      · rw [kthreadStop_filter_self hid]
        exact hwait
    exact hgone.statement hk (if_neg (by simp))

/-- The receive thread that the field names is stopped and returns, if it does not handle its own error. -/
theorem Gets.stopRx (hk : ∃ pc, s.calls[k]? = some ⟨caller, pc⟩)
    (hidle : ∀ id, conn.rxThread = some id → ¬ s.Handles id)
    (h : Gets s k caller conn (.disconnect .checkRx)) :
    ∃ threads : List KThread,
      Gets s k caller { conn with rxThread := none, rxThreads := threads } (.disconnect .checkSock) ∧
        threads.map (·.id) = (conn.rxThreads.map (·.id)).filter fun id => conn.rxThread ≠ some id := by
  have hlt : k < s.calls.length := (List.getElem?_eq_some_iff.mp hk.choose_spec).1
  cases hrx : conn.rxThread with
  | none =>
    refine ⟨conn.rxThreads, ?_, by simp⟩
    have hnext := h.statement hlt rfl
    rw [hrx] at hnext
    rw [← hrx]
    exact hnext
  | some id =>
    refine ⟨(kthreadStop id conn.rxThreads).filter (·.id ≠ id), ?_, kthreadStop_filter_ids id conn.rxThreads⟩
    have hstop : Gets s k caller conn (.disconnect .stopRx) := by
      have hnext := h.statement hlt rfl
      rw [hrx] at hnext
      exact hnext
    have hasks : vpciNetDisconnect conn .stopRx =
        some ({ conn with rxThreads := kthreadStop id conn.rxThreads }, .goto (.waitRx id)) := by
      simp [vpciNetDisconnect, hrx]
    have hwait := hstop.statement hlt hasks
    have hgone : Gets s k caller
        { conn with rxThreads := (kthreadStop id conn.rxThreads).filter (·.id ≠ id) }
        (.disconnect (.waitRx id)) := by
      by_cases hid : id ∈ conn.rxThreads.map (·.id)
      · refine hwait.step (.rxReturn id) fun t hdev hcalls =>
          ⟨{ t with dev := { t.dev with rxThreads := t.dev.rxThreads.filter (·.id ≠ id) } }, ?_, ?_, hcalls⟩
        · have hasked : ⟨id, true⟩ ∈ t.dev.rxThreads := by
            rw [hdev]
            exact kthreadStop_mem hid
          exact if_pos ⟨hasked, fun hhandles => hidle id hrx (handles_of_set hcalls hk hhandles)⟩
        · rw [hdev]
      · rw [kthreadStop_filter_self hid]
        exact hwait
    exact hgone.statement hlt (if_neg (by simp))

/-- The socket is released and the flag cleared. -/
theorem Gets.finish (hk : k < s.calls.length) (h : Gets s k caller conn (.disconnect .checkSock)) :
    ∃ sockets : List ℕ,
      Gets s k caller { conn with sock := none, sockets := sockets, connected := false }
        (disconnectReturn caller) := by
  cases hsock : conn.sock with
  | none =>
    have hnext := h.statement hk rfl
    rw [hsock] at hnext
    have hdone := Gets.statement hk hnext rfl
    exact ⟨conn.sockets, by rw [← hsock]; exact hdone⟩
  | some id =>
    have hrelease : Gets s k caller conn (.disconnect .sockRelease) := by
      have hnext := h.statement hk rfl
      rw [hsock] at hnext
      exact hnext
    have hreleases : vpciNetDisconnect conn .sockRelease =
        some ({ conn with sockets := conn.sockets.erase id }, .goto .clearSock) := by
      simp [vpciNetDisconnect, hsock]
    have hflag := Gets.statement hk (hrelease.statement hk hreleases) rfl
    exact ⟨conn.sockets.erase id, Gets.statement hk hflag rfl⟩

end Alone

/-- A disconnect that returns, of a device that the connection mirrors, has a run of its statements to a connection
that mirrors what it leaves, unless the receive thread it stops handles its own error. -/
theorem vpciNetDisconnect_alone {s : VpciState} {k : ℕ} {caller : Caller}
    (hk : s.calls[k]? = some ⟨caller, .disconnect .timerDelete⟩)
    (hidle : ∀ id, s.dev.rxThread = some id → ¬ s.Handles id) {dev dev' : VpciHoldings}
    (hm : Mirrors dev s.dev) {self : Option ℕ} {during : Meanwhile}
    (h : dev.vpciNetDisconnect self during = (dev', true)) :
    ∃ conn, Mirrors dev' conn ∧ Gets s k caller conn (disconnectReturn caller) := by
  have hlt : k < s.calls.length := (List.getElem?_eq_some_iff.mp hk).1
  have hstart : Gets s k caller s.dev (.disconnect .timerDelete) := by
    refine ⟨[], s, rfl, rfl, ?_⟩
    obtain ⟨hlt, hcall⟩ := List.getElem?_eq_some_iff.mp hk
    rw [← hcall, List.set_getElem_self]
  have htimer : Gets s k caller s.dev (.disconnect .checkTx) := hstart.statement hlt rfl
  obtain ⟨txThreads, htx, htxIds⟩ := htimer.stopTx hlt
  obtain ⟨rxThreads, hrx, hrxIds⟩ := Gets.stopRx ⟨_, hk⟩ (by exact hidle) htx
  obtain ⟨sockets, hdone⟩ := hrx.finish hlt
  refine ⟨_, ?_, hdone⟩
  obtain ⟨packets, fresh, rfl⟩ := VpciHoldings.vpciNetDisconnect_returns h
  exact
    { connected := rfl
      sock := rfl
      rxThread := rfl
      txThread := rfl
      rxThreads := by rw [← hm.rxThreads, ← hm.rxThread]; exact hrxIds
      txThreads := by rw [← hm.txThreads, ← hm.txThread]; exact htxIds }

end LinuxFunctionTest.VirtualPcie
