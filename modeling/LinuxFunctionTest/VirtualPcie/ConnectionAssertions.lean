import LinuxFunctionTest.VirtualPcie.Connection
import Mathlib.Data.List.Basic

/-!
# Assertions for the connection functions

What holds of the device at each position of `vpci_net_connect` and `vpci_net_disconnect`: of a connect
that is alone, and of a disconnect that no connect runs into. Each statement reaches the next
assertion, and what a disconnect gives up leaves the assertions of other disconnects in force. A
receive thread that handles its own error waits in `kthread_stop` for itself, so it never gets as
far as the socket.
-/

namespace LinuxFunctionTest.VirtualPcie

/-- The call has created a socket. -/
def Pc.Building : Pc → Prop
  | .connect pc => pc ≠ .sockCreate
  | _ => False

/-- The call has begun to read what it takes down. -/
def Pc.Dismantling : Pc → Prop
  | .disconnect pc => pc ≠ .timerDelete
  | _ => False

/-- The call may change the connection, or has seen a part of it. -/
def Pc.Active (pc : Pc) : Prop := pc.Building ∨ pc.Dismantling

instance (pc : Pc) : Decidable pc.Building :=
  match pc with
  | .connect pc => inferInstanceAs (Decidable (pc ≠ .sockCreate))
  | .disconnect _ | .workTest | .roleNone | .rxEnd | .finished => isFalse id

instance (pc : Pc) : Decidable pc.Dismantling :=
  match pc with
  | .disconnect pc => inferInstanceAs (Decidable (pc ≠ .timerDelete))
  | .connect _ | .workTest | .roleNone | .rxEnd | .finished => isFalse id

instance (pc : Pc) : Decidable pc.Active := by unfold Pc.Active; infer_instance

/-- A connect that is active is the only active call. -/
def Apart (c d : Call) : Prop :=
  ¬ (c.pc.Building ∧ d.pc.Active) ∧ ¬ (d.pc.Building ∧ c.pc.Active)

/-- The device without a connection. -/
def Down (dev : Connection) : Prop := dev = ⟨false, none, none, none, [], [], []⟩

/-- The device without a connection, or with a complete one whose threads run. -/
def Settled (dev : Connection) : Prop :=
  Down dev ∨ ∃ s r t,
    dev = ⟨true, some s, some r, some t, [s], [⟨r, false⟩], [⟨t, false⟩]⟩

/-- What exists is what the device points to. -/
structure Held (dev : Connection) : Prop where
  sock : dev.sockets = [] ∨ ∃ s, dev.sock = some s ∧ dev.sockets = [s]
  rx : dev.rxThreads = [] ∨ ∃ t, dev.rxThread = some t.id ∧ dev.rxThreads = [t]
  tx : dev.txThreads = [] ∨ ∃ t, dev.txThread = some t.id ∧ dev.txThreads = [t]

/-- The device at a position of a connect that is alone. -/
def ConnectPc.Holds (dev : Connection) : ConnectPc → Prop
  | .sockCreate => True
  | .kernelConnect => ∃ s, dev = ⟨false, some s, none, none, [s], [], []⟩
  | .runRx => ∃ s, dev = ⟨false, some s, none, none, [s], [], []⟩
  | .storeRx r => ∃ s, dev = ⟨false, some s, none, none, [s], [⟨r, false⟩], []⟩
  | .runTx => ∃ s r, dev = ⟨false, some s, some r, none, [s], [⟨r, false⟩], []⟩
  | .storeTx t => ∃ s r, dev = ⟨false, some s, some r, none, [s], [⟨r, false⟩], [⟨t, false⟩]⟩
  | .setConnected => ∃ s r t,
      dev = ⟨false, some s, some r, some t, [s], [⟨r, false⟩], [⟨t, false⟩]⟩
  | .stopRx => ∃ s r, dev = ⟨false, some s, some r, none, [s], [⟨r, false⟩], []⟩
  | .waitRx r => ∃ s rxThreads, dev = ⟨false, some s, some r, none, [s], rxThreads, []⟩ ∧
      (rxThreads = [] ∨ rxThreads = [⟨r, true⟩])
  | .sockRelease => ∃ s, dev = ⟨false, some s, none, none, [s], [], []⟩
  | .clearSock => ∃ s, dev = ⟨false, some s, none, none, [], [], []⟩

/-- The device at a position of a disconnect that no connect runs into. -/
def DisconnectPc.Holds (dev : Connection) : DisconnectPc → Prop
  | .timerDelete => True
  | .checkTx => Held dev
  | .stopTx => Held dev
  | .waitTx t => Held dev ∧ (dev.txThread = none ∨ dev.txThread = some t)
  | .checkRx => Held dev ∧ dev.txThread = none
  | .stopRx => Held dev ∧ dev.txThread = none
  | .waitRx r => Held dev ∧ dev.txThread = none ∧ (dev.rxThread = none ∨ dev.rxThread = some r)
  | .checkSock => Held dev ∧ dev.txThread = none ∧ dev.rxThread = none
  | .sockRelease => Held dev ∧ dev.txThread = none ∧ dev.rxThread = none
  | .clearSock => Held dev ∧ dev.txThread = none ∧ dev.rxThread = none ∧ dev.sockets = []
  | .clearConnected => Held dev ∧ dev.txThread = none ∧ dev.rxThread = none ∧ dev.sock = none

/-- The device at a position of a call. -/
def Pc.Holds (dev : Connection) : Pc → Prop
  | .connect pc => pc.Holds dev
  | .disconnect pc => pc.Holds dev
  | _ => True

/-- The disconnect has not stopped the receive thread yet. -/
def Pc.BeforeRxGone : Pc → Prop
  | .disconnect .timerDelete => True
  | .disconnect .checkTx => True
  | .disconnect .stopTx => True
  | .disconnect (.waitTx _) => True
  | .disconnect .checkRx => True
  | .disconnect .stopRx => True
  | .disconnect (.waitRx _) => True
  | _ => False

/-- The thread exists. -/
def RxLive (dev : Connection) (id : ℕ) : Prop := id ∈ dev.rxThreads.map (·.id)

/-- The assertion of a call: the one of its position, and if the receive thread makes it, that the
thread still exists and has not stopped itself. -/
structure CallHolds (dev : Connection) (c : Call) : Prop where
  pc : c.pc.Holds dev
  own : ∀ id, c.caller = .rxThread id → RxLive dev id ∧ c.pc.BeforeRxGone

/-- What a settled device holds is what it points to. -/
theorem Settled.held {dev : Connection} (h : Settled dev) : Held dev := by
  rcases h with rfl | ⟨s, r, t, rfl⟩
  · exact ⟨Or.inl rfl, Or.inl rfl, Or.inl rfl⟩
  · exact ⟨Or.inr ⟨_, rfl, rfl⟩, Or.inr ⟨⟨r, false⟩, rfl, rfl⟩, Or.inr ⟨⟨t, false⟩, rfl, rfl⟩⟩

/-- A change that gives up parts of the connection and loses track of none. -/
structure Sheds (dev dev' : Connection) : Prop where
  held : Held dev'
  sock : dev'.sock = dev.sock ∨ dev'.sock = none
  rx : dev'.rxThread = dev.rxThread ∨ dev'.rxThread = none
  tx : dev'.txThread = dev.txThread ∨ dev'.txThread = none
  sockets : dev.sockets = [] → dev'.sockets = []

/-- The assertions of a disconnect survive what other disconnects and returning threads do. -/
theorem DisconnectPc.Holds.sheds {dev dev' : Connection} {pc : DisconnectPc} (h : pc.Holds dev)
    (hs : Sheds dev dev') : pc.Holds dev' := by
  have htx : dev.txThread = none → dev'.txThread = none := by
    intro hnone
    rcases hs.tx with heq | heq
    · rw [heq, hnone]
    · exact heq
  have hrx : dev.rxThread = none → dev'.rxThread = none := by
    intro hnone
    rcases hs.rx with heq | heq
    · rw [heq, hnone]
    · exact heq
  have hsock : dev.sock = none → dev'.sock = none := by
    intro hnone
    rcases hs.sock with heq | heq
    · rw [heq, hnone]
    · exact heq
  cases pc with
  | timerDelete => trivial
  | checkTx => exact hs.held
  | stopTx => exact hs.held
  | waitTx t =>
    refine ⟨hs.held, ?_⟩
    rcases hs.tx with heq | heq
    · rw [heq]
      exact h.2
    · exact Or.inl heq
  | checkRx => exact ⟨hs.held, htx h.2⟩
  | stopRx => exact ⟨hs.held, htx h.2⟩
  | waitRx r =>
    refine ⟨hs.held, htx h.2.1, ?_⟩
    rcases hs.rx with heq | heq
    · rw [heq]
      exact h.2.2
    · exact Or.inl heq
  | checkSock => exact ⟨hs.held, htx h.2.1, hrx h.2.2⟩
  | sockRelease => exact ⟨hs.held, htx h.2.1, hrx h.2.2⟩
  | clearSock => exact ⟨hs.held, htx h.2.1, hrx h.2.2.1, hs.sockets h.2.2.2⟩
  | clearConnected => exact ⟨hs.held, htx h.2.1, hrx h.2.2.1, hsock h.2.2.2⟩

/-- A thread that was asked to stop is still the one that is pointed to. -/
theorem held_kthreadStop {ptr : Option ℕ} {threads : List KThread} (id : ℕ)
    (h : threads = [] ∨ ∃ t, ptr = some t.id ∧ threads = [t]) :
    kthreadStop id threads = [] ∨ ∃ t, ptr = some t.id ∧ kthreadStop id threads = [t] := by
  rcases h with rfl | ⟨t, rfl, rfl⟩
  · exact Or.inl rfl
  · refine Or.inr ⟨if t.id = id then { t with shouldStop := true } else t, ?_, rfl⟩
    split_ifs <;> rfl

/-- A returned thread leaves what is pointed to. -/
theorem held_filter {ptr : Option ℕ} {threads : List KThread} (id : ℕ)
    (h : threads = [] ∨ ∃ t, ptr = some t.id ∧ threads = [t]) :
    threads.filter (·.id ≠ id) = [] ∨
      ∃ t, ptr = some t.id ∧ threads.filter (·.id ≠ id) = [t] := by
  rcases h with rfl | ⟨t, rfl, rfl⟩
  · exact Or.inl rfl
  · by_cases hid : t.id = id
    · exact Or.inl (by simp [hid])
    · exact Or.inr ⟨t, rfl, by simp [hid]⟩

/-- A pointer that may be cleared once its thread is gone: nothing is left that it pointed to. -/
theorem gone_of_held {ptr : Option ℕ} {threads : List KThread} {id : ℕ}
    (h : threads = [] ∨ ∃ t, ptr = some t.id ∧ threads = [t]) (hptr : ptr = none ∨ ptr = some id)
    (hgone : id ∉ threads.map (·.id)) : threads = [] := by
  rcases h with rfl | ⟨t, rfl, rfl⟩
  · rfl
  · rcases hptr with hptr | hptr
    · exact absurd hptr (by simp)
    · obtain rfl := Option.some.inj hptr
      exact absurd hgone (by simp)

/-- What a statement establishes: one thing where it goes on, another where it returns. -/
@[reducible] def Outcome.Meets {π : Type} (goto : π → Prop) (ret : Prop) : Outcome π → Prop
  | .goto pc => goto pc
  | .ret _ => ret

/-- A statement of a connect that is alone reaches the next assertion, and its return leaves the
device settled. It stops no receive thread that handles its own error. -/
theorem vpciNetConnect_spec {dev dev' : Connection} {fresh : ℕ} {ok : Bool} {pc : ConnectPc}
    {out : Outcome ConnectPc} (h : pc.Holds dev) (hpc : pc ≠ .sockCreate)
    (hs : vpciNetConnect dev fresh ok pc = some (dev', out)) :
    (∀ id, RxLive dev id → RxLive dev' id) ∧
      out.Meets (fun pc' => pc' ≠ .sockCreate ∧ pc'.Holds dev') (Settled dev') := by
  cases pc with
  | sockCreate => exact absurd rfl hpc
  | kernelConnect =>
    obtain ⟨s, rfl⟩ := h
    obtain ⟨rfl, rfl⟩ := Prod.mk.inj (Option.some.inj hs)
    refine ⟨fun _ => id, ?_⟩
    cases ok
    · exact ⟨by simp, s, rfl⟩
    · exact ⟨by simp, s, rfl⟩
  | runRx =>
    obtain ⟨s, rfl⟩ := h
    cases ok with
    | false =>
      obtain ⟨rfl, rfl⟩ := Prod.mk.inj (Option.some.inj hs)
      exact ⟨fun _ => id, by simp, s, rfl⟩
    | true =>
      obtain ⟨rfl, rfl⟩ := Prod.mk.inj (Option.some.inj hs)
      exact ⟨fun _ => List.mem_cons_of_mem _, by simp, s, rfl⟩
  | storeRx r =>
    obtain ⟨s, rfl⟩ := h
    obtain ⟨rfl, rfl⟩ := Prod.mk.inj (Option.some.inj hs)
    exact ⟨fun _ => id, by simp, s, r, rfl⟩
  | runTx =>
    obtain ⟨s, r, rfl⟩ := h
    cases ok with
    | false =>
      obtain ⟨rfl, rfl⟩ := Prod.mk.inj (Option.some.inj hs)
      exact ⟨fun _ => id, by simp, s, r, rfl⟩
    | true =>
      obtain ⟨rfl, rfl⟩ := Prod.mk.inj (Option.some.inj hs)
      exact ⟨fun _ => id, by simp, s, r, rfl⟩
  | storeTx t =>
    obtain ⟨s, r, rfl⟩ := h
    obtain ⟨rfl, rfl⟩ := Prod.mk.inj (Option.some.inj hs)
    exact ⟨fun _ => id, by simp, s, r, t, rfl⟩
  | setConnected =>
    obtain ⟨s, r, t, rfl⟩ := h
    obtain ⟨rfl, rfl⟩ := Prod.mk.inj (Option.some.inj hs)
    exact ⟨fun _ => id, Or.inr ⟨s, r, t, rfl⟩⟩
  | stopRx =>
    obtain ⟨s, r, rfl⟩ := h
    obtain ⟨rfl, rfl⟩ := Prod.mk.inj (Option.some.inj hs)
    exact ⟨fun id hid => by simpa [RxLive] using hid, by simp, s, [⟨r, true⟩],
      by simp [kthreadStop], Or.inr rfl⟩
  | waitRx r =>
    obtain ⟨s, rxThreads, rfl, hthreads⟩ := h
    simp only [vpciNetConnect, Option.ite_none_left_eq_some, Option.some.injEq] at hs
    obtain ⟨hgone, hs⟩ := hs
    obtain ⟨rfl, rfl⟩ := Prod.mk.inj hs
    rcases hthreads with rfl | rfl
    · exact ⟨fun _ => id, by simp, s, rfl⟩
    · exact absurd hgone (by simp)
  | sockRelease =>
    obtain ⟨s, rfl⟩ := h
    obtain ⟨rfl, rfl⟩ := Prod.mk.inj (Option.some.inj hs)
    exact ⟨fun _ => id, by simp, s, by simp⟩
  | clearSock =>
    obtain ⟨s, rfl⟩ := h
    obtain ⟨rfl, rfl⟩ := Prod.mk.inj (Option.some.inj hs)
    exact ⟨fun _ => id, Or.inl rfl⟩

/-- Where nothing is pointed to, nothing exists. -/
theorem Held.down {dev : Connection} (h : Held dev) (htx : dev.txThread = none)
    (hrx : dev.rxThread = none) (hsock : dev.sock = none) :
    Down { dev with connected := false } := by
  have hsockets : dev.sockets = [] := by simpa [hsock] using h.sock
  have hrxThreads : dev.rxThreads = [] := by simpa [hrx] using h.rx
  have htxThreads : dev.txThreads = [] := by simpa [htx] using h.tx
  rw [Down, hsockets, hrxThreads, htxThreads, htx, hrx, hsock]

/-- A statement that only reads sheds nothing. -/
theorem Held.sheds_self {dev : Connection} (h : Held dev) : Sheds dev dev :=
  ⟨h, Or.inl rfl, Or.inl rfl, Or.inl rfl, id⟩

/-- What an active position of a disconnect knows at least. -/
theorem DisconnectPc.Holds.held {dev : Connection} {pc : DisconnectPc} (h : pc.Holds dev)
    (hpc : pc ≠ .timerDelete) : Held dev := by
  cases pc with
  | timerDelete => exact absurd rfl hpc
  | checkTx => exact h
  | stopTx => exact h
  | waitTx t => exact h.1
  | checkRx => exact h.1
  | stopRx => exact h.1
  | waitRx r => exact h.1
  | checkSock => exact h.1
  | sockRelease => exact h.1
  | clearSock => exact h.1
  | clearConnected => exact h.1

/-- A statement of a disconnect that no connect runs into gives up parts of the connection, reaches
the next assertion and frees no thread, and its return leaves the device without a connection. -/
theorem vpciNetDisconnect_spec {dev dev' : Connection} {pc : DisconnectPc}
    {out : Outcome DisconnectPc} (h : pc.Holds dev) (hpc : pc ≠ .timerDelete)
    (hs : vpciNetDisconnect dev pc = some (dev', out)) :
    Sheds dev dev' ∧ (∀ id, RxLive dev id → RxLive dev' id) ∧
      out.Meets (fun pc' => pc' ≠ .timerDelete ∧ pc'.Holds dev') (Down dev') := by
  have hheld := h.held hpc
  cases pc with
  | timerDelete => exact absurd rfl hpc
  | checkTx =>
    obtain ⟨rfl, rfl⟩ := Prod.mk.inj (Option.some.inj hs)
    refine ⟨hheld.sheds_self, fun _ => id, ?_⟩
    cases htx : dev.txThread with
    | none => exact ⟨by simp, hheld, htx⟩
    | some t => exact ⟨by simp, hheld⟩
  | stopTx =>
    simp only [vpciNetDisconnect] at hs
    split at hs
    · exact absurd hs (by simp)
    · next t htx =>
      obtain ⟨rfl, rfl⟩ := Prod.mk.inj (Option.some.inj hs)
      have hheld' : Held { dev with txThreads := kthreadStop t dev.txThreads } :=
        ⟨hheld.sock, hheld.rx, held_kthreadStop t hheld.tx⟩
      exact ⟨⟨hheld', Or.inl rfl, Or.inl rfl, Or.inl rfl, id⟩, fun _ => id, by simp, hheld',
        Or.inr htx⟩
  | waitTx t =>
    simp only [vpciNetDisconnect, Option.ite_none_left_eq_some, Option.some.injEq] at hs
    obtain ⟨hgone, hs⟩ := hs
    obtain ⟨rfl, rfl⟩ := Prod.mk.inj hs
    have hheld' : Held { dev with txThread := none } :=
      ⟨hheld.sock, hheld.rx, Or.inl (gone_of_held hheld.tx h.2 hgone)⟩
    exact ⟨⟨hheld', Or.inl rfl, Or.inl rfl, Or.inr rfl, id⟩, fun _ => id, by simp, hheld', rfl⟩
  | checkRx =>
    obtain ⟨rfl, rfl⟩ := Prod.mk.inj (Option.some.inj hs)
    refine ⟨hheld.sheds_self, fun _ => id, ?_⟩
    cases hrx : dev.rxThread with
    | none => exact ⟨by simp, hheld, h.2, hrx⟩
    | some r => exact ⟨by simp, hheld, h.2⟩
  | stopRx =>
    simp only [vpciNetDisconnect] at hs
    split at hs
    · exact absurd hs (by simp)
    · next r hrx =>
      obtain ⟨rfl, rfl⟩ := Prod.mk.inj (Option.some.inj hs)
      have hheld' : Held { dev with rxThreads := kthreadStop r dev.rxThreads } :=
        ⟨hheld.sock, held_kthreadStop r hheld.rx, hheld.tx⟩
      exact ⟨⟨hheld', Or.inl rfl, Or.inl rfl, Or.inl rfl, id⟩,
        fun id hid => by simpa [RxLive] using hid, by simp, hheld', h.2, Or.inr hrx⟩
  | waitRx r =>
    simp only [vpciNetDisconnect, Option.ite_none_left_eq_some, Option.some.injEq] at hs
    obtain ⟨hgone, hs⟩ := hs
    obtain ⟨rfl, rfl⟩ := Prod.mk.inj hs
    have hheld' : Held { dev with rxThread := none } :=
      ⟨hheld.sock, Or.inl (gone_of_held hheld.rx h.2.2 hgone), hheld.tx⟩
    exact ⟨⟨hheld', Or.inl rfl, Or.inr rfl, Or.inl rfl, id⟩, fun _ => id, by simp, hheld', h.2.1,
      rfl⟩
  | checkSock =>
    obtain ⟨rfl, rfl⟩ := Prod.mk.inj (Option.some.inj hs)
    refine ⟨hheld.sheds_self, fun _ => id, ?_⟩
    cases hsock : dev.sock with
    | none => exact ⟨by simp, hheld, h.2.1, h.2.2, hsock⟩
    | some s => exact ⟨by simp, hheld, h.2⟩
  | sockRelease =>
    simp only [vpciNetDisconnect] at hs
    split at hs
    · exact absurd hs (by simp)
    · next s hsock =>
      obtain ⟨rfl, rfl⟩ := Prod.mk.inj (Option.some.inj hs)
      have hnone : dev.sockets.erase s = [] := by
        rcases hheld.sock with hempty | ⟨s', hs', hone⟩
        · rw [hempty]
          rfl
        · obtain rfl := Option.some.inj (hsock.symm.trans hs')
          rw [hone]
          simp
      have hheld' : Held { dev with sockets := dev.sockets.erase s } :=
        ⟨Or.inl hnone, hheld.rx, hheld.tx⟩
      exact ⟨⟨hheld', Or.inl rfl, Or.inl rfl, Or.inl rfl, fun _ => hnone⟩, fun _ => id, by simp,
        hheld', h.2.1, h.2.2, hnone⟩
  | clearSock =>
    obtain ⟨rfl, rfl⟩ := Prod.mk.inj (Option.some.inj hs)
    have hheld' : Held { dev with sock := none } := ⟨Or.inl h.2.2.2, hheld.rx, hheld.tx⟩
    exact ⟨⟨hheld', Or.inr rfl, Or.inl rfl, Or.inl rfl, id⟩, fun _ => id, by simp, hheld', h.2.1,
      h.2.2.1, rfl⟩
  | clearConnected =>
    obtain ⟨rfl, rfl⟩ := Prod.mk.inj (Option.some.inj hs)
    obtain ⟨-, htx, hrx, hsock⟩ := h
    have hheld' : Held { dev with connected := false } := ⟨hheld.sock, hheld.rx, hheld.tx⟩
    exact ⟨⟨hheld', Or.inl rfl, Or.inl rfl, Or.inl rfl, id⟩, fun _ => id, hheld.down htx hrx hsock⟩

/-- A receive thread that takes its own connection down stays before the end of its `kthread_stop`:
it is the thread that is pointed to, and it exists as long as it waits. -/
theorem vpciNetDisconnect_own {dev dev' : Connection} {pc : DisconnectPc}
    {out : Outcome DisconnectPc} {id : ℕ} (h : pc.Holds dev) (hpc : pc ≠ .timerDelete)
    (hlive : RxLive dev id) (hbefore : (Pc.disconnect pc).BeforeRxGone)
    (hs : vpciNetDisconnect dev pc = some (dev', out)) :
    ∃ pc', out = .goto pc' ∧ (Pc.disconnect pc').BeforeRxGone := by
  have hsome : dev.rxThreads ≠ [] := by
    intro hnil
    simp [RxLive, hnil] at hlive
  have hheld := h.held hpc
  cases pc with
  | timerDelete => exact absurd rfl hpc
  | checkTx =>
    obtain ⟨rfl, rfl⟩ := Prod.mk.inj (Option.some.inj hs)
    refine ⟨_, rfl, ?_⟩
    split_ifs <;> trivial
  | stopTx =>
    simp only [vpciNetDisconnect] at hs
    split at hs
    · exact absurd hs (by simp)
    · obtain ⟨rfl, rfl⟩ := Prod.mk.inj (Option.some.inj hs)
      exact ⟨_, rfl, trivial⟩
  | waitTx t =>
    simp only [vpciNetDisconnect, Option.ite_none_left_eq_some, Option.some.injEq] at hs
    obtain ⟨rfl, rfl⟩ := Prod.mk.inj hs.2
    exact ⟨_, rfl, trivial⟩
  | checkRx =>
    obtain ⟨rfl, rfl⟩ := Prod.mk.inj (Option.some.inj hs)
    refine ⟨_, rfl, ?_⟩
    cases hrx : dev.rxThread with
    | none => exact absurd (by simpa [hrx] using hheld.rx) hsome
    | some r => trivial
  | stopRx =>
    simp only [vpciNetDisconnect] at hs
    split at hs
    · exact absurd hs (by simp)
    · obtain ⟨rfl, rfl⟩ := Prod.mk.inj (Option.some.inj hs)
      exact ⟨_, rfl, trivial⟩
  | waitRx r =>
    simp only [vpciNetDisconnect, Option.ite_none_left_eq_some] at hs
    exact absurd (gone_of_held hheld.rx h.2.2 hs.1) hsome
  | checkSock => exact False.elim hbefore
  | sockRelease => exact False.elim hbefore
  | clearSock => exact False.elim hbefore
  | clearConnected => exact False.elim hbefore

/-- Two calls may be under way together in either order. -/
theorem Apart.symm {c d : Call} (h : Apart c d) : Apart d c := ⟨h.2, h.1⟩

/-- A call that is not active may be under way with any other. -/
theorem apart_of_inactive {c : Call} (h : ¬ c.pc.Active) (d : Call) : Apart c d :=
  ⟨fun hboth => h (Or.inl hboth.1), fun hboth => h hboth.2⟩

/-- A call that is not active assumes nothing but its own thread. -/
theorem CallHolds.of_inactive {dev dev' : Connection} {c : Call} (h : CallHolds dev c)
    (hpc : ¬ c.pc.Active)
    (hlive : ∀ id, c.caller = .rxThread id → RxLive dev id → RxLive dev' id) :
    CallHolds dev' c where
  pc := by
    obtain ⟨caller, pc⟩ := c
    cases pc with
    | connect pc =>
      obtain rfl : pc = .sockCreate := by
        by_contra hne
        exact hpc (Or.inl hne)
      trivial
    | disconnect pc =>
      obtain rfl : pc = .timerDelete := by
        by_contra hne
        exact hpc (Or.inr hne)
      trivial
    | workTest => trivial
    | roleNone => trivial
    | rxEnd => trivial
    | finished => trivial
  own := fun id hid => ⟨hlive id hid (h.own id hid).1, (h.own id hid).2⟩

/-- A call other than an active connect survives what sheds parts of the connection. -/
theorem CallHolds.sheds {dev dev' : Connection} {c : Call} (h : CallHolds dev c)
    (hpc : ¬ c.pc.Building) (hs : Sheds dev dev')
    (hlive : ∀ id, c.caller = .rxThread id → RxLive dev id → RxLive dev' id) :
    CallHolds dev' c where
  pc := by
    obtain ⟨caller, pc⟩ := c
    cases pc with
    | connect pc =>
      obtain rfl : pc = .sockCreate := by
        by_contra hne
        exact hpc hne
      trivial
    | disconnect pc => exact DisconnectPc.Holds.sheds h.pc hs
    | workTest => trivial
    | roleNone => trivial
    | rxEnd => trivial
    | finished => trivial
  own := fun id hid => ⟨hlive id hid (h.own id hid).1, (h.own id hid).2⟩

/-- A receive thread makes no connect, and is never past its own disconnect. -/
theorem CallHolds.not_rxThread {dev : Connection} {c : Call} (h : CallHolds dev c)
    (hpc : ¬ c.pc.BeforeRxGone) (id : ℕ) : c.caller ≠ .rxThread id :=
  fun hid => hpc (h.own id hid).2

/-- A connect returns to where nothing is assumed. -/
theorem connectReturn_idle (dev : Connection) (caller : Caller) (ok : Bool) :
    (connectReturn caller ok).Holds dev ∧ ¬ (connectReturn caller ok).Active := by
  unfold connectReturn
  split_ifs <;> simp [Pc.Holds, Pc.Active, Pc.Building, Pc.Dismantling]

/-- A disconnect returns to where nothing is assumed. -/
theorem disconnectReturn_idle (dev : Connection) (caller : Caller) :
    (disconnectReturn caller).Holds dev ∧ ¬ (disconnectReturn caller).Active := by
  cases caller <;> simp [disconnectReturn, Pc.Holds, Pc.Active, Pc.Building, Pc.Dismantling]

/-- A receive thread returns while a connect is alone only where the connect waits for it. -/
theorem ConnectPc.Holds.rxReturn {dev : Connection} {pc : ConnectPc} (h : pc.Holds dev)
    (hpc : pc ≠ .sockCreate) {id : ℕ} (hid : ⟨id, true⟩ ∈ dev.rxThreads) :
    pc.Holds { dev with rxThreads := dev.rxThreads.filter (·.id ≠ id) } := by
  cases pc with
  | sockCreate => exact absurd rfl hpc
  | waitRx r =>
    obtain ⟨s, rxThreads, rfl, rfl | rfl⟩ := h
    · exact absurd hid (by simp)
    · obtain rfl : id = r := by simpa using hid
      exact ⟨s, [], by simp, Or.inl rfl⟩
  | kernelConnect =>
    obtain ⟨s, rfl⟩ := h
    exact absurd hid (by simp)
  | runRx =>
    obtain ⟨s, rfl⟩ := h
    exact absurd hid (by simp)
  | storeRx r =>
    obtain ⟨s, rfl⟩ := h
    exact absurd hid (by simp)
  | runTx =>
    obtain ⟨s, r, rfl⟩ := h
    exact absurd hid (by simp)
  | storeTx t =>
    obtain ⟨s, r, rfl⟩ := h
    exact absurd hid (by simp)
  | setConnected =>
    obtain ⟨s, r, t, rfl⟩ := h
    exact absurd hid (by simp)
  | stopRx =>
    obtain ⟨s, r, rfl⟩ := h
    exact absurd hid (by simp)
  | sockRelease =>
    obtain ⟨s, rfl⟩ := h
    exact absurd hid (by simp)
  | clearSock =>
    obtain ⟨s, rfl⟩ := h
    exact absurd hid (by simp)

/-- No transmit thread was asked to stop while a connect is alone. -/
theorem ConnectPc.Holds.not_txReturn {dev : Connection} {pc : ConnectPc} (h : pc.Holds dev)
    (hpc : pc ≠ .sockCreate) (id : ℕ) : (⟨id, true⟩ : KThread) ∉ dev.txThreads := by
  cases pc with
  | sockCreate => exact absurd rfl hpc
  | waitRx r =>
    obtain ⟨s, rxThreads, rfl, -⟩ := h
    simp
  | storeTx t =>
    obtain ⟨s, r, rfl⟩ := h
    simp
  | setConnected =>
    obtain ⟨s, r, t, rfl⟩ := h
    simp
  | kernelConnect =>
    obtain ⟨s, rfl⟩ := h
    simp
  | runRx =>
    obtain ⟨s, rfl⟩ := h
    simp
  | storeRx r =>
    obtain ⟨s, rfl⟩ := h
    simp
  | runTx =>
    obtain ⟨s, r, rfl⟩ := h
    simp
  | stopRx =>
    obtain ⟨s, r, rfl⟩ := h
    simp
  | sockRelease =>
    obtain ⟨s, rfl⟩ := h
    simp
  | clearSock =>
    obtain ⟨s, rfl⟩ := h
    simp

end LinuxFunctionTest.VirtualPcie
