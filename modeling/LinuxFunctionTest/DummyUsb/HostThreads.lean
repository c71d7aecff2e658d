import LinuxFunctionTest.Library.Errno
import LinuxFunctionTest.Library.Ledger
import Mathlib.Logic.Function.Basic
import Mathlib.Tactic.SplitIfs

/-!
# Threads and sockets of the host controller

`uoe_hcd_probe` with its unwinding, `uoe_hcd_remove` and `uoe_hcd_stop`, which `usb_remove_hcd` calls. All three
stop threads, but only `uoe_hcd_stop` resets the field that names one, and it takes whatever is in the field
for a thread. The sockets fare better: `uoe_close` resets what it releases. So everything is released exactly
once if the probe fails before it starts the first thread, and in no other case.
-/

namespace LinuxFunctionTest.DummyUsb

open Errno

/-- The threads of the host controller, by the fields that name them. -/
inductive HostThread where
  | poll
  | event
  deriving DecidableEq

/-- The sockets of its connection. -/
inductive HostSocket where
  | data
  | event
  deriving DecidableEq

/-- What `PTR_ERR` makes of an error pointer. -/
def PtrErr : Type := { err : ℤ // -4095 ≤ err ∧ err < 0 }

instance : DecidableEq PtrErr := inferInstanceAs (DecidableEq { err : ℤ // -4095 ≤ err ∧ err < 0 })

/-- A field of type `struct task_struct *`. -/
inductive TaskField where
  | null
  | errPtr (err : PtrErr)
  | task (t : HostThread)
  deriving DecidableEq

/-- What is acquired and released: sockets, and whatever `kthread_stop` is called with. -/
inductive HostResource where
  | sock (s : HostSocket)
  | thread (p : TaskField)
  deriving DecidableEq

/-- The fields of `struct uoe_hcd` that name threads and sockets. Observed, newest first: what was acquired and
released, and the fields that were examined while they named a stopped thread. -/
structure UoeHost where
  thread : HostThread → TaskField
  sock : HostSocket → Bool
  ledger : List (LedgerEntry HostResource)
  stale : List HostThread

namespace UoeHost

/-- The zeroed private data of a new host controller. -/
def created : UoeHost := ⟨fun _ => .null, fun _ => false, [], []⟩

/-- Examine a field that names a thread. -/
def examine (h : UoeHost) (t : HostThread) : UoeHost :=
  match h.thread t with
  | .task u => { h with
      stale := if .release (.thread (.task u)) ∈ h.ledger then t :: h.stale else h.stale }
  | .null | .errPtr _ => h

/-- Store the result of `kthread_run`. -/
def kthreadRun (h : UoeHost) (t : HostThread) : Option PtrErr → UoeHost
  | none => { h with
      thread := Function.update h.thread t (.task t)
      ledger := .acquire (.thread (.task t)) :: h.ledger }
  | some err => { h with thread := Function.update h.thread t (.errPtr err) }

/-- `kthread_stop` on what a field names. -/
def kthreadStop (h : UoeHost) (t : HostThread) : UoeHost :=
  { h with ledger := .release (.thread (h.thread t)) :: h.ledger }

/-- Stop the thread if the field is set. -/
def stopIfSet (h : UoeHost) (t : HostThread) : UoeHost :=
  let h := h.examine t
  if h.thread t = .null then h else h.kthreadStop t

/-- Stop the thread and reset the field if it is set. -/
def stopAndReset (h : UoeHost) (t : HostThread) : UoeHost :=
  let h := h.examine t
  if h.thread t = .null then h
  else
    let h := h.kthreadStop t
    { h with thread := Function.update h.thread t .null }

/-- Release a socket and reset its field if it is set. -/
def closeSock (h : UoeHost) (s : HostSocket) : UoeHost :=
  if h.sock s then
    { h with sock := Function.update h.sock s false, ledger := .release (.sock s) :: h.ledger }
  else h

end UoeHost

/-- `uoe_close`. -/
def uoeClose (h : UoeHost) : UoeHost := (h.closeSock .data).closeSock .event

/-- `uoe_hcd_stop`. -/
def uoeHcdStop (h : UoeHost) : UoeHost := uoeClose ((h.stopAndReset .poll).stopAndReset .event)

/-- `uoe_create_udp_socket` for a client; the second argument is what `sock_create` returns. -/
def UoeHost.uoeCreateUdpSocket (h : UoeHost) (s : HostSocket) (ret : ℤ) : UoeHost × ℤ :=
  if ret < 0 then (h, ret)
  else
    ({ h with sock := Function.update h.sock s true, ledger := .acquire (.sock s) :: h.ledger }, 0)

/-- `uoe_create_client`. When the second socket fails the field of the first is left as it is. -/
def uoeCreateClient (h : UoeHost) (sockData sockEvent : ℤ) : UoeHost × ℤ :=
  let (h, ret) := h.uoeCreateUdpSocket .data sockData
  if ret < 0 then (h, ret)
  else
    let (h, ret) := h.uoeCreateUdpSocket .event sockEvent
    if ret < 0 then ({ h with ledger := .release (.sock .data) :: h.ledger }, ret)
    else (h, 0)

/-- The outcomes of what `uoe_hcd_probe` calls. `addStopped` tells whether a failing `usb_add_hcd` got as far as
starting the controller, and so has stopped it again. -/
structure ProbeOutcome where
  usbDisabled : Bool
  remoteIp : Option String
  createHcd : Bool
  sockData : ℤ
  sockEvent : ℤ
  addHcd : ℤ
  addStopped : Bool
  pollThread : Option PtrErr
  eventThread : Option PtrErr

/-- `usb_remove_hcd` stops the controller. -/
def usbRemoveHcd (h : UoeHost) : UoeHost := uoeHcdStop h

/-- `usb_add_hcd`. -/
def usbAddHcd (h : UoeHost) (o : ProbeOutcome) : UoeHost × ℤ :=
  if o.addHcd < 0 then (if o.addStopped then uoeHcdStop h else h, o.addHcd) else (h, 0)

/-- `uoe_hcd_probe`. -/
def uoeHcdProbe (o : ProbeOutcome) : UoeHost × ℤ :=
  if o.usbDisabled then (.created, -enodev)
  else if o.remoteIp.getD "" = "" then (.created, -einval)
  else if ¬ o.createHcd then (.created, -enomem)
  else
    let (h, ret) := uoeCreateClient .created o.sockData o.sockEvent
    if ret < 0 then (h, ret)
    else
      let (h, ret) := usbAddHcd h o
      if ret < 0 then (uoeClose h, ret)
      else
        let h := h.kthreadRun .poll o.pollThread
        match h.thread .poll with
        | .errPtr err => (uoeClose (usbRemoveHcd h), err.1)
        | .null | .task _ =>
          let h := h.kthreadRun .event o.eventThread
          match h.thread .event with
          | .errPtr err => (uoeClose (usbRemoveHcd (h.kthreadStop .poll)), err.1)
          | .null | .task _ => (h, 0)

/-- `uoe_hcd_remove`. -/
def uoeHcdRemove (h : UoeHost) : UoeHost :=
  uoeClose (usbRemoveHcd ((h.stopIfSet .poll).stopIfSet .event))

/-- A probe, followed by the removal of the device if it succeeds. -/
def hostLifetime (o : ProbeOutcome) : UoeHost :=
  let (h, ret) := uoeHcdProbe o
  if ret = 0 then uoeHcdRemove h else h

/-- Every thread that was started and every socket that was created is released exactly once, nothing else is,
and no field was examined while it named a stopped thread. -/
structure ReleasedOnce (h : UoeHost) : Prop where
  once : ∀ r ∈ Ledger.acquired h.ledger, (Ledger.released h.ledger).count r = 1
  only : ∀ r ∈ Ledger.released h.ledger, r ∈ Ledger.acquired h.ledger
  fresh : h.stale = []

/-- The probe gets as far as starting the thread that polls. -/
structure ProbeOutcome.StartsThreads (o : ProbeOutcome) : Prop where
  enabled : o.usbDisabled = false
  remoteIp : o.remoteIp.getD "" ≠ ""
  createHcd : o.createHcd = true
  sockData : 0 ≤ o.sockData
  sockEvent : 0 ≤ o.sockEvent
  addHcd : 0 ≤ o.addHcd

/-- The ledger when `uoe_create_client` has succeeded. -/
def clientLedger : List (LedgerEntry HostResource) := [.acquire (.sock .event), .acquire (.sock .data)]

section Probe

variable {o : ProbeOutcome} {h : UoeHost}

/-- Nothing acquired, nothing to release. -/
theorem releasedOnce_created : ReleasedOnce .created :=
  ⟨fun _ hr => absurd hr List.not_mem_nil, fun _ hr => absurd hr List.not_mem_nil, rfl⟩

/-- What is released is judged by the ledger, if no stale field was examined. -/
theorem releasedOnce_of_ledger {ledger : List (LedgerEntry HostResource)} (hledger : h.ledger = ledger)
    (hstale : h.stale = []) (honce : ∀ r ∈ Ledger.acquired ledger, (Ledger.released ledger).count r = 1)
    (honly : ∀ r ∈ Ledger.released ledger, r ∈ Ledger.acquired ledger) : ReleasedOnce h := by
  subst hledger
  exact ⟨honce, honly, hstale⟩

/-- A host controller without threads whose two sockets are open. -/
structure Connected (h : UoeHost) : Prop where
  thread : ∀ t, h.thread t = .null
  sock : ∀ s, h.sock s = true
  ledger : h.ledger = clientLedger
  stale : h.stale = []

/-- `uoe_create_client` connects, or releases what it created. -/
theorem uoeCreateClient_cases (sockData sockEvent : ℤ) :
    (0 ≤ sockData ∧ 0 ≤ sockEvent ∧ ∃ h, uoeCreateClient .created sockData sockEvent = (h, 0) ∧ Connected h) ∨
    (¬ (0 ≤ sockData ∧ 0 ≤ sockEvent) ∧ (uoeCreateClient .created sockData sockEvent).2 < 0 ∧
      ReleasedOnce (uoeCreateClient .created sockData sockEvent).1) := by
  unfold uoeCreateClient UoeHost.uoeCreateUdpSocket
  by_cases hdata : sockData < 0
  · simp only [if_pos hdata]
    exact .inr ⟨by omega, hdata, releasedOnce_created⟩
  · simp only [if_neg hdata, Int.lt_irrefl, if_false]
    by_cases hevent : sockEvent < 0
    · simp only [if_pos hevent]
      exact .inr ⟨by omega, hevent, releasedOnce_of_ledger rfl rfl (by decide) (by decide)⟩
    · simp only [if_neg hevent, Int.lt_irrefl, if_false]
      refine .inl ⟨by omega, by omega, _, rfl, fun _ => rfl, fun s => ?_, rfl, rfl⟩
      cases s <;> rfl

/-- Without threads, closing the connection releases both sockets, once. -/
theorem uoeClose_connected (hconn : Connected h) :
    (uoeClose h).ledger = .release (.sock .event) :: .release (.sock .data) :: clientLedger ∧
      (uoeClose h).stale = [] ∧ ∀ s, (uoeClose h).sock s = false := by
  have hdata : h.closeSock .data =
      { h with sock := Function.update h.sock .data false, ledger := .release (.sock .data) :: h.ledger } :=
    if_pos (hconn.sock .data)
  have hevent : uoeClose h =
      { h with
        sock := Function.update (Function.update h.sock .data false) .event false
        ledger := .release (.sock .event) :: .release (.sock .data) :: h.ledger } := by
    unfold uoeClose
    rw [hdata]
    exact if_pos (hconn.sock .event)
  rw [hevent, hconn.ledger, hconn.stale]
  refine ⟨rfl, rfl, fun s => ?_⟩
  cases s <;> rfl

/-- Sockets that are closed already are not released again. -/
theorem uoeClose_closed (hsock : ∀ s, h.sock s = false) : uoeClose h = h := by
  have hdata : h.closeSock .data = h := if_neg (by simp [hsock])
  unfold uoeClose
  rw [hdata]
  exact if_neg (by simp [hsock])

/-- A field that is not set is passed over. -/
theorem stopAndReset_null {t : HostThread} (hnull : h.thread t = .null) : h.stopAndReset t = h := by
  have hexamine : h.examine t = h := by
    unfold UoeHost.examine
    rw [hnull]
  unfold UoeHost.stopAndReset
  simp only [hexamine, if_pos hnull]

/-- Without threads, `uoe_hcd_stop` closes the connection. -/
theorem uoeHcdStop_connected (hconn : Connected h) : uoeHcdStop h = uoeClose h := by
  unfold uoeHcdStop
  rw [stopAndReset_null (hconn.thread .poll), stopAndReset_null (hconn.thread .event)]

/-- A probe that fails before it starts a thread has released everything. -/
theorem hostLifetime_early (hearly : ¬ o.StartsThreads) : ReleasedOnce (hostLifetime o) := by
  unfold hostLifetime uoeHcdProbe
  by_cases husb : o.usbDisabled = true
  · simp only [if_pos husb]
    rw [if_neg (by decide)]
    exact releasedOnce_created
  by_cases hip : o.remoteIp.getD "" = ""
  · simp only [if_neg husb, if_pos hip]
    rw [if_neg (by decide)]
    exact releasedOnce_created
  by_cases hcreate : ¬ o.createHcd = true
  · simp only [if_neg husb, if_neg hip, if_pos hcreate]
    rw [if_neg (by decide)]
    exact releasedOnce_created
  simp only [if_neg husb, if_neg hip, if_neg hcreate]
  obtain ⟨hdata, hevent, h, hclient, hconn⟩ | ⟨-, hret, hreleased⟩ :=
    uoeCreateClient_cases o.sockData o.sockEvent
  · have hadd : o.addHcd < 0 := by
      by_contra hadd
      exact hearly ⟨by simpa using husb, hip, not_not.mp hcreate, hdata, hevent, by omega⟩
    obtain ⟨hledger, hstale, hsock⟩ := uoeClose_connected hconn
    have hclosed : uoeClose (if o.addStopped = true then uoeHcdStop h else h) = uoeClose h := by
      split_ifs
      · rw [uoeHcdStop_connected hconn, uoeClose_closed hsock]
      · rfl
    simp only [hclient, Int.lt_irrefl, if_false, usbAddHcd, if_pos hadd, hclosed]
    rw [if_neg (by omega)]
    exact releasedOnce_of_ledger hledger hstale (by decide) (by decide)
  · simp only [if_pos hret]
    rw [if_neg (by omega)]
    exact hreleased

end Probe

section Releases

variable {h h' : UoeHost}

/-- Between the states resources were released at most. -/
def Releases (h h' : UoeHost) : Prop := ∃ rs : List HostResource, h'.ledger = rs.map .release ++ h.ledger

/-- Releasing nothing. -/
theorem releases_of_ledger (hledger : h'.ledger = h.ledger) : Releases h h' := ⟨[], hledger⟩

/-- Releasing composes. -/
theorem Releases.trans {a b c : UoeHost} (hab : Releases a b) (hbc : Releases b c) : Releases a c := by
  obtain ⟨rs, hrs⟩ := hab
  obtain ⟨rs', hrs'⟩ := hbc
  refine ⟨rs' ++ rs, ?_⟩
  rw [hrs', hrs, List.map_append, List.append_assoc]

/-- Releases acquire nothing. -/
theorem Releases.acquired (hrel : Releases h h') {r : HostResource} :
    r ∈ Ledger.acquired h'.ledger ↔ r ∈ Ledger.acquired h.ledger := by
  obtain ⟨rs, hrs⟩ := hrel
  rw [hrs, Ledger.mem_acquired_map_release]

/-- What was released stays released. -/
theorem Releases.count_le (hrel : Releases h h') (r : HostResource) :
    (Ledger.released h.ledger).count r ≤ (Ledger.released h'.ledger).count r := by
  obtain ⟨rs, hrs⟩ := hrel
  rw [hrs, Ledger.released, Ledger.released, List.filterMap_append, List.count_append]
  exact Nat.le_add_left _ _

/-- Examining a field changes no field and releases nothing. -/
theorem examine_same (h : UoeHost) (t : HostThread) :
    (h.examine t).thread = h.thread ∧ (h.examine t).ledger = h.ledger := by
  unfold UoeHost.examine
  split <;> exact ⟨rfl, rfl⟩

/-- A field that is set is given to `kthread_stop`, and left as it is. -/
theorem stopIfSet_set {t : HostThread} (hset : h.thread t ≠ .null) :
    (h.stopIfSet t).thread = h.thread ∧
      (h.stopIfSet t).ledger = .release (.thread (h.thread t)) :: h.ledger := by
  obtain ⟨hthread, hledger⟩ := examine_same h t
  unfold UoeHost.stopIfSet
  simp only [hthread, if_neg hset, UoeHost.kthreadStop, hledger, and_self]

/-- `uoe_hcd_stop` gives a field that is set to `kthread_stop`, and resets it. -/
theorem stopAndReset_set {t : HostThread} (hset : h.thread t ≠ .null) :
    (h.stopAndReset t).thread = Function.update h.thread t .null ∧
      (h.stopAndReset t).ledger = .release (.thread (h.thread t)) :: h.ledger := by
  obtain ⟨hthread, hledger⟩ := examine_same h t
  unfold UoeHost.stopAndReset
  simp only [hthread, if_neg hset, UoeHost.kthreadStop, hledger, and_self]

/-- `uoe_hcd_stop` releases at most. -/
theorem stopAndReset_releases (h : UoeHost) (t : HostThread) : Releases h (h.stopAndReset t) := by
  by_cases hnull : h.thread t = .null
  · rw [stopAndReset_null hnull]
    exact releases_of_ledger rfl
  · exact ⟨[.thread (h.thread t)], (stopAndReset_set hnull).2⟩

/-- Closing the connection releases at most. -/
theorem uoeClose_releases (h : UoeHost) : Releases h (uoeClose h) := by
  have hclose : ∀ (h : UoeHost) (s : HostSocket), Releases h (h.closeSock s) := by
    intro h s
    unfold UoeHost.closeSock
    split_ifs
    · exact ⟨[.sock s], rfl⟩
    · exact releases_of_ledger rfl
  exact (hclose h .data).trans (hclose _ .event)

/-- `kthread_stop` was called on something that was never acquired. -/
theorem not_releasedOnce_of_unknown {r : HostResource} (hrel : Releases h h')
    (hreleased : r ∈ Ledger.released h.ledger) (hacquired : r ∉ Ledger.acquired h.ledger) :
    ¬ ReleasedOnce h' := by
  intro honce
  have hcount : 0 < (Ledger.released h'.ledger).count r :=
    Nat.lt_of_lt_of_le (List.count_pos_iff.mpr hreleased) (hrel.count_le r)
  exact hacquired (hrel.acquired.mp (honce.only r (List.count_pos_iff.mp hcount)))

/-- A thread was stopped twice. -/
theorem not_releasedOnce_of_twice {r : HostResource} (hrel : Releases h h')
    (hreleased : 1 < (Ledger.released h.ledger).count r) (hacquired : r ∈ Ledger.acquired h.ledger) :
    ¬ ReleasedOnce h' := by
  intro honce
  have htwice := hrel.count_le r
  rw [honce.once r (hrel.acquired.mpr hacquired)] at htwice
  omega

/-- The poll thread was not started: `uoe_hcd_stop` is given its error pointer. -/
theorem pollFailed_broken (hconn : Connected h) (err : PtrErr) :
    ¬ ReleasedOnce (uoeClose (usbRemoveHcd (h.kthreadRun .poll (some err)))) := by
  have hset : (h.kthreadRun .poll (some err)).thread .poll = .errPtr err := rfl
  obtain ⟨-, hledger⟩ := stopAndReset_set (h := h.kthreadRun .poll (some err)) (t := .poll)
    (by rw [hset]; simp)
  have hsame : (h.kthreadRun .poll (some err)).ledger = clientLedger := hconn.ledger
  rw [hset, hsame] at hledger
  have hrel : Releases ((h.kthreadRun .poll (some err)).stopAndReset .poll)
      (uoeClose (usbRemoveHcd (h.kthreadRun .poll (some err)))) :=
    ((stopAndReset_releases _ .event).trans (uoeClose_releases _)).trans (uoeClose_releases _)
  refine not_releasedOnce_of_unknown (r := .thread (.errPtr err)) hrel ?_ ?_
  · rw [hledger]
    exact List.mem_cons_self
  · rw [hledger]
    simp [Ledger.acquired, clientLedger]

/-- The event thread was not started: the poll thread was stopped before `uoe_hcd_stop` stops it again. -/
theorem eventFailed_broken (hconn : Connected h) (err : PtrErr) :
    ¬ ReleasedOnce (uoeClose (usbRemoveHcd
      (((h.kthreadRun .poll none).kthreadRun .event (some err)).kthreadStop .poll))) := by
  generalize hstop : ((h.kthreadRun .poll none).kthreadRun .event (some err)).kthreadStop .poll = d
  have hset : d.thread .poll = .task .poll := by rw [← hstop]; rfl
  have hledger : d.ledger = .release (.thread (.task .poll)) ::
      .acquire (.thread (.task .poll)) :: clientLedger := by
    rw [← hstop, ← hconn.ledger]
    rfl
  obtain ⟨-, hagain⟩ := stopAndReset_set (h := d) (t := .poll) (by rw [hset]; simp)
  rw [hset, hledger] at hagain
  have hrel : Releases (d.stopAndReset .poll) (uoeClose (usbRemoveHcd d)) :=
    ((stopAndReset_releases _ .event).trans (uoeClose_releases _)).trans (uoeClose_releases _)
  refine not_releasedOnce_of_twice (r := .thread (.task .poll)) hrel ?_ ?_
  · rw [hagain]
    decide
  · rw [hagain]
    decide

/-- Both threads were started: `uoe_hcd_remove` stops them, and `uoe_hcd_stop` stops them again. -/
theorem removed_broken (hconn : Connected h) :
    ¬ ReleasedOnce (uoeHcdRemove ((h.kthreadRun .poll none).kthreadRun .event none)) := by
  unfold uoeHcdRemove
  generalize hrun : (h.kthreadRun .poll none).kthreadRun .event none = c
  have hpoll : c.thread .poll = .task .poll := by rw [← hrun]; rfl
  have hevent : c.thread .event = .task .event := by rw [← hrun]; rfl
  have hledger : c.ledger = .acquire (.thread (.task .event)) ::
      .acquire (.thread (.task .poll)) :: clientLedger := by
    rw [← hrun, ← hconn.ledger]
    rfl
  obtain ⟨hthread, hfirst⟩ := stopIfSet_set (h := c) (t := .poll) (by rw [hpoll]; simp)
  obtain ⟨hthread', hsecond⟩ := stopIfSet_set (h := c.stopIfSet .poll) (t := .event)
    (by rw [hthread, hevent]; simp)
  obtain ⟨-, hagain⟩ := stopAndReset_set (h := (c.stopIfSet .poll).stopIfSet .event) (t := .poll)
    (by rw [hthread', hthread, hpoll]; simp)
  rw [hthread', hthread, hpoll, hsecond, hthread, hevent, hfirst, hpoll, hledger] at hagain
  have hrel : Releases (((c.stopIfSet .poll).stopIfSet .event).stopAndReset .poll)
      (uoeClose (usbRemoveHcd ((c.stopIfSet .poll).stopIfSet .event))) :=
    ((stopAndReset_releases _ .event).trans (uoeClose_releases _)).trans (uoeClose_releases _)
  refine not_releasedOnce_of_twice (r := .thread (.task .poll)) hrel ?_ ?_
  · rw [hagain]
    decide
  · rw [hagain]
    decide

end Releases

section Lifetimes

variable {o : ProbeOutcome}

/-- A probe that starts a thread, or tries to, does not end well. -/
theorem hostLifetime_late (hstarts : o.StartsThreads) : ¬ ReleasedOnce (hostLifetime o) := by
  obtain ⟨-, -, h, hclient, hconn⟩ | ⟨hfailed, -⟩ := uoeCreateClient_cases o.sockData o.sockEvent
  · have hadd : ¬ o.addHcd < 0 := Int.not_lt.mpr hstarts.addHcd
    have husb : ¬ o.usbDisabled = true := by rw [hstarts.enabled]; simp
    unfold hostLifetime uoeHcdProbe
    simp only [if_neg husb, if_neg hstarts.remoteIp, hstarts.createHcd, not_true_eq_false, if_false, hclient,
      Int.lt_irrefl, usbAddHcd, if_neg hadd]
    cases hpoll : o.pollThread with
    | some err =>
      have hset : (h.kthreadRun .poll (some err)).thread .poll = .errPtr err := rfl
      simp only [hset]
      rw [if_neg (by have := err.2; omega)]
      exact pollFailed_broken hconn err
    | none =>
      have hset : (h.kthreadRun .poll none).thread .poll = .task .poll := rfl
      simp only [hset]
      cases hevent : o.eventThread with
      | some err =>
        have hset : ((h.kthreadRun .poll none).kthreadRun .event (some err)).thread .event = .errPtr err := rfl
        simp only [hset]
        rw [if_neg (by have := err.2; omega)]
        exact eventFailed_broken hconn err
      | none =>
        have hset : ((h.kthreadRun .poll none).kthreadRun .event none).thread .event = .task .event := rfl
        simp only [hset, if_true]
        exact removed_broken hconn
  · exact absurd ⟨hstarts.sockData, hstarts.sockEvent⟩ hfailed

/-- Threads and sockets are released exactly once, and no stale field is examined, exactly when the probe fails
before it starts a thread. -/
theorem releasedOnce_iff_not_startsThreads (o : ProbeOutcome) :
    ReleasedOnce (hostLifetime o) ↔ ¬ o.StartsThreads :=
  ⟨fun honce hstarts => hostLifetime_late hstarts honce, hostLifetime_early⟩

/-- A probe in which everything succeeds, and the removal of the device. -/
theorem releasedOnce_broken :
    ¬ ∀ o : ProbeOutcome, ReleasedOnce (hostLifetime o) := by
  intro h
  have honce := h ⟨false, some "10.0.0.1", true, 0, 0, 0, false, none, none⟩
  exact absurd honce.fresh (by decide)

end Lifetimes

end LinuxFunctionTest.DummyUsb
