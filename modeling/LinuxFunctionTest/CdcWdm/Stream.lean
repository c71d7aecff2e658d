import LinuxFunctionTest.CdcWdm.Read

/-!
# What the readers of a WDM device receive

Calls of `wdm_read`, one after the other as the mutex has them, while `wdm_in_callback` takes in the responses of
the device. What the calls return is what the callback has accepted, in order and without loss, and a response that
the callback had to drop does not stay unnoticed.
-/

namespace LinuxFunctionTest.CdcWdm

open Errno

/-- The bytes that wait in `ubuf`. -/
def WdmData.pending (data : WdmData) : List UInt8 := (List.range data.length).map data.ubuf

/-- The callback appends a response to what waits. -/
def WdmData.append (data : WdmData) (inbuf : List UInt8) : WdmData :=
  { data with
    ubuf := fun i => if data.length ≤ i then inbuf.getD (i - data.length) (data.ubuf i) else data.ubuf i
    length := data.length + inbuf.length
    reslength := inbuf.length }

/-- What `wdm_in_callback` does with the response in `inbuf`: it is accepted, dropped, or not looked at. -/
inductive Intake where
  | accepted
  | dropped
  | skipped
  deriving DecidableEq

/-- `wdm_in_callback` for a device that the WWAN framework does not use. -/
def WdmRead.inCallback (s : WdmRead) (wMaxCommand : ℕ) (status : ℤ) (inbuf : List UInt8) : WdmRead × Intake :=
  let s : WdmRead := { s with flags := { s.flags with responding := false } }
  let skip := status = -enoent ∨ status = -econnreset ∨ status = -eshutdown
  let rerr := if skip ∨ s.data.rerr ≠ 0 ∨ status = -epipe then s.data.rerr else status
  let s : WdmRead := { s with data := { s.data with rerr := rerr } }
  -- a second error waits for the work that services outstanding interrupts
  let read := s.flags.read || decide (rerr = 0)
  if skip then ({ s with flags := { s.flags with read := read } }, .skipped)
  else if wMaxCommand < inbuf.length + s.data.length then
    ({ s with flags := { s.flags with read := read, overflow := true } }, .dropped)
  else if s.flags.overflow then ({ s with flags := { s.flags with read := read } }, .dropped)
  else ({ s with flags := { s.flags with read := read }, data := s.data.append inbuf }, .accepted)

/-- The device, the call of `wdm_read` that is under way or was the last, and what has happened so far: the bytes
that the callback accepted and those that the calls returned, how often the callback began to drop, and how often
that was told to a reader or called off by a reset. -/
structure WdmStream where
  read : WdmRead
  call : ReadCall
  accepted : List UInt8
  received : List UInt8
  gaps : ℕ
  told : ℕ
  calledOff : ℕ

/-- A step of a call, or of others: `flags` and `counts` are what the remaining code changes at any time, and while
nobody holds `iuspin`. -/
inductive StreamStep where
  | read (call : ReadCall)
  | run
  | signal
  | submitted (rv : ℤ)
  | copied (left : ℕ)
  | response (status : ℤ) (inbuf : List UInt8)
  | postReset
  | flags (flags : WdmFlags)
  | counts (rerr respCount : ℤ)

/-- A call has made a step, which may be the last. -/
def WdmStream.moved (s : WdmStream) (read : WdmRead) : WdmStream :=
  if s.read.pc = .err then
    { s with
      read := read
      received := s.received ++ read.buffer.take read.rv.toNat
      told := s.told + if read.rv = -enobufs then 1 else 0 }
  else { s with read := read }

/-- Readers and the device. -/
def streamMachine (usbTranslateErrors : ℤ → ℤ) (wMaxCommand : ℕ) : Machine WdmStream StreamStep where
  step s
    | .read call =>
      if s.read.pc = .returned then
        some { s with call := call, read := { s.read with pc := .mutexLock, rv := 0, cntr := 0, buffer := [] } }
      else none
    | .run => ((readMachine usbTranslateErrors s.call).step s.read .run).map s.moved
    | .signal => ((readMachine usbTranslateErrors s.call).step s.read .signal).map s.moved
    | .submitted rv => ((readMachine usbTranslateErrors s.call).step s.read (.submitted rv)).map s.moved
    | .copied left => ((readMachine usbTranslateErrors s.call).step s.read (.copied left)).map s.moved
    | .response status inbuf =>
      if s.read.iuspin.held then none
      else
        let (read, intake) := s.read.inCallback wMaxCommand status inbuf
        some { s with
          read := read
          accepted := if intake = .accepted then s.accepted ++ inbuf else s.accepted
          gaps := s.gaps + if intake = .dropped ∧ s.read.flags.overflow = false then 1 else 0 }
    | .postReset =>
      if s.read.rlock then none
      else some { s with
        read := { s.read with flags := { s.read.flags with overflow := false, resetting := false } }
        calledOff := s.calledOff + if s.read.flags.overflow then 1 else 0 }
    | .flags flags =>
      let flags := { flags with overflow := s.read.flags.overflow }
      some { s with read := { s.read with flags := flags } }
    | .counts rerr respCount =>
      if s.read.iuspin.held then none
      else some { s with read := { s.read with data := { s.read.data with rerr := rerr, respCount := respCount } } }

/-- Before the call copies anything. -/
def ReadPoint.early : ReadPoint → Bool
  | .service .lastByte _ | .copied | .shift | .err | .returned => false
  | _ => true

namespace WdmRead

/-- What the call has taken out of `ubuf` and is about to return. -/
def inflight (s : WdmRead) : List UInt8 :=
  match s.pc with
  | .service .lastByte _ => s.buffer
  | .err => s.buffer.take s.rv.toNat
  | _ => []

/-- A response was dropped, and the reader has yet to be told or is being told. -/
def owed (s : WdmRead) : ℕ :=
  (if s.flags.overflow then 1 else 0) + if s.pc = .err ∧ s.rv = -enobufs then 1 else 0

/-- What the call knows about its buffer where it stands. -/
structure Placed (s : WdmRead) : Prop where
  early : s.pc.early = true → s.buffer = []
  copy : s.pc = .copy → s.cntr ≤ s.data.length
  copied : s.pc = .copied ∨ s.pc = .shift → s.cntr ≤ s.data.length ∧ s.buffer = s.data.pending.take s.cntr
  lastByte : ∀ point, s.pc = .service .lastByte point → s.buffer.length = s.cntr

section Pending

variable {data : WdmData}

/-- As many bytes wait as the device has counted. -/
@[simp] theorem length_pending : data.pending.length = data.length := by simp [WdmData.pending]

/-- The bytes that wait are those of `ubuf` up to the count. -/
theorem pending_congr {other : WdmData} (hlength : data.length = other.length) (hubuf : data.ubuf = other.ubuf) :
    data.pending = other.pending := by
  rw [WdmData.pending, WdmData.pending, hlength, hubuf]

/-- The bytes at the front are the first of `ubuf`. -/
theorem pending_take {n : ℕ} (hn : n ≤ data.length) : data.pending.take n = (List.range n).map data.ubuf := by
  rw [WdmData.pending, ← List.map_take, List.take_range, Nat.min_eq_left hn]

/-- Shifting `ubuf` takes the first bytes off. -/
theorem pending_shift (n : ℕ) :
    WdmData.pending { data with
      length := data.length - n
      ubuf := fun i => if i < data.length - n then data.ubuf (i + n) else data.ubuf i } = data.pending.drop n := by
  refine List.ext_getElem (by simp [WdmData.pending]) fun i hi _ => ?_
  have hlt : i < data.length - n := by simpa [WdmData.pending] using hi
  simp [WdmData.pending, hlt, Nat.add_comm]

/-- The callback appends to what waits. -/
theorem pending_append (inbuf : List UInt8) : (data.append inbuf).pending = data.pending ++ inbuf := by
  refine List.ext_getElem (by simp [WdmData.pending, WdmData.append]) fun i hi _ => ?_
  have hlt : i < data.length + inbuf.length := by simpa [WdmData.pending, WdmData.append] using hi
  rw [List.getElem_append]
  split
  · rename_i hfront
    have hfront : i < data.length := by simpa using hfront
    simp [WdmData.pending, WdmData.append, Nat.not_le.mpr hfront]
  · rename_i hback
    have hback : data.length ≤ i := by simpa using hback
    have hin : i - data.length < inbuf.length := by omega
    simp [WdmData.pending, WdmData.append, hback, List.getD, hin]

end Pending

/-- A step of a call that goes on loses no byte and forgets no response that was dropped. -/
structure Carries (s t : WdmRead) : Prop where
  placed : Placed t
  bytes : t.inflight ++ t.data.pending = s.inflight ++ s.data.pending
  length : t.data.length ≤ s.data.length
  owed : s.owed ≤ t.owed

section Moves

variable {s t : WdmRead} {usbTranslateErrors : ℤ → ℤ} {call : ReadCall}

/-- A call that has yet to copy has nothing to return. -/
theorem inflight_of_early (h : s.pc.early = true) : s.inflight = [] := by
  rcases hpc : s.pc with _ | _ | _ | _ | _ | _ | _ | _ | _ | _ | _ | _ | ⟨_ | _, _⟩ | _ | _ | _ | _ | _ <;>
    simp_all [inflight, ReadPoint.early]

/-- A call that goes on with the same flag owes no less. -/
theorem owed_le (hs : s.pc ≠ .err) (hflag : t.flags.overflow = s.flags.overflow) : s.owed ≤ t.owed := by
  simp only [owed, hs, hflag, false_and, if_false]
  exact Nat.le_add_right _ _

/-- A call that has yet to copy goes on, to the copy or to an error. -/
theorem Placed.before (h : Placed s) (hearly : s.pc.early = true) (hbuffer : t.buffer = s.buffer)
    (hlength : t.data.length = s.data.length) (hubuf : t.data.ubuf = s.data.ubuf)
    (hflag : t.flags.overflow = s.flags.overflow ∨ t.rv = -enobufs ∧ t.pc = .err)
    (hpc : (t.pc.early = true ∧ (t.pc = .copy → t.cntr ≤ t.data.length)) ∨ t.pc = .err) : Carries s t := by
  have hempty : t.buffer = [] := hbuffer.trans (h.early hearly)
  have hpending : t.data.pending = s.data.pending := pending_congr hlength hubuf
  have hs : s.pc ≠ .err := fun hs => absurd hearly (by rw [hs]; decide)
  refine ⟨?_, ?_, hlength.le, ?_⟩
  · rcases hpc with ⟨hearly', hcopy⟩ | hpc
    · refine ⟨fun _ => hempty, hcopy, fun hpc => ?_, fun point hpc => ?_⟩
      · rcases hpc with hpc | hpc <;> exact absurd hearly' (by rw [hpc]; decide)
      · exact absurd hearly' (by rw [hpc]; exact Bool.false_ne_true)
    · refine ⟨fun _ => hempty, fun hcopy => ?_, fun hcopied => ?_, fun point hlast => ?_⟩
      · simp [hpc] at hcopy
      · simp [hpc] at hcopied
      · simp [hpc] at hlast
  · rw [inflight_of_early hearly, hpending]
    rcases hpc with ⟨hearly', _⟩ | hpc
    · rw [inflight_of_early hearly']
    · simp [inflight, hpc, hempty]
  · rcases hflag with hflag | ⟨hrv, hpc⟩
    · exact owed_le hs hflag
    · simp only [owed, hs, false_and, if_false]
      have htelling : t.pc = .err ∧ t.rv = -enobufs := ⟨hpc, hrv⟩
      simp only [htelling, and_self, if_true]
      split_ifs <;> omega

/-- A call behind the last byte goes on, or returns what it has copied. -/
theorem Placed.behind (h : Placed s) {point : ServicePoint} (hs : s.pc = .service .lastByte point)
    (hbuffer : t.buffer = s.buffer) (hcntr : t.cntr = s.cntr) (hlength : t.data.length = s.data.length)
    (hubuf : t.data.ubuf = s.data.ubuf) (hflag : t.flags.overflow = s.flags.overflow)
    (hpc : (∃ point, t.pc = .service .lastByte point) ∨ t.pc = .err ∧ t.rv = t.cntr) : Carries s t := by
  have hpending : t.data.pending = s.data.pending := pending_congr hlength hubuf
  have hcopied : t.buffer.length = t.cntr := by rw [hbuffer, hcntr]; exact h.lastByte point hs
  have hinflight : s.inflight = s.buffer := by rw [inflight, hs]
  refine ⟨?_, ?_, hlength.le, ?_⟩
  · rcases hpc with ⟨point', hpc⟩ | ⟨hpc, _⟩ <;>
      exact ⟨by simp [hpc, ReadPoint.early], by simp [hpc], by simp [hpc], fun _ _ => hcopied⟩
  · rw [hinflight, hpending]
    rcases hpc with ⟨point', hpc⟩ | ⟨hpc, hrv⟩
    · simp [inflight, hpc, hbuffer]
    · simp [inflight, hpc, hrv, ← hcopied, hbuffer]
  · exact owed_le (by simp [hs]) hflag

/-- The helper returns to a read that has yet to copy. -/
theorem Placed.serviced (h : Placed s) {caller : ServiceCaller} {point : ServicePoint}
    (hs : s.pc = .service caller point) (hbuffer : t.buffer = s.buffer) (hcntr : t.cntr = s.cntr)
    (hlength : t.data.length = s.data.length) (hubuf : t.data.ubuf = s.data.ubuf)
    (hflag : t.flags.overflow = s.flags.overflow) (rv : ℤ) : Carries s (t.serviced caller rv) := by
  cases caller with
  | zeroLength =>
    rw [WdmRead.serviced]
    split
    · exact h.before (by rw [hs]; rfl) hbuffer hlength hubuf (.inl hflag) (.inr rfl)
    · exact h.before (by rw [hs]; rfl) hbuffer hlength hubuf (.inl hflag) (.inl ⟨rfl, by simp⟩)
  | lastByte => exact h.behind hs hbuffer hcntr hlength hubuf hflag (.inr ⟨rfl, rfl⟩)

/-- The helper goes on. -/
theorem Placed.servicing (h : Placed s) {caller : ServiceCaller} {point : ServicePoint} (next : ServicePoint)
    (hs : s.pc = .service caller point) (ht : t.pc = .service caller next) (hbuffer : t.buffer = s.buffer)
    (hcntr : t.cntr = s.cntr) (hlength : t.data.length = s.data.length) (hubuf : t.data.ubuf = s.data.ubuf)
    (hflag : t.flags.overflow = s.flags.overflow) : Carries s t := by
  cases caller with
  | zeroLength =>
    exact h.before (by rw [hs]; rfl) hbuffer hlength hubuf (.inl hflag) (.inl ⟨by rw [ht]; rfl, by simp [ht]⟩)
  | lastByte => exact h.behind hs hbuffer hcntr hlength hubuf hflag (.inl ⟨next, ht⟩)

/-- The helper loses no byte. -/
theorem Placed.service_step (h : Placed s) {caller : ServiceCaller} {point : ServicePoint}
    (hs : s.pc = .service caller point) (hstep : s.serviceOutstandingInterrupt caller point = some t) :
    Carries s t := by
  cases point <;> simp only [serviceOutstandingInterrupt] at hstep
  case respCount =>
    split_ifs at hstep <;> obtain rfl := Option.some.inj hstep
    · exact h.serviced hs rfl rfl rfl rfl rfl _
    · apply h.serviced hs <;> rfl
    · exact h.servicing _ hs rfl rfl rfl rfl rfl rfl
  case disconnecting =>
    split_ifs at hstep <;> obtain rfl := Option.some.inj hstep
    · exact h.serviced hs rfl rfl rfl rfl rfl _
    · exact h.servicing _ hs rfl rfl rfl rfl rfl rfl
  case resetting =>
    split_ifs at hstep <;> obtain rfl := Option.some.inj hstep
    · exact h.serviced hs rfl rfl rfl rfl rfl _
    · exact h.servicing _ hs rfl rfl rfl rfl rfl rfl
  case submit => exact absurd hstep (by simp)
  case relock rv =>
    obtain rfl := Option.some.inj hstep
    cases hheld : s.iuspin.held
    · exact h.servicing (.submitted rv) hs (by simp [spinLockIrq, hheld]) rfl rfl rfl rfl rfl
    · exact h.servicing (.relock rv) hs (by simp [spinLockIrq, hheld, hs]) rfl rfl rfl rfl rfl
  case submitted rv =>
    split_ifs at hstep <;> obtain rfl := Option.some.inj hstep
    · exact h.serviced hs rfl rfl rfl rfl rfl _
    · apply h.serviced hs <;> rfl

/-- A step of `wdm_read` loses no byte, until the call returns. -/
theorem Placed.advance (h : Placed s) (hstep : s.advance usbTranslateErrors call = some t) (hs : s.pc ≠ .err) :
    Carries s t := by
  cases hpc : s.pc <;> simp only [WdmRead.advance, hpc] at hstep
  case service caller point => exact h.service_step hpc hstep
  case copied =>
    obtain rfl := Option.some.inj hstep
    have hcopied := h.copied (.inl hpc)
    cases hheld : s.iuspin.held <;>
      exact ⟨⟨by simp [spinLockIrq, hheld, hpc, ReadPoint.early], by simp [spinLockIrq, hheld, hpc],
        fun _ => hcopied, by simp [spinLockIrq, hheld, hpc]⟩, by simp [inflight, spinLockIrq, hheld, hpc], le_rfl,
        owed_le (by simp [hpc]) rfl⟩
  case shift =>
    have hcopied := h.copied (.inr hpc)
    have hbuffer : s.buffer.length = s.cntr := by
      rw [hcopied.2, List.length_take, length_pending, Nat.min_eq_left hcopied.1]
    have hbytes : s.buffer ++ s.data.pending.drop s.cntr = s.data.pending := by
      rw [hcopied.2, List.take_append_drop]
    have hinflight : s.inflight = [] := by rw [inflight, hpc]
    split_ifs at hstep <;> obtain rfl := Option.some.inj hstep
    · refine ⟨⟨by simp [goto, ReadPoint.early], by simp [goto], by simp [goto], fun _ _ => hbuffer⟩, ?_,
        Nat.sub_le _ _, owed_le (by simp [hpc]) rfl⟩
      rw [hinflight, List.nil_append, ← hbytes, ← pending_shift]
      rfl
    · refine ⟨⟨by simp [finish, ReadPoint.early], by simp [finish], by simp [finish], by simp [finish]⟩, ?_,
        Nat.sub_le _ _, owed_le (by simp [hpc]) rfl⟩
      rw [hinflight, List.nil_append, ← hbytes, ← pending_shift]
      simp [inflight, finish, ← hbuffer, spinUnlockIrq]
  case copy | returned => exact absurd hstep (by simp)
  case err => exact absurd hpc hs
  all_goals
    have hearly : s.pc.early = true := by rw [hpc]; rfl
  case length =>
    split_ifs at hstep <;> obtain rfl := Option.some.inj hstep
    · exact h.before hearly rfl rfl rfl (.inl rfl) (.inl ⟨rfl, by simp [goto]⟩)
    · exact h.before hearly rfl rfl rfl (.inl rfl) (.inl ⟨rfl, fun _ => le_rfl⟩)
  case overflow =>
    split_ifs at hstep <;> obtain rfl := Option.some.inj hstep
    · exact h.before hearly rfl rfl rfl (.inr ⟨rfl, rfl⟩) (.inr rfl)
    · exact h.before hearly rfl rfl rfl (.inl rfl) (.inl ⟨rfl, by simp [goto]⟩)
    · exact h.before hearly rfl rfl rfl (.inl rfl) (.inl ⟨rfl, by simp [goto]⟩)
  case spinLock =>
    obtain rfl := Option.some.inj hstep
    refine h.before hearly rfl rfl rfl (.inl rfl) (.inl ?_)
    cases hheld : s.iuspin.held <;> simp [spinLockIrq, hheld, hpc, ReadPoint.early]
  case reslength =>
    split_ifs at hstep <;> obtain rfl := Option.some.inj hstep
    · exact h.before hearly rfl rfl rfl (.inl rfl) (.inl ⟨rfl, by simp [goto]⟩)
    · exact h.before hearly rfl rfl rfl (.inl rfl) (.inl ⟨rfl, fun _ => le_rfl⟩)
  all_goals
    try split_ifs at hstep
    all_goals
      obtain rfl := Option.some.inj hstep
      first
        | exact h.before hearly rfl rfl rfl (.inl rfl) (.inl ⟨rfl, by simp [goto]⟩)
        | exact h.before hearly rfl rfl rfl (.inl rfl) (.inr rfl)

/-- The copy loses no byte. -/
theorem Placed.copyToUser (h : Placed s) {count left : ℕ} (hstep : s.copyToUser count left = some t) :
    Carries s t := by
  unfold WdmRead.copyToUser at hstep
  simp only at hstep
  split_ifs at hstep with hno hleft <;> obtain rfl := Option.some.inj hstep
  all_goals
    obtain ⟨hpc, hcntr⟩ := not_or.mp hno
    have hpc := not_not.mp hpc
    have hlength := h.copy hpc
    have hinflight : s.inflight = [] := by rw [inflight, hpc]
  · refine ⟨⟨by simp [fail, ReadPoint.early], by simp [fail], by simp [fail], by simp [fail]⟩, ?_, le_rfl,
      owed_le (by simp [hpc]) rfl⟩
    rw [hinflight]
    simp [inflight, fail, efault]
  · have hleft : left = 0 := by omega
    refine ⟨⟨by simp [ReadPoint.early], by simp, fun _ => ⟨(Nat.min_le_left _ _).trans hlength, ?_⟩, by simp⟩, ?_,
      le_rfl, owed_le (by simp [hpc]) rfl⟩
    · rw [pending_take ((Nat.min_le_left _ _).trans hlength), hleft, Nat.sub_zero]
    · rw [hinflight]
      rfl

/-- A signal loses no byte. -/
theorem Placed.signal (h : Placed s) (hstep : s.signal = some t) : Carries s t := by
  cases hpc : s.pc <;> simp only [WdmRead.signal, hpc, reduceCtorEq] at hstep
  case mutexLock =>
    obtain rfl := Option.some.inj hstep
    exact ⟨⟨by simp [ReadPoint.early], by simp, by simp, by simp⟩, by simp [inflight, hpc], le_rfl,
      owed_le (by simp [hpc]) rfl⟩
  case wait =>
    split_ifs at hstep
    obtain rfl := Option.some.inj hstep
    exact h.before (by rw [hpc]; rfl) rfl rfl rfl (.inl rfl) (.inl ⟨rfl, by simp⟩)

/-- The submission of the request loses no byte. -/
theorem Placed.submitted (h : Placed s) {rv : ℤ}
    (hstep : (readMachine usbTranslateErrors call).step s (.submitted rv) = some t) : Carries s t := by
  simp only [readMachine] at hstep
  split at hstep
  · rename_i caller hpc
    obtain rfl := Option.some.inj hstep
    exact h.servicing _ hpc rfl rfl rfl rfl rfl rfl
  · exact absurd hstep (by simp)

/-- A call that returns leaves the device as it is. -/
theorem returns (hpc : s.pc = .err) (hstep : s.advance usbTranslateErrors call = some t) :
    t = { s with rlock := false, pc := .returned } := by
  simp only [WdmRead.advance, hpc] at hstep
  exact (Option.some.inj hstep).symm

/-- More bytes that wait do not concern a call that is under way. -/
theorem Placed.grow (h : Placed s) {data : WdmData} {extra : List UInt8}
    (hpending : data.pending = s.data.pending ++ extra) (flags : WdmFlags) :
    Placed { s with flags := flags, data := data } := by
  have hlength : s.data.length ≤ data.length := by
    rw [← length_pending, ← length_pending, hpending, List.length_append]
    exact Nat.le_add_right _ _
  refine ⟨h.early, fun hpc => (h.copy hpc).trans hlength, fun hpc => ?_, h.lastByte⟩
  obtain ⟨hcntr, hbuffer⟩ := h.copied hpc
  refine ⟨hcntr.trans hlength, ?_⟩
  rw [hpending, List.take_append_of_le_length (by rw [length_pending]; exact hcntr)]
  exact hbuffer

end Moves

end WdmRead

/-- The invariant of readers and the device. -/
structure WdmStream.Inv (wMaxCommand : ℕ) (s : WdmStream) : Prop where
  placed : s.read.Placed
  bytes : s.accepted = s.received ++ (s.read.inflight ++ s.read.data.pending)
  bounded : s.read.data.length ≤ wMaxCommand
  gaps : s.gaps ≤ s.told + s.calledOff + s.read.owed

namespace WdmStream

variable {s t : WdmStream} {wMaxCommand : ℕ}

/-- A call that goes on keeps the invariant. -/
theorem Inv.carry (h : Inv wMaxCommand s) {read : WdmRead} (hs : s.read.pc ≠ .err)
    (hcarries : s.read.Carries read) :
    Inv wMaxCommand (s.moved read) := by
  rw [WdmStream.moved, if_neg hs]
  exact ⟨hcarries.placed, h.bytes.trans (by rw [← hcarries.bytes]), hcarries.length.trans h.bounded,
    h.gaps.trans (Nat.add_le_add_left hcarries.owed _)⟩

/-- A call that returns keeps the invariant. -/
theorem Inv.returned (h : Inv wMaxCommand s) (hs : s.read.pc = .err) :
    Inv wMaxCommand (s.moved { s.read with rlock := false, pc := .returned }) := by
  have hbytes := h.bytes
  have hgaps := h.gaps
  rw [WdmStream.moved, if_pos hs]
  refine ⟨⟨by simp [ReadPoint.early], by simp, by simp, by simp⟩, ?_, h.bounded, ?_⟩
  · simp only [WdmRead.inflight, hs] at hbytes
    simp only [WdmRead.inflight, List.nil_append, List.append_assoc]
    exact hbytes
  · simp only [WdmRead.owed, hs, true_and] at hgaps
    simp only [WdmRead.owed, reduceCtorEq, false_and, if_false]
    omega

/-- A new call keeps the invariant. -/
theorem Inv.read (h : Inv wMaxCommand s) (hs : s.read.pc = .returned) (call : ReadCall) :
    Inv wMaxCommand
      { s with call := call, read := { s.read with pc := .mutexLock, rv := 0, cntr := 0, buffer := [] } } := by
  have hbytes := h.bytes
  have hgaps := h.gaps
  refine ⟨⟨fun _ => rfl, by simp, by simp, by simp⟩, ?_, h.bounded, ?_⟩
  · simp only [WdmRead.inflight, hs] at hbytes
    simpa only [WdmRead.inflight] using hbytes
  · simp only [WdmRead.owed, hs, reduceCtorEq, false_and, if_false] at hgaps
    simpa only [WdmRead.owed, reduceCtorEq, false_and, if_false] using hgaps

/-- Whatever leaves the bytes and the overflow as they are keeps the invariant. -/
theorem Inv.aside (h : Inv wMaxCommand s) {flags : WdmFlags} {data : WdmData}
    (hlength : data.length = s.read.data.length) (hubuf : data.ubuf = s.read.data.ubuf)
    (hflag : flags.overflow = s.read.flags.overflow) :
    Inv wMaxCommand { s with read := { s.read with flags := flags, data := data } } := by
  have hpending : data.pending = s.read.data.pending := WdmRead.pending_congr hlength hubuf
  refine ⟨h.placed.grow (by rw [hpending, List.append_nil]) flags, ?_, hlength.le.trans h.bounded, ?_⟩
  · rw [hpending]
    exact h.bytes
  · have hgaps := h.gaps
    simp only [WdmRead.owed] at hgaps
    simpa only [WdmRead.owed, hflag] using hgaps

/-- A response that does not fit makes a gap, if there is none already. -/
theorem Inv.drop (h : Inv wMaxCommand s) {flags : WdmFlags} {data : WdmData}
    (hlength : data.length = s.read.data.length) (hubuf : data.ubuf = s.read.data.ubuf)
    (hflag : flags.overflow = true) :
    Inv wMaxCommand { s with
      read := { s.read with flags := flags, data := data }
      gaps := s.gaps + if s.read.flags.overflow = false then 1 else 0 } := by
  have hpending : data.pending = s.read.data.pending := WdmRead.pending_congr hlength hubuf
  refine ⟨h.placed.grow (by rw [hpending, List.append_nil]) flags, ?_, hlength.le.trans h.bounded, ?_⟩
  · rw [hpending]
    exact h.bytes
  · have hgaps := h.gaps
    simp only [WdmRead.owed] at hgaps
    simp only [WdmRead.owed, hflag, if_true]
    cases hoverflow : s.read.flags.overflow <;> simp only [hoverflow] at hgaps ⊢ <;> simp at hgaps ⊢ <;> omega

/-- A response that fits is appended. -/
theorem Inv.accept (h : Inv wMaxCommand s) {flags : WdmFlags} {data : WdmData} {inbuf : List UInt8}
    (hlength : data.length = s.read.data.length) (hubuf : data.ubuf = s.read.data.ubuf)
    (hflag : flags.overflow = s.read.flags.overflow) (hfits : inbuf.length + s.read.data.length ≤ wMaxCommand) :
    Inv wMaxCommand { s with
      read := { s.read with flags := flags, data := data.append inbuf }
      accepted := s.accepted ++ inbuf } := by
  have hpending : (data.append inbuf).pending = s.read.data.pending ++ inbuf := by
    rw [WdmRead.pending_append, WdmRead.pending_congr hlength hubuf]
  refine ⟨h.placed.grow hpending flags, ?_, ?_, ?_⟩
  · rw [hpending, h.bytes, List.append_assoc, List.append_assoc]
    rfl
  · have hcounted : (data.append inbuf).length = data.length + inbuf.length := rfl
    simp only [hcounted]
    omega
  · have hgaps := h.gaps
    simp only [WdmRead.owed] at hgaps
    simpa only [WdmRead.owed, hflag] using hgaps

/-- A response keeps the invariant, whether it is accepted or not. -/
theorem Inv.response (h : Inv wMaxCommand s) (status : ℤ) (inbuf : List UInt8) {read : WdmRead} {intake : Intake}
    (hcallback : s.read.inCallback wMaxCommand status inbuf = (read, intake)) :
    Inv wMaxCommand { s with
      read := read
      accepted := if intake = .accepted then s.accepted ++ inbuf else s.accepted
      gaps := s.gaps + if intake = .dropped ∧ s.read.flags.overflow = false then 1 else 0 } := by
  unfold WdmRead.inCallback at hcallback
  simp only at hcallback
  generalize (if (status = -enoent ∨ status = -econnreset ∨ status = -eshutdown) ∨ s.read.data.rerr ≠ 0 ∨
    status = -epipe then s.read.data.rerr else status) = rerr at hcallback
  split_ifs at hcallback with hskip hlong hoverflow <;> obtain ⟨rfl, rfl⟩ := Prod.mk.inj hcallback <;>
    simp only [reduceCtorEq, false_and, true_and, if_false, if_true, Nat.add_zero]
  · exact h.aside rfl rfl rfl
  · exact h.drop rfl rfl rfl
  · have hoverflow : s.read.flags.overflow = true := hoverflow
    simp only [hoverflow, reduceCtorEq, if_false, Nat.add_zero]
    exact h.aside rfl rfl hoverflow.symm
  · exact h.accept rfl rfl rfl (Nat.le_of_not_lt hlong)

/-- A reset calls the overflow off. -/
theorem Inv.callOff (h : Inv wMaxCommand s) (resetting : Bool) :
    Inv wMaxCommand { s with
      read := { s.read with flags := { s.read.flags with overflow := false, resetting := resetting } }
      calledOff := s.calledOff + if s.read.flags.overflow then 1 else 0 } := by
  have hgaps := h.gaps
  refine ⟨{ h.placed with }, h.bytes, h.bounded, ?_⟩
  simp only [WdmRead.owed] at hgaps ⊢
  cases hoverflow : s.read.flags.overflow <;> simp only [hoverflow] at hgaps ⊢ <;> simp at hgaps ⊢ <;> omega

/-- Every step keeps the invariant. -/
theorem Inv.step {usbTranslateErrors : ℤ → ℤ} {l : StreamStep} (h : Inv wMaxCommand s)
    (hstep : (streamMachine usbTranslateErrors wMaxCommand).step s l = some t) : Inv wMaxCommand t := by
  cases l <;> simp only [streamMachine] at hstep
  case read call =>
    split_ifs at hstep with hs
    obtain rfl := Option.some.inj hstep
    exact h.read hs call
  case run =>
    obtain ⟨read, hread, rfl⟩ := Option.map_eq_some_iff.mp hstep
    by_cases hs : s.read.pc = .err
    · rw [WdmRead.returns hs hread]
      exact h.returned hs
    · exact h.carry hs (h.placed.advance hread hs)
  case signal =>
    obtain ⟨read, hread, rfl⟩ := Option.map_eq_some_iff.mp hstep
    refine h.carry (fun hs => ?_) (h.placed.signal hread)
    simp [readMachine, WdmRead.signal, hs] at hread
  case submitted rv =>
    obtain ⟨read, hread, rfl⟩ := Option.map_eq_some_iff.mp hstep
    refine h.carry (fun hs => ?_) (h.placed.submitted hread)
    simp [readMachine, hs] at hread
  case copied left =>
    obtain ⟨read, hread, rfl⟩ := Option.map_eq_some_iff.mp hstep
    refine h.carry (fun hs => ?_) (h.placed.copyToUser hread)
    simp [readMachine, WdmRead.copyToUser, hs] at hread
  case response status inbuf =>
    rcases hcallback : s.read.inCallback wMaxCommand status inbuf with ⟨read, intake⟩
    rw [hcallback] at hstep
    obtain rfl := Option.some.inj (Option.ite_none_left_eq_some.mp hstep).2
    exact h.response status inbuf hcallback
  case postReset =>
    obtain rfl := Option.some.inj (Option.ite_none_left_eq_some.mp hstep).2
    exact h.callOff false
  case flags flags =>
    obtain rfl := Option.some.inj hstep
    exact h.aside rfl rfl rfl
  case counts rerr respCount =>
    split_ifs at hstep
    obtain rfl := Option.some.inj hstep
    exact h.aside rfl rfl rfl

/-- Nobody has read from the device, and nothing waits. -/
def start (flags : WdmFlags) (data : WdmData) : WdmStream where
  read := { wdmReadStart { flags with overflow := false } { data with length := 0 } with pc := .returned }
  call := ⟨false, 0⟩
  accepted := []
  received := []
  gaps := 0
  told := 0
  calledOff := 0

/-- The invariant holds at the start. -/
theorem Inv.start (flags : WdmFlags) (data : WdmData) : Inv wMaxCommand (start flags data) :=
  ⟨⟨by simp [WdmStream.start, ReadPoint.early], by simp [WdmStream.start], by simp [WdmStream.start],
    by simp [WdmStream.start]⟩, rfl, Nat.zero_le _, Nat.zero_le _⟩

/-- A response is read in two calls; the next one does not fit while the first waits, and the third call is told. -/
def readingSteps : List StreamStep :=
  List.flatten
    [[.response 0 [1, 2, 3, 4, 5], .read ⟨true, 3⟩], List.replicate 2 .run, [.copied 0, .response 0 [6, 7, 8, 9]],
      List.replicate 3 .run, [.read ⟨false, 8⟩], List.replicate 2 .run, [.copied 0], List.replicate 4 .run,
      [.read ⟨true, 8⟩], List.replicate 5 .run]

/-- These steps can all be taken. -/
theorem readingSteps_enabled :
    ((streamMachine usbTranslateErrors 8).run
      (start ⟨false, false, false, false, false⟩ ⟨0, 0, 0, 0, fun _ => 0⟩) readingSteps).isSome := by
  decide +kernel

/-- The device behind them. -/
def reading : WdmStream := Option.get _ readingSteps_enabled

/-- These steps lead there. -/
theorem run_reading :
    (streamMachine usbTranslateErrors 8).run
      (start ⟨false, false, false, false, false⟩ ⟨0, 0, 0, 0, fun _ => 0⟩) readingSteps = some reading :=
  Option.eq_some_of_isSome readingSteps_enabled

section Results

variable {translate : ℤ → ℤ} {flags : WdmFlags} {data : WdmData} {steps : List StreamStep}

/-- In every interleaving, what the calls have returned, what the call under way is about to return and what waits
are together what the callback accepted, the buffer never has more than it can hold, and for every response at which
the callback began to drop a reader was told, or is about to be, unless a reset called it off. -/
theorem received_faithful
    (hrun : (streamMachine translate wMaxCommand).run (start flags data) steps = some s) :
    s.accepted = s.received ++ (s.read.inflight ++ s.read.data.pending) ∧ s.read.data.length ≤ wMaxCommand ∧
      s.gaps ≤ s.told + s.calledOff + s.read.owed := by
  have hinv := (streamMachine translate wMaxCommand).run_invariant (fun _ _ _ h ht => Inv.step h ht)
    (Inv.start flags data) hrun
  exact ⟨hinv.bytes, hinv.bounded, hinv.gaps⟩

/-- Both parts of the first response were received, and the loss of the second was told. -/
theorem received_faithful_reading :
    reading.received = [1, 2, 3, 4, 5] ∧ reading.read.pc = .returned ∧ reading.gaps = 1 ∧ reading.told = 1 ∧
      reading.accepted = reading.received ++ (reading.read.inflight ++ reading.read.data.pending) ∧
      reading.read.data.length ≤ 8 ∧ reading.gaps ≤ reading.told + reading.calledOff + reading.read.owed :=
  ⟨by decide +kernel, by decide +kernel, by decide +kernel, by decide +kernel, received_faithful run_reading⟩

end Results

end WdmStream

end LinuxFunctionTest.CdcWdm
