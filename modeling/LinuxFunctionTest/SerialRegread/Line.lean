import Mathlib.Logic.Function.Basic
import Mathlib.Data.List.Forall2
import Mathlib.Data.Option.Defs
import Mathlib.Data.Nat.Notation
import Mathlib.Algebra.Order.Group.Int

/-!
# Lines from a serial port

`serial_read_line`, byte by byte. What `select` and the `read` behind it do is up to the environment; a call
that uses up the outcomes without leaving its loop is still waiting. No byte gets lost: a call skips line ends,
takes the bytes of one line as far as they come and fit, and leaves the rest to the next call. When the wait is
over it returns what it has, none or a part of a line; -1 is left to errors of `select`.
-/

namespace LinuxFunctionTest.SerialRegread

/-- `'\r'`. -/
def cr : UInt8 := 13

/-- `'\n'`. -/
def lf : UInt8 := 10

/-- The byte ends a line. -/
def isEol (c : UInt8) : Bool := c = lf || c = cr

/-- What an iteration of the loop meets: a byte that can be read, the end of the wait, a signal, a `read` that
fails, or another error of `select`. -/
inductive SelectOutcome where
  | readable
  | timeout
  | eintr
  | readFails
  | selectFails
  deriving DecidableEq

/-- The bytes that come in and are not read yet, and what the next iterations meet. -/
structure SerialPort where
  incoming : List UInt8
  outcomes : List SelectOutcome

/-- A call that returned: its result, its buffer, and the port. -/
structure LineRead where
  ret : ℤ
  buf : ℕ → UInt8
  port : SerialPort

/-- The string of a call: the first `ret` bytes of the buffer. -/
def LineRead.text (line : LineRead) : List UInt8 := (List.range line.ret.toNat).map line.buf

/-- `buf[pos] = '\0'; return pos;`. -/
def endLine (buf : ℕ → UInt8) (pos : ℕ) (port : SerialPort) : LineRead := ⟨pos, Function.update buf pos 0, port⟩

/-- The loop of `serial_read_line`. A `read` that finds nothing returns 0. -/
def serialReadLoop (maxlen : ℤ) : List SelectOutcome → List UInt8 → (ℕ → UInt8) → ℕ → Option LineRead
  | [], incoming, buf, pos => if pos < maxlen - 1 then none else some (endLine buf pos ⟨incoming, []⟩)
  | outcome :: outcomes, incoming, buf, pos =>
    if pos < maxlen - 1 then
      match outcome with
      | .eintr => serialReadLoop maxlen outcomes incoming buf pos
      | .selectFails => some ⟨-1, buf, ⟨incoming, outcomes⟩⟩
      | .timeout => some (endLine buf pos ⟨incoming, outcomes⟩)
      | .readFails => some (endLine buf pos ⟨incoming, outcomes⟩)
      | .readable =>
        match incoming with
        | [] => some (endLine buf pos ⟨[], outcomes⟩)
        | c :: incoming =>
          if isEol c then
            if 0 < pos then some (endLine buf pos ⟨incoming, outcomes⟩)
            else serialReadLoop maxlen outcomes incoming buf pos
          else serialReadLoop maxlen outcomes incoming (Function.update buf pos c) (pos + 1)
    else some (endLine buf pos ⟨incoming, outcome :: outcomes⟩)

/-- `serial_read_line` with the buffer as it is when the call is made. -/
def serialReadLine (buf : ℕ → UInt8) (maxlen : ℤ) (port : SerialPort) : Option LineRead :=
  serialReadLoop maxlen port.outcomes port.incoming buf 0

/-- Successive calls, each with a buffer and its size, and the strings they return. -/
def serialReadLines : List ((ℕ → UInt8) × ℤ) → SerialPort → Option (List (List UInt8) × SerialPort)
  | [], port => some ([], port)
  | (buf, maxlen) :: calls, port => do
    let line ← serialReadLine buf maxlen port
    let (texts, port) ← serialReadLines calls line.port
    some (line.text :: texts, port)

/-- What a call returns: as many bytes as fit at most, no line end among them, and a zero behind them. -/
structure ReturnsLine (maxlen : ℤ) (line : LineRead) : Prop where
  nonneg : 0 ≤ line.ret
  le : line.ret ≤ maxlen - 1
  terminated : line.buf line.ret.toNat = 0
  clean : ∀ c ∈ line.text, isEol c = false

/-- The bytes of one line are taken: line ends skipped before them, and one line end behind them at most. -/
structure TakesLine (incoming skipped text ended rest : List UInt8) : Prop where
  split : incoming = skipped ++ (text ++ (ended ++ rest))
  skipped_eol : ∀ c ∈ skipped, isEol c = true
  text_clean : ∀ c ∈ text, isEol c = false
  ended_eol : ∀ c ∈ ended, isEol c = true
  ended_one : ended.length ≤ 1

/-- Where a call stops that has taken `len` bytes of a line: with a full buffer, at the line end behind the line, or
where it gets no byte, because the wait is over, the `read` fails, or it finds nothing. `ended` is the line end,
`final` what got no byte, and `rest` what is left. -/
inductive Stops (maxlen : ℤ) (len : ℕ) (rest : List UInt8) :
    (ended : List UInt8) → (final : List SelectOutcome) → Prop where
  | full : len = maxlen - 1 → Stops maxlen len rest [] []
  | lineEnd (c : UInt8) : isEol c = true → 0 < len → len < maxlen - 1 → Stops maxlen len rest [c] []
  | timeout : len < maxlen - 1 → Stops maxlen len rest [] [.timeout]
  | readFails : len < maxlen - 1 → Stops maxlen len rest [] [.readFails]
  | nothing : len < maxlen - 1 → rest = [] → Stops maxlen len rest [] [.readable]

/-- The part of a line that comes in time for a call with the bytes `front` in its buffer: behind them no line end is
skipped, `body` comes until the call stops, and up to there its iterations meet a signal or take a byte. -/
structure LineComes (maxlen : ℤ) (port : SerialPort) (front skipped body ended : List UInt8)
    (used final : List SelectOutcome) (port' : SerialPort) : Prop where
  takes : TakesLine port.incoming skipped body ended port'.incoming
  skips : front ≠ [] → skipped = []
  stops : Stops maxlen (front ++ body).length port'.incoming ended final
  outcomes : port.outcomes = used ++ (final ++ port'.outcomes)
  met : ∀ o ∈ used, o = .readable ∨ o = .eintr
  count : used.count .readable = skipped.length + body.length + ended.length

/-- What a call does from here on, with the bytes `front` in its buffer: it adds to them what comes in time. -/
structure FinishesLine (maxlen : ℤ) (port : SerialPort) (front skipped body ended : List UInt8)
    (used final : List SelectOutcome) (line : LineRead) : Prop
    extends LineComes maxlen port front skipped body ended used final line.port where
  ret : line.ret = (front ++ body).length
  text : line.text = front ++ body
  terminated : line.buf line.ret.toNat = 0

/-- What a call has done whose wait is not over, with the bytes `front` in its buffer: it met signals and took
bytes, line ends and then a part of a line, and there is room for more. -/
structure WaitsForLine (maxlen : ℤ) (port : SerialPort) (front skipped body rest : List UInt8) : Prop where
  takes : TakesLine port.incoming skipped body [] rest
  skips : front ≠ [] → skipped = []
  room : front.length + body.length < maxlen - 1
  outcomes : ∀ o ∈ port.outcomes, o = .readable ∨ o = .eintr
  count : port.outcomes.count .readable = skipped.length + body.length

/-- What a call has done that has returned: it took one line, or as much of it as came and fitted, and stopped. -/
def ReadsLine (maxlen : ℤ) (port : SerialPort) (line : LineRead) : Prop :=
  ∃ skipped ended used final, FinishesLine maxlen port [] skipped line.text ended used final line

/-- What a call has done that has not returned: all that came so far is line ends and a part of a line that leaves
room in the buffer. -/
def StillWaiting (maxlen : ℤ) (port : SerialPort) : Prop :=
  ∃ skipped body rest, WaitsForLine maxlen port [] skipped body rest

/-- Bytes that no line end is among are what a filter of the line ends leaves. -/
theorem TakesLine.filter {incoming skipped text ended rest : List UInt8}
    (h : TakesLine incoming skipped text ended rest) :
    (skipped ++ (text ++ ended)).filter (fun c => !isEol c) = text := by
  have hskipped : skipped.filter (fun c => !isEol c) = [] :=
    List.filter_eq_nil_iff.mpr fun c hc => by simp [h.skipped_eol c hc]
  have htext : text.filter (fun c => !isEol c) = text :=
    List.filter_eq_self.mpr fun c hc => by simp [h.text_clean c hc]
  have hended : ended.filter (fun c => !isEol c) = [] :=
    List.filter_eq_nil_iff.mpr fun c hc => by simp [h.ended_eol c hc]
  rw [List.filter_append, List.filter_append, hskipped, htext, hended, List.nil_append, List.append_nil]

/-- A call stops when its buffer is full at the latest. -/
theorem Stops.le {len : ℕ} {rest ended : List UInt8} {final : List SelectOutcome}
    (h : Stops maxlen len rest ended final) : len ≤ maxlen - 1 := by
  cases h with
  | full hlen => exact hlen.le
  | lineEnd c heol hpos hlen => exact hlen.le
  | timeout hlen => exact hlen.le
  | readFails hlen => exact hlen.le
  | nothing hlen => exact hlen.le

/-- A call that stops with a full buffer has taken no line end. -/
theorem Stops.ended_eq_nil {len : ℕ} {rest ended : List UInt8} {final : List SelectOutcome}
    (h : Stops maxlen len rest ended final) (hfull : len = maxlen - 1) : ended = [] := by
  cases h with
  | full => rfl
  | lineEnd c heol hpos hlen => exact absurd hfull hlen.ne
  | timeout => rfl
  | readFails => rfl
  | nothing => rfl

/-- The string of a call that ends at `pos`. -/
theorem endLine_text (buf : ℕ → UInt8) (pos : ℕ) (port : SerialPort) :
    (endLine buf pos port).text = (List.range pos).map buf := by
  refine List.map_congr_left fun i hi => ?_
  have hne : i ≠ pos := (List.mem_range.mp hi).ne
  exact Function.update_of_ne hne _ _

/-- Storing a byte appends it to the string. -/
theorem map_range_update (buf : ℕ → UInt8) (pos : ℕ) (c : UInt8) :
    (List.range (pos + 1)).map (Function.update buf pos c) = (List.range pos).map buf ++ [c] := by
  rw [List.range_succ, List.map_append, List.map_singleton, Function.update_self]
  congr 1
  refine List.map_congr_left fun i hi => ?_
  exact Function.update_of_ne (List.mem_range.mp hi).ne _ _

section Loop

variable {maxlen : ℤ} {outcomes : List SelectOutcome} {incoming : List UInt8} {buf : ℕ → UInt8} {pos : ℕ}
  {line : LineRead}

/-- A call that stops adds nothing to its string. -/
theorem endLine_finishes {ended rest : List UInt8} (used : List SelectOutcome) {final : List SelectOutcome}
    (hended : ∀ c ∈ ended, isEol c = true) (hone : ended.length ≤ 1) (hstops : Stops maxlen pos rest ended final)
    (hmet : ∀ o ∈ used, o = .readable ∨ o = .eintr) (hcount : used.count .readable = ended.length) :
    FinishesLine maxlen ⟨ended ++ rest, used ++ (final ++ outcomes)⟩ ((List.range pos).map buf) [] [] ended used final
      (endLine buf pos ⟨rest, outcomes⟩) where
  takes := ⟨rfl, by simp, by simp, hended, hone⟩
  skips _ := rfl
  stops := by rwa [List.append_nil, List.length_map, List.length_range]
  outcomes := rfl
  met := hmet
  count := by simpa using hcount
  ret := by rw [List.append_nil, List.length_map, List.length_range]; rfl
  text := by rw [endLine_text, List.append_nil]
  terminated := Function.update_self _ _ _

/-- A call that stops before a byte is read takes nothing. -/
theorem endLine_stops {final : List SelectOutcome} (hstops : Stops maxlen pos incoming [] final) :
    FinishesLine maxlen ⟨incoming, final ++ outcomes⟩ ((List.range pos).map buf) [] [] [] [] final
      (endLine buf pos ⟨incoming, outcomes⟩) :=
  endLine_finishes [] (by simp) (by simp) hstops (by simp) rfl

section Iterations

variable {front skipped body ended rest : List UInt8} {used final : List SelectOutcome} {c : UInt8}

/-- A signal changes nothing. -/
theorem FinishesLine.signal (h : FinishesLine maxlen ⟨incoming, outcomes⟩ front skipped body ended used final line) :
    FinishesLine maxlen ⟨incoming, .eintr :: outcomes⟩ front skipped body ended (.eintr :: used) final line :=
  { h with
    outcomes := congrArg (.eintr :: ·) h.outcomes
    met := List.forall_mem_cons.mpr ⟨.inr rfl, h.met⟩
    count := h.count }

/-- A line end before the line is skipped. -/
theorem FinishesLine.skip (h : FinishesLine maxlen ⟨incoming, outcomes⟩ [] skipped body ended used final line)
    (heol : isEol c = true) :
    FinishesLine maxlen ⟨c :: incoming, .readable :: outcomes⟩ [] (c :: skipped) body ended (.readable :: used) final
      line :=
  { h with
    takes := { h.takes with
      split := congrArg (c :: ·) h.takes.split
      skipped_eol := List.forall_mem_cons.mpr ⟨heol, h.takes.skipped_eol⟩ }
    skips := fun hfront => absurd rfl hfront
    outcomes := congrArg (.readable :: ·) h.outcomes
    met := List.forall_mem_cons.mpr ⟨.inl rfl, h.met⟩
    count := by
      rw [List.count_cons_self, h.count, List.length_cons]
      omega }

/-- A byte of the line is stored, and no line end is skipped behind it. -/
theorem FinishesLine.store
    (h : FinishesLine maxlen ⟨incoming, outcomes⟩ (front ++ [c]) skipped body ended used final line)
    (heol : isEol c = false) :
    FinishesLine maxlen ⟨c :: incoming, .readable :: outcomes⟩ front [] (c :: body) ended (.readable :: used) final
      line := by
  obtain rfl : skipped = [] := h.skips (by simp)
  have hassoc : front ++ c :: body = front ++ [c] ++ body := List.append_cons front c body
  exact { h with
    takes := { h.takes with
      split := congrArg (c :: ·) h.takes.split
      text_clean := List.forall_mem_cons.mpr ⟨heol, h.takes.text_clean⟩ }
    skips := fun _ => rfl
    stops := hassoc ▸ h.stops
    outcomes := congrArg (.readable :: ·) h.outcomes
    met := List.forall_mem_cons.mpr ⟨.inl rfl, h.met⟩
    count := by
      rw [List.count_cons_self, h.count, List.length_cons]
      omega
    ret := hassoc ▸ h.ret
    text := hassoc ▸ h.text }

/-- A signal changes nothing for a call that waits. -/
theorem WaitsForLine.signal (h : WaitsForLine maxlen ⟨incoming, outcomes⟩ front skipped body rest) :
    WaitsForLine maxlen ⟨incoming, .eintr :: outcomes⟩ front skipped body rest :=
  { h with
    outcomes := List.forall_mem_cons.mpr ⟨.inr rfl, h.outcomes⟩
    count := h.count }

/-- A call that waits has skipped a line end. -/
theorem WaitsForLine.skip (h : WaitsForLine maxlen ⟨incoming, outcomes⟩ [] skipped body rest)
    (heol : isEol c = true) :
    WaitsForLine maxlen ⟨c :: incoming, .readable :: outcomes⟩ [] (c :: skipped) body rest :=
  { h with
    takes := { h.takes with
      split := congrArg (c :: ·) h.takes.split
      skipped_eol := List.forall_mem_cons.mpr ⟨heol, h.takes.skipped_eol⟩ }
    skips := fun hfront => absurd rfl hfront
    outcomes := List.forall_mem_cons.mpr ⟨.inl rfl, h.outcomes⟩
    count := by
      rw [List.count_cons_self, h.count, List.length_cons]
      omega }

/-- A call that waits has stored a byte. -/
theorem WaitsForLine.store (h : WaitsForLine maxlen ⟨incoming, outcomes⟩ (front ++ [c]) skipped body rest)
    (heol : isEol c = false) :
    WaitsForLine maxlen ⟨c :: incoming, .readable :: outcomes⟩ front [] (c :: body) rest := by
  obtain rfl : skipped = [] := h.skips (by simp)
  have hroom := h.room
  rw [List.length_append, List.length_singleton] at hroom
  exact { h with
    takes := { h.takes with
      split := congrArg (c :: ·) h.takes.split
      text_clean := List.forall_mem_cons.mpr ⟨heol, h.takes.text_clean⟩ }
    skips := fun _ => rfl
    room := by
      rw [List.length_cons]
      omega
    outcomes := List.forall_mem_cons.mpr ⟨.inl rfl, h.outcomes⟩
    count := by
      rw [List.count_cons_self, h.count, List.length_cons]
      omega }

end Iterations

/-- What the loop does until it returns, by induction on what its iterations meet. -/
theorem serialReadLoop_spec (hfits : pos ≤ maxlen - 1) (hselect : .selectFails ∉ outcomes ∨ 0 ≤ line.ret)
    (h : serialReadLoop maxlen outcomes incoming buf pos = some line) :
    ∃ skipped body ended used final,
      FinishesLine maxlen ⟨incoming, outcomes⟩ ((List.range pos).map buf) skipped body ended used final line := by
  induction outcomes generalizing incoming buf pos with
  | nil =>
    rw [serialReadLoop] at h
    split at h
    case isTrue => cases h
    case isFalse hfull =>
      cases h
      exact ⟨[], [], [], [], [], endLine_stops (.full (le_antisymm hfits (not_lt.mp hfull)))⟩
  | cons outcome outcomes ih =>
    have hlater : .selectFails ∉ outcomes ∨ 0 ≤ line.ret := hselect.imp_left (mt (List.mem_cons_of_mem _))
    unfold serialReadLoop at h
    split at h
    case isFalse hfull =>
      cases h
      exact ⟨[], [], [], [], [], endLine_stops (.full (le_antisymm hfits (not_lt.mp hfull)))⟩
    case isTrue hroom =>
      cases outcome with
      | eintr =>
        obtain ⟨skipped, body, ended, used, final, hline⟩ := ih hfits hlater h
        exact ⟨skipped, body, ended, .eintr :: used, final, hline.signal⟩
      | selectFails =>
        cases h
        exact hselect.elim (absurd (List.mem_cons_self ..)) fun hret => absurd hret (by simp)
      | timeout =>
        cases h
        exact ⟨[], [], [], [], [.timeout], endLine_stops (.timeout hroom)⟩
      | readFails =>
        cases h
        exact ⟨[], [], [], [], [.readFails], endLine_stops (.readFails hroom)⟩
      | readable =>
        cases incoming with
        | nil =>
          cases h
          exact ⟨[], [], [], [], [.readable], endLine_stops (.nothing hroom rfl)⟩
        | cons c incoming =>
          simp only at h
          split at h
          case isTrue heol =>
            split at h
            -- A line end behind the bytes of a line ends the call.
            case isTrue hpos =>
              cases h
              have hends : ∀ x ∈ [c], isEol x = true := by simpa using heol
              have hmet : ∀ o ∈ [SelectOutcome.readable], o = .readable ∨ o = .eintr := by simp
              exact ⟨[], [], [c], [.readable], [],
                endLine_finishes [.readable] hends le_rfl (.lineEnd c heol hpos hroom) hmet rfl⟩
            -- A line end before them is skipped.
            case isFalse hpos =>
              obtain rfl : pos = 0 := Nat.eq_zero_of_not_pos hpos
              obtain ⟨skipped, body, ended, used, final, hline⟩ := ih hfits hlater h
              exact ⟨c :: skipped, body, ended, .readable :: used, final, hline.skip heol⟩
          case isFalse heol =>
            obtain ⟨skipped, body, ended, used, final, hline⟩ := ih (by omega) hlater h
            rw [map_range_update] at hline
            exact ⟨[], c :: body, ended, .readable :: used, final, hline.store (Bool.eq_false_iff.mpr heol)⟩

/-- A call that has used up its outcomes has met bytes and signals only, and has not come to the end of a line or
of its buffer. -/
theorem waitsForLine_of_serialReadLoop (h : serialReadLoop maxlen outcomes incoming buf pos = none) :
    ∃ skipped body rest,
      WaitsForLine maxlen ⟨incoming, outcomes⟩ ((List.range pos).map buf) skipped body rest := by
  induction outcomes generalizing incoming buf pos with
  | nil =>
    rw [serialReadLoop] at h
    split at h
    case isTrue hroom => exact ⟨[], [], incoming, ⟨rfl, by simp, by simp, by simp, by simp⟩, fun _ => rfl,
      by simpa using hroom, by simp, rfl⟩
    case isFalse => cases h
  | cons outcome outcomes ih =>
    unfold serialReadLoop at h
    split at h
    case isFalse => cases h
    case isTrue =>
      cases outcome with
      | eintr =>
        obtain ⟨skipped, body, rest, hwaits⟩ := ih h
        exact ⟨skipped, body, rest, hwaits.signal⟩
      | selectFails => cases h
      | timeout => cases h
      | readFails => cases h
      | readable =>
        cases incoming with
        | nil => cases h
        | cons c incoming =>
          simp only at h
          split at h
          case isTrue heol =>
            split at h
            case isTrue => cases h
            case isFalse hpos =>
              obtain rfl : pos = 0 := Nat.eq_zero_of_not_pos hpos
              obtain ⟨skipped, body, rest, hwaits⟩ := ih h
              exact ⟨c :: skipped, body, rest, hwaits.skip heol⟩
          case isFalse heol =>
            obtain ⟨skipped, body, rest, hwaits⟩ := ih h
            rw [map_range_update] at hwaits
            exact ⟨[], c :: body, rest, hwaits.store (Bool.eq_false_iff.mpr heol)⟩

section Complete

variable {front skipped body ended : List UInt8} {used final : List SelectOutcome} {port' : SerialPort}

/-- Without a byte taken, nothing has come. -/
theorem LineComes.eq_nil (h : LineComes maxlen ⟨incoming, outcomes⟩ front skipped body ended [] final port') :
    skipped = [] ∧ body = [] ∧ ended = [] := by
  have hcount : 0 = skipped.length + body.length + ended.length := h.count
  refine ⟨List.eq_nil_of_length_eq_zero ?_, List.eq_nil_of_length_eq_zero ?_, List.eq_nil_of_length_eq_zero ?_⟩
  all_goals omega

/-- Behind a signal the same comes. -/
theorem LineComes.of_signal
    (h : LineComes maxlen ⟨incoming, .eintr :: outcomes⟩ front skipped body ended (.eintr :: used) final port') :
    LineComes maxlen ⟨incoming, outcomes⟩ front skipped body ended used final port' :=
  { h with
    outcomes := (List.cons.inj h.outcomes).2
    met := (List.forall_mem_cons.mp h.met).2
    count := h.count }

/-- Behind a line end that is skipped the rest of the line comes. -/
theorem LineComes.of_skip {c d : UInt8} (h : LineComes maxlen ⟨c :: incoming, .readable :: outcomes⟩ []
    (d :: skipped) body ended (.readable :: used) final port') :
    LineComes maxlen ⟨incoming, outcomes⟩ [] skipped body ended used final port' :=
  { h with
    takes := { h.takes with
      split := (List.cons.inj h.takes.split).2
      skipped_eol := (List.forall_mem_cons.mp h.takes.skipped_eol).2 }
    skips := fun hfront => absurd rfl hfront
    outcomes := (List.cons.inj h.outcomes).2
    met := (List.forall_mem_cons.mp h.met).2
    count := by
      have hcount := h.count
      rw [List.count_cons_self, List.length_cons] at hcount
      omega }

/-- Behind a byte of the line the rest of it comes. -/
theorem LineComes.of_store {c d : UInt8} (h : LineComes maxlen ⟨c :: incoming, .readable :: outcomes⟩ front []
    (d :: body) ended (.readable :: used) final port') :
    LineComes maxlen ⟨incoming, outcomes⟩ (front ++ [d]) [] body ended used final port' :=
  { h with
    takes := { h.takes with
      split := (List.cons.inj h.takes.split).2
      text_clean := (List.forall_mem_cons.mp h.takes.text_clean).2 }
    skips := fun _ => rfl
    stops := List.append_cons front d body ▸ h.stops
    outcomes := (List.cons.inj h.outcomes).2
    met := (List.forall_mem_cons.mp h.met).2
    count := by
      have hcount := h.count
      rw [List.count_cons_self, List.length_cons] at hcount
      omega }

/-- The call returns, with this behind the bytes in its buffer. -/
def ReturnsWith (maxlen : ℤ) (outcomes : List SelectOutcome) (incoming : List UInt8) (buf : ℕ → UInt8) (pos : ℕ)
    (body : List UInt8) : Prop :=
  ∃ line, serialReadLoop maxlen outcomes incoming buf pos = some line ∧ line.text = (List.range pos).map buf ++ body ∧
    0 ≤ line.ret

/-- A call that ends at once returns what is in its buffer. -/
theorem returnsWith_nil (rest : SerialPort)
    (h : serialReadLoop maxlen outcomes incoming buf pos = some (endLine buf pos rest)) :
    ReturnsWith maxlen outcomes incoming buf pos [] :=
  ⟨_, h, by rw [endLine_text, List.append_nil], Int.natCast_nonneg pos⟩

/-- A call with a full buffer ends at once. -/
theorem returnsWith_full (h : ¬pos < maxlen - 1) : ReturnsWith maxlen outcomes incoming buf pos [] := by
  cases outcomes with
  | nil => exact returnsWith_nil _ (if_neg h)
  | cons outcome outcomes =>
    refine returnsWith_nil ⟨incoming, outcome :: outcomes⟩ ?_
    unfold serialReadLoop
    exact if_neg h

/-- A call that gets no byte any more returns what is in its buffer. -/
theorem LineComes.returnsWith_stopped
    (h : LineComes maxlen ⟨incoming, outcomes⟩ ((List.range pos).map buf) skipped body ended [] final port') :
    ReturnsWith maxlen outcomes incoming buf pos body := by
  obtain ⟨rfl, rfl, rfl⟩ := h.eq_nil
  obtain rfl : outcomes = final ++ port'.outcomes := h.outcomes
  obtain rfl : incoming = port'.incoming := h.takes.split
  have hstops := h.stops
  rw [List.append_nil, List.length_map, List.length_range] at hstops
  generalize hrest : port'.incoming = rest at hstops ⊢
  cases hstops with
  | full hfull => exact returnsWith_full hfull.not_lt
  | timeout hroom => exact returnsWith_nil _ (if_pos hroom)
  | readFails hroom => exact returnsWith_nil _ (if_pos hroom)
  | nothing hroom hnone =>
    subst hnone
    exact returnsWith_nil _ (if_pos hroom)

/-- A call that gets the line end behind the line returns. -/
theorem LineComes.returnsWith_lineEnd (h : LineComes maxlen ⟨incoming, .readable :: outcomes⟩
    ((List.range pos).map buf) [] [] ended (.readable :: used) final port') (hroom : pos < maxlen - 1) :
    ReturnsWith maxlen (.readable :: outcomes) incoming buf pos [] := by
  have hcount := h.count
  rw [List.count_cons_self] at hcount
  obtain ⟨c, rfl⟩ : ∃ c, ended = [c] :=
    List.length_eq_one_iff.mp (le_antisymm h.takes.ended_one (by simp at hcount; omega))
  obtain rfl : incoming = c :: port'.incoming := h.takes.split
  have heol : isEol c = true := h.takes.ended_eol c (List.mem_singleton_self c)
  have hpos : 0 < pos := by
    have hstops := h.stops
    rw [List.append_nil, List.length_map, List.length_range] at hstops
    cases hstops with
    | lineEnd _ _ hpos => exact hpos
  refine returnsWith_nil ⟨port'.incoming, outcomes⟩ ?_
  rw [serialReadLoop, if_pos hroom]
  simp only [if_pos heol, if_pos hpos]

/-- The part of a line that comes in time is what the call returns, by induction on what its iterations meet. -/
theorem LineComes.returnsWith
    (h : LineComes maxlen ⟨incoming, outcomes⟩ ((List.range pos).map buf) skipped body ended used final port') :
    ReturnsWith maxlen outcomes incoming buf pos body := by
  induction used generalizing incoming outcomes buf pos skipped body with
  | nil => exact h.returnsWith_stopped
  | cons outcome used ih =>
    have hlen := h.stops.le
    rw [List.length_append, List.length_map, List.length_range] at hlen
    obtain rfl | ⟨outcomes, rfl⟩ : outcomes = [] ∨ ∃ later, outcomes = outcome :: later := by
      cases outcomes with
      | nil => exact .inl rfl
      | cons o later => exact .inr ⟨later, by rw [(List.cons.inj h.outcomes).1]⟩
    · cases h.outcomes
    by_cases hroom : pos < maxlen - 1
    case neg =>
      obtain rfl : body = [] := List.eq_nil_of_length_eq_zero (by omega)
      exact returnsWith_full hroom
    case pos =>
      obtain rfl | rfl := (List.forall_mem_cons.mp h.met).1
      case inr =>
        obtain ⟨line, hline, htext, hret⟩ := ih h.of_signal
        refine ⟨line, ?_, htext, hret⟩
        rw [serialReadLoop, if_pos hroom]
        exact hline
      case inl =>
        have hsplit : incoming = skipped ++ (body ++ (ended ++ port'.incoming)) := h.takes.split
        cases skipped with
        | cons c skipped =>
          subst hsplit
          have heol : isEol c = true := (List.forall_mem_cons.mp h.takes.skipped_eol).1
          obtain rfl : pos = 0 := by
            by_contra hpos
            refine absurd (h.skips fun hnil => hpos ?_) (List.cons_ne_nil _ _)
            simpa using hnil
          have hlater : LineComes maxlen ⟨skipped ++ (body ++ (ended ++ port'.incoming)), outcomes⟩
              ((List.range 0).map buf) skipped body ended used final port' := h.of_skip (c := c)
          obtain ⟨line, hline, htext, hret⟩ := ih hlater
          refine ⟨line, ?_, htext, hret⟩
          rw [List.cons_append, serialReadLoop, if_pos hroom]
          simp only [if_pos heol, if_neg (lt_irrefl 0)]
          exact hline
        | nil =>
          cases body with
          | cons c body =>
            subst hsplit
            have heol : isEol c = false := (List.forall_mem_cons.mp h.takes.text_clean).1
            have hlater := h.of_store (c := c)
            rw [← map_range_update] at hlater
            obtain ⟨line, hline, htext, hret⟩ := ih hlater
            refine ⟨line, ?_, by rw [htext, map_range_update, List.append_assoc, List.singleton_append], hret⟩
            rw [List.nil_append, List.cons_append, serialReadLoop, if_pos hroom]
            simp only [heol, Bool.false_eq_true, if_false]
            exact hline
          | nil => exact h.returnsWith_lineEnd hroom

end Complete

end Loop

section Streams

variable {maxlen : ℤ} {outcomes : List SelectOutcome} {incoming incoming' : List UInt8} {buf buf' : ℕ → UInt8}
  {pos : ℕ} {R : UInt8 → UInt8 → Prop}

/-- Two results that nothing tells apart but the bytes, which are related one by one. -/
structure LineRead.Rel (R : UInt8 → UInt8 → Prop) (line line' : LineRead) : Prop where
  ret : line.ret = line'.ret
  text : List.Forall₂ R line.text line'.text
  incoming : List.Forall₂ R line.port.incoming line'.port.incoming
  outcomes : line.port.outcomes = line'.port.outcomes

/-- Calls that end on related bytes return related results. -/
theorem endLine_rel (hbuf : List.Forall₂ R ((List.range pos).map buf) ((List.range pos).map buf'))
    (hincoming : List.Forall₂ R incoming incoming') :
    Option.Rel (LineRead.Rel R) (some (endLine buf pos ⟨incoming, outcomes⟩))
      (some (endLine buf' pos ⟨incoming', outcomes⟩)) :=
  .some ⟨rfl, by rwa [endLine_text, endLine_text], hincoming, rfl⟩

/-- The loop asks of a byte only whether it ends a line: on streams that agree in this it does the same. -/
theorem serialReadLoop_rel (hR : ∀ c d, R c d → isEol c = isEol d)
    (hbuf : List.Forall₂ R ((List.range pos).map buf) ((List.range pos).map buf'))
    (hincoming : List.Forall₂ R incoming incoming') :
    Option.Rel (LineRead.Rel R) (serialReadLoop maxlen outcomes incoming buf pos)
      (serialReadLoop maxlen outcomes incoming' buf' pos) := by
  induction outcomes generalizing incoming incoming' buf buf' pos with
  | nil =>
    unfold serialReadLoop
    split
    · exact .none
    · exact endLine_rel hbuf hincoming
  | cons outcome outcomes ih =>
    unfold serialReadLoop
    split
    case isFalse => exact endLine_rel hbuf hincoming
    case isTrue =>
      cases outcome with
      | eintr => exact ih hbuf hincoming
      | selectFails => exact .some ⟨rfl, .nil, hincoming, rfl⟩
      | timeout => exact endLine_rel hbuf hincoming
      | readFails => exact endLine_rel hbuf hincoming
      | readable =>
        cases hincoming with
        | nil => exact endLine_rel hbuf .nil
        | @cons c d incoming incoming' hcd hincoming =>
          simp only [hR c d hcd]
          split
          · split
            · exact endLine_rel hbuf hincoming
            · exact ih hbuf hincoming
          · refine ih ?_ hincoming
            rw [map_range_update, map_range_update]
            exact List.rel_append hbuf (.cons hcd .nil)

/-- A result that is the same for all bytes behind those that a call can see. -/
def Uniform (result : List UInt8 → Option LineRead) : Prop :=
  (∀ back, result back = none) ∨
    ∃ ret buf left rest, ∀ back, result back = some ⟨ret, buf, ⟨left ++ back, rest⟩⟩

/-- A call that ends before a line end looks no further. -/
theorem uniform_some (ret : ℤ) (buf : ℕ → UInt8) (front : List UInt8) (c : UInt8) (rest : List SelectOutcome) :
    Uniform fun back => some ⟨ret, buf, ⟨front ++ c :: back, rest⟩⟩ :=
  .inr ⟨ret, buf, front ++ [c], rest, fun back => by simp only [List.append_assoc, List.singleton_append]⟩

/-- A call does not look behind the end of its line: what it returns is the same whatever comes there. -/
theorem serialReadLoop_uniform {c : UInt8} (hc : isEol c = true) (front : List UInt8)
    (hline : pos = 0 → ∃ d ∈ front, isEol d = false) :
    Uniform fun back => serialReadLoop maxlen outcomes (front ++ c :: back) buf pos := by
  induction outcomes generalizing front buf pos with
  | nil =>
    unfold serialReadLoop
    split
    · exact .inl fun _ => rfl
    · exact uniform_some ..
  | cons outcome outcomes ih =>
    unfold serialReadLoop
    split
    case isFalse => exact uniform_some ..
    case isTrue =>
      cases outcome with
      | eintr => exact ih front hline
      | selectFails => exact uniform_some ..
      | timeout => exact uniform_some ..
      | readFails => exact uniform_some ..
      | readable =>
        cases front with
        | nil =>
          have hpos : 0 < pos := Nat.pos_of_ne_zero fun h => by simpa using hline h
          simp only [List.nil_append, hc, if_true, if_pos hpos]
          exact .inr ⟨_, _, [], _, fun _ => rfl⟩
        | cons d front =>
          simp only [List.cons_append]
          split
          case isTrue hd =>
            split
            · exact uniform_some ..
            case isFalse hpos =>
              refine ih front fun h => ?_
              obtain ⟨e, he, hnot⟩ := hline h
              obtain rfl | he := List.mem_cons.mp he
              · exact absurd hd (by simp [hnot])
              · exact ⟨e, he, hnot⟩
          case isFalse => exact ih front fun h => absurd h (Nat.succ_ne_zero pos)

end Streams

section Calls

variable {buf : ℕ → UInt8} {maxlen : ℤ} {port : SerialPort} {line : LineRead}

/-- What a call with room for the terminating zero does. -/
theorem serialReadLine_spec (hmaxlen : 1 ≤ maxlen) (hselect : .selectFails ∉ port.outcomes ∨ 0 ≤ line.ret)
    (h : serialReadLine buf maxlen port = some line) : ReadsLine maxlen port line := by
  obtain ⟨skipped, body, ended, used, final, hline⟩ := serialReadLoop_spec (by simpa using hmaxlen) hselect h
  have htext : line.text = body := hline.text
  exact ⟨skipped, ended, used, final, htext ▸ hline⟩

/-- What a call returns is well formed. -/
theorem ReadsLine.returns (h : ReadsLine maxlen port line) : ReturnsLine maxlen line := by
  obtain ⟨skipped, ended, used, final, hline⟩ := h
  have hret := hline.ret
  exact ⟨by omega, hret ▸ hline.stops.le, hline.terminated, hline.takes.text_clean⟩

/-- A call whose buffer is full has taken nothing behind its string. -/
theorem ReadsLine.splits (h : ReadsLine maxlen port line) (hfull : line.ret = maxlen - 1) :
    ∃ skipped, port.incoming = skipped ++ (line.text ++ line.port.incoming) ∧ ∀ c ∈ skipped, isEol c = true := by
  obtain ⟨skipped, ended, used, final, hline⟩ := h
  have hended : ended = [] := hline.stops.ended_eq_nil (hline.ret ▸ hfull)
  refine ⟨skipped, ?_, hline.takes.skipped_eol⟩
  rw [hline.takes.split, hended, List.nil_append]

/-- The strings of successive calls are the bytes these calls consumed, without the line ends. -/
theorem serialReadLines_flatten {calls : List ((ℕ → UInt8) × ℤ)} (hmaxlen : ∀ call ∈ calls, 1 ≤ call.2)
    (hselect : .selectFails ∉ port.outcomes) {texts : List (List UInt8)} {rest : SerialPort}
    (h : serialReadLines calls port = some (texts, rest)) :
    ∃ consumed, port.incoming = consumed ++ rest.incoming ∧
      texts.flatten = consumed.filter (fun c => !isEol c) := by
  induction calls generalizing port texts with
  | nil =>
    cases h
    exact ⟨[], rfl, rfl⟩
  | cons call calls ih =>
    obtain ⟨buf, maxlen⟩ := call
    obtain ⟨hfirst, hcalls⟩ := List.forall_mem_cons.mp hmaxlen
    simp only [serialReadLines, Option.bind_eq_bind, Option.bind_eq_some_iff, Option.some.injEq,
      Prod.exists, Prod.mk.injEq] at h
    obtain ⟨line, hline, later, rest', hlater, rfl, rfl⟩ := h
    obtain ⟨skipped, ended, used, final, hspec⟩ := serialReadLine_spec hfirst (.inl hselect) hline
    have hselect' : .selectFails ∉ line.port.outcomes := fun hmem => hselect <| by
      rw [hspec.outcomes]
      exact List.mem_append_right _ (List.mem_append_right _ hmem)
    obtain ⟨consumed, hconsumed, hflatten⟩ := ih hcalls hselect' hlater
    refine ⟨skipped ++ (line.text ++ ended) ++ consumed, ?_, ?_⟩
    · rw [hspec.takes.split, hconsumed]
      simp only [List.append_assoc]
    · rw [List.flatten_cons, hflatten, List.filter_append, hspec.takes.filter]

end Calls

/-- **Lines without loss.** As long as `select` does not fail, a call that has not returned is still waiting; one
that has returned holds a line that is well formed, stopped at the end of a line, with a full buffer, or where it
got no byte, and took the bytes up to there; a line that fills the buffer goes on with the next call; and the
strings of successive calls are the bytes they consumed without the line ends. -/
theorem serialReadLine_lossless (port : SerialPort) (hselect : .selectFails ∉ port.outcomes) :
    (∀ buf maxlen, 1 ≤ maxlen →
      match serialReadLine buf maxlen port with
      | none => StillWaiting maxlen port
      | some line => ReturnsLine maxlen line ∧ ReadsLine maxlen port line ∧ (line.ret = maxlen - 1 →
          ∃ skipped, port.incoming = skipped ++ (line.text ++ line.port.incoming) ∧
            ∀ c ∈ skipped, isEol c = true)) ∧
    ∀ calls : List ((ℕ → UInt8) × ℤ), (∀ call ∈ calls, 1 ≤ call.2) →
      ∀ texts rest, serialReadLines calls port = some (texts, rest) →
        ∃ consumed, port.incoming = consumed ++ rest.incoming ∧
          texts.flatten = consumed.filter (fun c => !isEol c) := by
  refine ⟨fun buf maxlen hmaxlen => ?_, fun calls hmaxlen texts rest h => serialReadLines_flatten hmaxlen hselect h⟩
  split
  · exact waitsForLine_of_serialReadLoop ‹_›
  · have hreads := serialReadLine_spec hmaxlen (.inl hselect) ‹_›
    exact ⟨hreads.returns, hreads, hreads.splits⟩

/-- `"abc\r\nd"` through a buffer of three bytes, with a signal and the end of a wait. -/
def abcPort : SerialPort :=
  ⟨[97, 98, 99, cr, lf, 100], [.readable, .eintr, .readable, .readable, .readable, .readable, .readable, .timeout]⟩

/-- The calls return `"ab"`, `"c"` and `"d"`. -/
theorem serialReadLine_lossless_abc :
    serialReadLines [(fun _ => 0, 3), (fun _ => 0, 3), (fun _ => 0, 3)] abcPort =
      some ([[97, 98], [99], [100]], ⟨[], []⟩) ∧
    (∃ consumed, abcPort.incoming = consumed ++ [] ∧
      List.flatten [[97, 98], [99], [100]] = consumed.filter (fun c => !isEol c)) ∧
    ∃ line, serialReadLine (fun _ => 0) 3 abcPort = some line ∧ ReadsLine 3 abcPort line :=
  ⟨rfl, (serialReadLine_lossless abcPort (by decide)).2 [(fun _ => 0, 3), (fun _ => 0, 3), (fun _ => 0, 3)]
    (by decide) [[97, 98], [99], [100]] ⟨[], []⟩ rfl,
    _, rfl, ((serialReadLine_lossless abcPort (by decide)).1 (fun _ => 0) 3 (by decide)).2.1⟩

end LinuxFunctionTest.SerialRegread
