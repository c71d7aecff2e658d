import LinuxFunctionTest.SerialRegread.Line
import LinuxFunctionTest.SerialRegread.Devmem

/-!
# Registers read one after the other

`read_registers` writes a command for each register, skips a line, parses the next one and waits for a prompt.
The device answers each command with its echo, the value and a prompt, in this order; when the bytes arrive, and
which of the reads gives up before, is what the outcomes of `select` say. Nothing but the count of lines tells
which answer a line belongs to.
-/

namespace LinuxFunctionTest.SerialRegread

open Scanf

/-- `RegInfo`. The name is only printed. -/
structure RegInfo where
  addr : ℕ

/-- `MAX_LINE`. -/
def maxLine : ℤ := 256

/-- `PROMPT_TIMEOUT_MS`. -/
def promptTimeoutMs : ℤ := 2000

/-- The string in a buffer ends at its first zero. -/
def LineRead.string (line : LineRead) : List UInt8 := line.text.takeWhile (· ≠ 0)

/-- What has not come in yet, and what `time(NULL)` returns next. -/
structure Session where
  port : SerialPort
  clock : List ℤ

/-- `serial_read_line` into a buffer of `MAX_LINE` bytes. What is in the buffer before does not reach the string. -/
def readLine (port : SerialPort) : Option LineRead := serialReadLine (fun _ => 0) maxLine port

/-- `strchr(line, '#') || strchr(line, '$')`. -/
def hasPrompt (line : LineRead) : Prop := 35 ∈ line.string ∨ 36 ∈ line.string

instance (line : LineRead) : Decidable (hasPrompt line) := inferInstanceAs (Decidable (_ ∨ _))

/-- The loop of `wait_for_prompt`, once for each time it asks for the time. -/
def promptLoop (startTime timeoutMs : ℤ) : List ℤ → SerialPort → Option (ℤ × Session)
  | [], _ => none
  | now :: clock, port =>
    if now - startTime < timeoutMs.tdiv 1000 then
      match readLine port with
      | none => none
      | some line =>
        if 0 < line.ret ∧ hasPrompt line then some (0, ⟨line.port, clock⟩)
        else promptLoop startTime timeoutMs clock line.port
    else some (-1, ⟨port, clock⟩)

/-- `wait_for_prompt`: the time it starts at is kept in an `int`. -/
def waitForPrompt (timeoutMs : ℤ) (session : Session) : Option (ℤ × Session) :=
  match session.clock with
  | [] => none
  | now :: clock => promptLoop (now.bmod (2 ^ 32)) timeoutMs clock session.port

/-- `"devmem 0x%lx"`. -/
def devmemCommand (addr : ℕ) : List UInt8 :=
  [100, 101, 118, 109, 101, 109, 32, 48, 120] ++ (Nat.toDigits 16 addr).map fun c => UInt8.ofNat c.toNat

/-- The answer to a command: its echo, the value, and a prompt. -/
def answer (addr : ℕ) (digits prompt : List UInt8) : List UInt8 :=
  devmemCommand addr ++ cr :: lf :: (zeroX ++ digits ++ cr :: lf :: prompt)

/-- An iteration of `read_registers`: the port as it is when the line with the value is to be read, and
`values[i]`. -/
structure RegisterRead where
  port : SerialPort
  value : ℕ

/-- An iteration of `read_registers`. -/
def readRegister (reg : RegInfo) (digits prompt : List UInt8) (session : Session) :
    Option (RegisterRead × Session) := do
  let incoming := session.port.incoming ++ answer reg.addr digits prompt
  let echo ← readLine { session.port with incoming := incoming }
  let line ← readLine echo.port
  let value := if 0 < line.ret then parseDevmemOutput line.string else 0
  let (_, session) ← waitForPrompt promptTimeoutMs ⟨line.port, session.clock⟩
  some (⟨echo.port, value⟩, session)

/-- `read_registers` from the register `i` on. -/
def readRegisters (contents prompts : ℕ → List UInt8) :
    ℕ → List RegInfo → Session → Option (List RegisterRead × Session)
  | _, [], session => some ([], session)
  | i, reg :: regs, session => do
    let (read, session) ← readRegister reg (contents i) (prompts i) session
    let (reads, session) ← readRegisters contents prompts (i + 1) regs session
    some (read :: reads, session)

/-- Every value is 0 or the one that the device printed for the register, whatever the registers hold. -/
def ValuesRight (regs : List RegInfo) (prompts : ℕ → List UInt8) (session : Session) : Prop :=
  ∀ contents, (∀ i, IsDigits (contents i)) → ∀ reads session',
    readRegisters contents prompts 0 regs session = some (reads, session') →
      ∀ i read, reads[i]? = some read → read.value = 0 ∨ read.value = hexValue (contents i)

/-- The complete line with this value is next, behind line ends, and all of it comes before the wait is over. -/
def ValueComes (digits : List UInt8) (port : SerialPort) : Prop :=
  ∃ ends back used later, port.incoming = ends ++ (zeroX ++ digits ++ cr :: back) ∧ (∀ c ∈ ends, isEol c = true) ∧
    port.outcomes = used ++ later ∧ (∀ o ∈ used, o = .readable ∨ o = .eintr) ∧
    ends.length + (digits.length + 2) ≤ used.count .readable

/-- In the part of a line that comes before the wait is over, nothing reads as a number but 0. -/
def NoNumberComes (port : SerialPort) : Prop :=
  ∀ skipped text ended used final port', LineComes maxLine port [] skipped text ended used final port' →
    SpellsOnly (words (text.takeWhile (· ≠ 0))) 0

/-- The device answers in step: when the line with a value is to be read, whatever the registers hold, this line
comes and is complete, or nothing comes that reads as a number but 0. -/
def AnswersInStep (regs : List RegInfo) (prompts : ℕ → List UInt8) (session : Session) : Prop :=
  ∀ contents, (∀ i, IsDigits (contents i)) → ∀ reads session',
    readRegisters contents prompts 0 regs session = some (reads, session') →
      ∀ i read, reads[i]? = some read → ValueComes (contents i) read.port ∨ NoNumberComes read.port

section Similar

/-- Bytes that the control flow does not tell apart: the same byte, or two digits. -/
def Similar (c d : UInt8) : Prop := c = d ∨ isHex c = true ∧ isHex d = true

/-- Ports that differ in digits only. -/
structure SerialPort.Similar (port port' : SerialPort) : Prop where
  incoming : List.Forall₂ SerialRegread.Similar port.incoming port'.incoming
  outcomes : port.outcomes = port'.outcomes

/-- Sessions that differ in digits only. -/
structure Session.Similar (session session' : Session) : Prop where
  port : session.port.Similar session'.port
  clock : session.clock = session'.clock

/-- A byte that is no digit is similar to itself only. -/
theorem Similar.eq_iff {c d e : UInt8} (h : Similar c d) (he : isHex e = false) : c = e ↔ d = e := by
  obtain rfl | ⟨hc, hd⟩ := h
  · rfl
  · refine iff_of_false ?_ ?_
    · rintro rfl
      exact absurd hc (by simp [he])
    · rintro rfl
      exact absurd hd (by simp [he])

/-- A digit ends no line. -/
theorem Similar.isEol_eq {c d : UInt8} (h : Similar c d) : isEol c = isEol d := by
  simp only [isEol, h.eq_iff (show isHex lf = false by decide), h.eq_iff (show isHex cr = false by decide)]

/-- Every byte is similar to itself. -/
theorem similar_refl (s : List UInt8) : List.Forall₂ Similar s s := List.forall₂_same.mpr fun _ _ => .inl rfl

/-- Rows of digits of one length are similar. -/
theorem similar_of_isHex {digits digits' : List UInt8} (hdigits : ∀ c ∈ digits, isHex c = true)
    (hdigits' : ∀ c ∈ digits', isHex c = true) (hlen : digits.length = digits'.length) :
    List.Forall₂ Similar digits digits' := by
  refine List.forall₂_iff_get.mpr ⟨hlen, fun i h h' => .inr ⟨?_, ?_⟩⟩
  · exact hdigits _ (List.get_mem ..)
  · exact hdigits' _ (List.get_mem ..)

/-- The answers to a command are similar when the values are. -/
theorem similar_answer {digits digits' : List UInt8} (h : List.Forall₂ Similar digits digits') (addr : ℕ)
    (prompt : List UInt8) : List.Forall₂ Similar (answer addr digits prompt) (answer addr digits' prompt) := by
  refine List.rel_append (similar_refl _) (.cons (.inl rfl) (.cons (.inl rfl) ?_))
  exact List.rel_append (List.rel_append (similar_refl _) h) (similar_refl _)

/-- A byte that is no digit and not zero stands in both of two similar strings, or in none. -/
theorem mem_takeWhile_similar {s s' : List UInt8} (h : List.Forall₂ Similar s s') {e : UInt8}
    (he : isHex e = false) : e ∈ s.takeWhile (· ≠ 0) ↔ e ∈ s'.takeWhile (· ≠ 0) := by
  induction h with
  | nil => rfl
  | @cons c d s s' hcd _ ih =>
    have hzero := hcd.eq_iff (show isHex 0 = false by decide)
    by_cases hc : c = 0
    · rw [List.takeWhile_cons_of_neg (by simpa using hc), List.takeWhile_cons_of_neg (by simpa using hzero.mp hc)]
    · have hd : d ≠ 0 := mt hzero.mpr hc
      rw [List.takeWhile_cons_of_pos (by simpa using hc), List.takeWhile_cons_of_pos (by simpa using hd),
        List.mem_cons, List.mem_cons, ih, eq_comm, hcd.eq_iff he, eq_comm]

/-- Similar strings have a prompt in them, or both have none. -/
theorem hasPrompt_similar {line line' : LineRead} (h : List.Forall₂ Similar line.text line'.text) :
    hasPrompt line ↔ hasPrompt line' :=
  or_congr (mem_takeWhile_similar h (by decide)) (mem_takeWhile_similar h (by decide))

/-- A call on similar bytes returns when the other does, with similar bytes. -/
theorem readLine_similar {port port' : SerialPort} (hport : port.Similar port') {line : LineRead}
    (h : readLine port = some line) :
    ∃ line', readLine port' = some line' ∧ line.ret = line'.ret ∧ List.Forall₂ Similar line.text line'.text ∧
      line.port.Similar line'.port := by
  have hrel : Option.Rel (LineRead.Rel Similar) (readLine port) (readLine port') := by
    unfold readLine serialReadLine
    rw [← hport.outcomes]
    exact serialReadLoop_rel (fun c d hcd => hcd.isEol_eq) .nil hport.incoming
  rw [h] at hrel
  cases hline' : readLine port' with
  | none => rw [hline'] at hrel; cases hrel
  | some line' =>
    rw [hline'] at hrel
    cases hrel with
    | some hrel => exact ⟨line', rfl, hrel.ret, hrel.text, hrel.incoming, hrel.outcomes⟩

/-- The wait for a prompt ends the same way on similar bytes. -/
theorem promptLoop_similar {startTime timeoutMs : ℤ} {clock : List ℤ} {port port' : SerialPort}
    (hport : port.Similar port') {ret : ℤ} {session : Session}
    (h : promptLoop startTime timeoutMs clock port = some (ret, session)) :
    ∃ session', promptLoop startTime timeoutMs clock port' = some (ret, session') ∧ session.Similar session' := by
  induction clock generalizing port port' with
  | nil => cases h
  | cons now clock ih =>
    rw [promptLoop] at h ⊢
    split at h
    case isFalse hlate =>
      cases h
      exact ⟨⟨port', clock⟩, if_neg hlate, hport, rfl⟩
    case isTrue hearly =>
      rw [if_pos hearly]
      split at h
      · cases h
      · next line hline =>
        obtain ⟨line', hline', hret, htext, hleft⟩ := readLine_similar hport hline
        simp only [hline', ← hret, ← hasPrompt_similar htext]
        split at h
        case isTrue hprompt =>
          cases h
          exact ⟨⟨line'.port, clock⟩, if_pos hprompt, hleft, rfl⟩
        case isFalse hprompt =>
          rw [if_neg hprompt]
          exact ih hleft h

/-- The wait for a prompt, from similar sessions. -/
theorem waitForPrompt_similar {timeoutMs : ℤ} {session₀ session₀' session : Session}
    (hsession : session₀.Similar session₀') {ret : ℤ} (h : waitForPrompt timeoutMs session₀ = some (ret, session)) :
    ∃ session', waitForPrompt timeoutMs session₀' = some (ret, session') ∧ session.Similar session' := by
  unfold waitForPrompt at h ⊢
  rw [← hsession.clock]
  split at h
  · cases h
  · exact promptLoop_similar hsession.port h

/-- What an iteration reads, call by call. -/
theorem readRegister_eq_some_iff {reg : RegInfo} {digits prompt : List UInt8} {session session' : Session}
    {read : RegisterRead} : readRegister reg digits prompt session = some (read, session') ↔
      ∃ echo line ret, readLine ⟨session.port.incoming ++ answer reg.addr digits prompt, session.port.outcomes⟩ =
          some echo ∧ readLine echo.port = some line ∧
        waitForPrompt promptTimeoutMs ⟨line.port, session.clock⟩ = some (ret, session') ∧
        read = ⟨echo.port, if 0 < line.ret then parseDevmemOutput line.string else 0⟩ := by
  simp only [readRegister, Option.bind_eq_bind, Option.bind_eq_some_iff, Option.some.injEq, Prod.exists,
    Prod.mk.injEq]
  constructor
  · rintro ⟨echo, hecho, line, hline, ret, session'', hwait, hread, rfl⟩
    exact ⟨echo, line, ret, hecho, hline, hwait, hread.symm⟩
  · rintro ⟨echo, line, ret, hecho, hline, hwait, hread⟩
    exact ⟨echo, hecho, line, hline, ret, session', hwait, hread.symm, rfl⟩

/-- An iteration on similar bytes ends when the other does, in similar sessions. -/
theorem readRegister_similar {reg : RegInfo} {digits digits' prompt : List UInt8}
    {session session' session₁ : Session} (hdigits : List.Forall₂ Similar digits digits')
    (hsession : session.Similar session') {read : RegisterRead}
    (h : readRegister reg digits prompt session = some (read, session₁)) :
    ∃ read' session₁', readRegister reg digits' prompt session' = some (read', session₁') ∧
      session₁.Similar session₁' := by
  obtain ⟨echo, line, ret, hecho, hline, hwait, -⟩ := readRegister_eq_some_iff.mp h
  have hport : SerialPort.Similar ⟨session.port.incoming ++ answer reg.addr digits prompt, session.port.outcomes⟩
      ⟨session'.port.incoming ++ answer reg.addr digits' prompt, session'.port.outcomes⟩ :=
    ⟨List.rel_append hsession.port.incoming (similar_answer hdigits reg.addr prompt), hsession.port.outcomes⟩
  obtain ⟨echo', hecho', -, -, hport'⟩ := readLine_similar hport hecho
  obtain ⟨line', hline', -, -, hport''⟩ := readLine_similar hport' hline
  have hwaits : Session.Similar ⟨line.port, session.clock⟩ ⟨line'.port, session'.clock⟩ := ⟨hport'', hsession.clock⟩
  obtain ⟨session₁', hwait', hsession₁⟩ := waitForPrompt_similar hwaits hwait
  exact ⟨_, session₁', readRegister_eq_some_iff.mpr ⟨echo', line', ret, hecho', hline', hwait', rfl⟩, hsession₁⟩

/-- `read_registers` on similar bytes returns when the other does. -/
theorem readRegisters_similar {contents contents' prompts : ℕ → List UInt8} {i : ℕ} {regs : List RegInfo}
    {session session' : Session} (hcontents : ∀ i, List.Forall₂ Similar (contents i) (contents' i))
    (hsession : session.Similar session') {result : List RegisterRead × Session}
    (h : readRegisters contents prompts i regs session = some result) :
    ∃ result', readRegisters contents' prompts i regs session' = some result' := by
  induction regs generalizing i session session' result with
  | nil => exact ⟨_, rfl⟩
  | cons reg regs ih =>
    simp only [readRegisters, Option.bind_eq_bind, Option.bind_eq_some_iff, Prod.exists] at h
    obtain ⟨read, session₁, hread, reads, session₂, hreads, -⟩ := h
    obtain ⟨read', session₁', hread', hsame⟩ := readRegister_similar (hcontents i) hsession hread
    obtain ⟨result', hreads'⟩ := ih hsame hreads
    simp only [readRegisters, hread', hreads', Option.bind_eq_bind, Option.bind_some]
    exact ⟨_, rfl⟩

end Similar

section Lines

/-- A call that returns no bytes leaves an empty string. -/
theorem LineRead.string_of_ret {line : LineRead} (h : line.ret ≤ 0) : line.string = [] := by
  have hret : line.ret.toNat = 0 := Int.toNat_of_nonpos h
  rw [LineRead.string, LineRead.text, hret]
  rfl

/-- The string that an iteration parses for its value. -/
def RegisterRead.Parses (read : RegisterRead) (s : List UInt8) : Prop :=
  ∃ line, readLine read.port = some line ∧ line.string = s ∧ read.value = parseDevmemOutput s

/-- The value of an iteration is what the code finds in the line it reads. -/
theorem parses_of_readLine {line : LineRead} {port : SerialPort} (h : readLine port = some line) :
    RegisterRead.Parses ⟨port, if 0 < line.ret then parseDevmemOutput line.string else 0⟩ line.string := by
  refine ⟨line, h, rfl, ?_⟩
  by_cases hret : 0 < line.ret
  · exact if_pos hret
  · rw [LineRead.string_of_ret (not_lt.mp hret)]
    exact if_neg hret

/-- What is parsed spells 0 exactly when no number comes. -/
theorem RegisterRead.Parses.eq_zero_iff {read : RegisterRead} {s : List UInt8} (h : read.Parses s) :
    read.value = 0 ↔ NoNumberComes read.port := by
  obtain ⟨line, hline, rfl, hvalue⟩ := h
  rw [hvalue]
  constructor
  · intro hzero skipped text ended used final port' hcomes
    have hreturns : ReturnsWith maxLine read.port.outcomes read.port.incoming (fun _ => 0) 0 text :=
      LineComes.returnsWith hcomes
    obtain ⟨line', hline', htext, -⟩ := hreturns
    obtain rfl : line = line' := Option.some.inj (hline.symm.trans hline')
    have hsame : line.text = text := htext
    exact hsame ▸ (parseDevmemOutput_eq_zero_iff _).mp hzero
  · intro hnone
    by_cases hret : 0 ≤ line.ret
    · obtain ⟨skipped, ended, used, final, hspec⟩ := serialReadLine_spec (by decide) (.inr hret) hline
      exact (parseDevmemOutput_eq_zero_iff _).mpr (hnone _ _ _ _ _ _ hspec.toLineComes)
    · rw [LineRead.string_of_ret (by omega)]
      rfl

/-- Line ends go as far as the next line. -/
theorem takeWhile_isEol {ends front : List UInt8} (hends : ∀ c ∈ ends, isEol c = true) (hne : front ≠ [])
    (hfront : ∀ c ∈ front, isEol c = false) (back : List UInt8) :
    (ends ++ (front ++ back)).takeWhile isEol = ends := by
  cases front with
  | nil => exact absurd rfl hne
  | cons c front =>
    have hc : isEol c = false := hfront c (List.mem_cons_self ..)
    rw [List.takeWhile_append_of_pos hends, List.cons_append, List.takeWhile_cons_of_neg (by simp [hc]),
      List.append_nil]

/-- Of line ends in front of a line as many are skipped as there are, when bytes behind them are taken. -/
theorem TakesLine.skipped_eq {ends front back skipped text ended rest : List UInt8}
    (h : TakesLine (ends ++ (front ++ back)) skipped text ended rest) (hends : ∀ c ∈ ends, isEol c = true)
    (hne : front ≠ []) (hfront : ∀ c ∈ front, isEol c = false) :
    skipped <+: ends ∧ (text ≠ [] → skipped = ends) := by
  have hall := takeWhile_isEol hends hne hfront back
  rw [h.split] at hall
  refine ⟨⟨_, (List.takeWhile_append_of_pos h.skipped_eol).symm.trans hall⟩, fun htext => ?_⟩
  rw [← hall, takeWhile_isEol h.skipped_eol htext h.text_clean]

/-- What is read of a line behind line ends is a prefix of it, and no line end is taken before all of it. -/
theorem TakesLine.text_part {ends front back skipped text ended rest : List UInt8} {c : UInt8}
    (h : TakesLine (ends ++ (front ++ c :: back)) skipped text ended rest) (hends : ∀ c ∈ ends, isEol c = true)
    (hne : front ≠ []) (hfront : ∀ c ∈ front, isEol c = false) (hc : isEol c = true) :
    text <+: front ∧ (text ≠ [] → ended ≠ [] → text = front) := by
  by_cases htext : text = []
  · exact ⟨htext ▸ List.nil_prefix, fun hnot => absurd htext hnot⟩
  · have hsplit := h.split
    rw [(h.skipped_eq hends hne hfront).2 htext, List.append_cancel_left_eq] at hsplit
    obtain ⟨more, hmore, hback⟩ | ⟨more, hmore, hback⟩ := List.append_eq_append_iff.mp hsplit
    · cases more with
      | nil =>
        rw [List.append_nil] at hmore
        exact ⟨hmore ▸ List.prefix_refl _, fun _ _ => hmore⟩
      | cons d more =>
        obtain rfl : c = d := (List.cons.inj hback).1
        have hclean : isEol c = false := h.text_clean c (by rw [hmore]; simp)
        exact absurd hc (by simp [hclean])
    · refine ⟨⟨more, hmore.symm⟩, fun _ hended => ?_⟩
      cases more with
      | nil => rw [hmore, List.append_nil]
      | cons d more =>
        -- The byte behind what is read is one of the line.
        cases ended with
        | nil => exact absurd rfl hended
        | cons e ended =>
          obtain rfl : e = d := (List.cons.inj hback).1
          have heol : isEol e = true := h.ended_eol e (List.mem_cons_self ..)
          exact absurd heol (by simp [hfront e (by rw [hmore]; simp)])

/-- A read does not look behind the end of its line. -/
theorem readLine_uniform {c : UInt8} (hc : isEol c = true) {front : List UInt8}
    (hline : ∃ d ∈ front, isEol d = false) (outcomes : List SelectOutcome) :
    Uniform fun back => readLine ⟨front ++ c :: back, outcomes⟩ :=
  serialReadLoop_uniform hc front fun _ => hline

/-- Calls that differ in bytes they do not see return the same string, and leave the same bytes in front of them. -/
theorem Uniform.eq_of_eq_some {result : List UInt8 → Option LineRead} (h : Uniform result) {back back' : List UInt8}
    {line line' : LineRead} (hline : result back = some line) (hline' : result back' = some line') :
    line.string = line'.string ∧
      ∃ left rest, line.port = ⟨left ++ back, rest⟩ ∧ line'.port = ⟨left ++ back', rest⟩ := by
  obtain hnone | ⟨ret, buf, left, rest, hsome⟩ := h
  · rw [hnone back] at hline
    cases hline
  · rw [hsome back] at hline
    rw [hsome back'] at hline'
    cases hline
    cases hline'
    exact ⟨rfl, left, rest, rfl, rfl⟩

/-- The digits of a value are part of one line. -/
theorem isEol_zeroX_digits {digits : List UInt8} (h : ∀ c ∈ digits, isHex c = true) :
    ∀ c ∈ zeroX ++ digits, isEol c = false := by
  have hhex : ∀ c, isHex c = true → isEol c = false := by
    intro c hc
    by_contra heol
    simp only [Bool.not_eq_false, isEol, Bool.or_eq_true, decide_eq_true_eq] at heol
    obtain rfl | rfl := heol
    · exact absurd hc (by decide)
    · exact absurd hc (by decide)
  refine List.forall_mem_append.mpr ⟨by simp [zeroX, isEol, lf, cr], fun c hc => hhex c (h c hc)⟩

/-- The line with this value is next, behind line ends. -/
def ValueNext (digits : List UInt8) (port : SerialPort) : Prop :=
  ∃ ends back, port.incoming = ends ++ (zeroX ++ digits ++ cr :: back) ∧ ∀ c ∈ ends, isEol c = true

/-- There are no zero bytes in a value. -/
theorem takeWhile_zeroX_digits {digits : List UInt8} (h : ∀ c ∈ digits, isHex c = true) :
    (zeroX ++ digits).takeWhile (· ≠ 0) = zeroX ++ digits := by
  refine List.takeWhile_eq_self_iff.mpr (List.forall_mem_append.mpr ⟨by simp [zeroX], fun c hc => ?_⟩)
  rw [decide_eq_true_eq]
  rintro rfl
  exact absurd (h 0 hc) (by decide)

/-- A read that begins in front of the line with a value reads a part of this line, and all of it only if all of
it comes in time. -/
theorem ValueNext.part {digits : List UInt8} {port : SerialPort} {line : LineRead} (hnext : ValueNext digits port)
    (hdigits : IsDigits digits) (h : readLine port = some line) :
    line.string <+: zeroX ++ digits ∧ (line.string = zeroX ++ digits → ValueComes digits port) := by
  by_cases hret : 0 ≤ line.ret
  case neg =>
    rw [LineRead.string_of_ret (by omega)]
    exact ⟨List.nil_prefix, fun hnil => absurd hnil.symm (by simp [zeroX])⟩
  case pos =>
    obtain ⟨ends, back, hincoming, hends⟩ := hnext
    obtain ⟨skipped, ended, used, final, hline⟩ := serialReadLine_spec (by decide) (.inr hret) h
    have htakes := hline.takes
    rw [hincoming] at htakes
    have hclean := isEol_zeroX_digits hdigits.isHex
    have hpart := (htakes.text_part hends (by simp [zeroX]) hclean (by decide)).1
    have hstring : line.string <+: line.text := List.takeWhile_prefix _
    refine ⟨hstring.trans hpart, fun hall => ?_⟩
    have htext : line.text = zeroX ++ digits := hpart.eq_of_length_le (hall ▸ hstring.length_le)
    have hskipped := (htakes.skipped_eq hends (by simp [zeroX]) hclean).2 (by simp [htext, zeroX])
    refine ⟨ends, back, used, final ++ line.port.outcomes, hincoming, hends, hline.outcomes, hline.met, ?_⟩
    rw [hline.count, hskipped, htext, List.length_append]
    simp only [zeroX, List.length_cons, List.length_nil]
    omega

/-- When the line with a value comes in time, a read returns it, unless `select` fails. -/
theorem ValueComes.string {digits : List UInt8} {port : SerialPort} {line : LineRead} (h : ValueComes digits port)
    (hdigits : IsDigits digits) (hline : readLine port = some line) :
    line.string = zeroX ++ digits ∨ line.string = [] := by
  by_cases hret : 0 ≤ line.ret
  case neg => exact .inr (LineRead.string_of_ret (by omega))
  case pos =>
    obtain ⟨ends, back, used, later, hincoming, hends, houtcomes, hmet, hcount⟩ := h
    obtain ⟨skipped, ended, used', final, hspec⟩ := serialReadLine_spec (by decide) (.inr hret) hline
    have htakes := hspec.takes
    rw [hincoming] at htakes
    have hclean := isEol_zeroX_digits hdigits.isHex
    have hne : zeroX ++ digits ≠ [] := by simp [zeroX]
    obtain ⟨hpart, hended⟩ := htakes.text_part hends hne hclean (by decide)
    have hlen : (zeroX ++ digits).length = digits.length + 2 := by simp [zeroX]
    by_cases htext : line.text = zeroX ++ digits
    · exact .inl (by rw [LineRead.string, htext, takeWhile_zeroX_digits hdigits.isHex])
    -- Otherwise the read got no byte before the line was complete.
    have hshort : line.text.length < digits.length + 2 :=
      hlen ▸ hpart.length_le.lt_of_ne fun h => htext (hpart.eq_of_length h)
    have hskipped : skipped.length ≤ ends.length := (htakes.skipped_eq hends hne hclean).1.length_le
    have hsplit : used ++ later = used' ++ (final ++ line.port.outcomes) := houtcomes.symm.trans hspec.outcomes
    have hcount' := hspec.count
    have hlate : ended = [] → ∀ o, final = [o] → o ∈ used := by
      rintro rfl o rfl
      obtain ⟨more, hmore, -⟩ | ⟨more, hmore, hrest⟩ := List.append_eq_append_iff.mp hsplit
      · have hle : used.count .readable ≤ used'.count .readable := by
          rw [hmore, List.count_append]
          exact Nat.le_add_right _ _
        simp only [List.length_nil] at hcount'
        omega
      · cases more with
        | nil =>
          rw [List.append_nil] at hmore
          rw [← hmore] at hcount'
          simp only [List.length_nil] at hcount'
          omega
        | cons o' more =>
          obtain rfl : o = o' := (List.cons.inj hrest).1
          rw [hmore]
          simp
    have hstops := hspec.stops
    generalize hleft : line.port.incoming = rest at hstops
    cases hstops with
    | full hfull =>
      have hsmall := hdigits.length_le
      simp only [List.nil_append, maxLine] at hfull
      omega
    | lineEnd c heol hpos =>
      exact absurd (hended (List.ne_nil_of_length_pos hpos) (List.cons_ne_nil _ _)) htext
    | timeout => exact absurd (hmet _ (hlate rfl _ rfl)) (by decide)
    | readFails => exact absurd (hmet _ (hlate rfl _ rfl)) (by decide)
    | nothing _ hnone =>
      have hwhole := congrArg List.length htakes.split
      rw [hleft, hnone] at hwhole
      simp only [List.length_append, List.length_cons, List.length_nil, hlen] at hwhole
      have hzeroX : zeroX.length = 2 := rfl
      omega

/-- The line that is parsed does not depend on the value, or the value's own line is next when it is read. -/
theorem readRegister_line {reg : RegInfo} {digits digits' prompt : List UInt8}
    {session session₁ session₁' : Session} {read read' : RegisterRead}
    (h : readRegister reg digits prompt session = some (read, session₁))
    (h' : readRegister reg digits' prompt session = some (read', session₁')) :
    ∃ s s', read.Parses s ∧ read'.Parses s' ∧ (s = s' ∨ ValueNext digits read.port) := by
  obtain ⟨echo, line, -, hecho, hline, -, rfl⟩ := readRegister_eq_some_iff.mp h
  obtain ⟨echo', line', -, hecho', hline', -, rfl⟩ := readRegister_eq_some_iff.mp h'
  refine ⟨line.string, line'.string, parses_of_readLine hline, parses_of_readLine hline', ?_⟩
  -- The first read ends with the echo at the latest.
  have hcommand : ∃ c ∈ session.port.incoming ++ devmemCommand reg.addr, isEol c = false :=
    ⟨100, List.mem_append_right _ (by simp [devmemCommand]), by decide⟩
  have hfirst := readLine_uniform (c := cr) (by decide) hcommand session.port.outcomes
  rw [answer, ← List.append_assoc] at hecho hecho'
  obtain ⟨-, left, rest, hport, hport'⟩ := hfirst.eq_of_eq_some hecho hecho'
  by_cases hleft : ∃ c ∈ left, isEol c = false
  · -- It has left bytes of a line, and the second read ends with that line.
    rw [hport] at hline
    rw [hport'] at hline'
    have hsecond := readLine_uniform (c := lf) (by decide) hleft rest
    exact .inl (hsecond.eq_of_eq_some hline hline').1
  · have hends : ∀ c ∈ left ++ [lf], isEol c = true := by
      refine List.forall_mem_append.mpr ⟨fun c hc => ?_, List.forall_mem_singleton.mpr rfl⟩
      by_contra hnot
      exact hleft ⟨c, hc, Bool.eq_false_iff.mpr hnot⟩
    exact .inr ⟨left ++ [lf], lf :: prompt, by simp [hport], hends⟩

/-- A part of the value's own line is all of it when it has the same value, unless that is 0. -/
theorem eq_zeroX_of_part {digits line : List UInt8} (hdigits : IsDigits digits) (h : line <+: zeroX ++ digits)
    (hvalue : parseDevmemOutput line = hexValue digits) (hne : parseDevmemOutput line ≠ 0) :
    line = zeroX ++ digits := by
  obtain rfl | ⟨tail, rfl, htail⟩ := List.prefix_cons_iff.mp h
  · exact absurd rfl hne
  obtain rfl | ⟨front, rfl, back, rfl⟩ := List.prefix_cons_iff.mp htail
  · exact absurd rfl hne
  change parseDevmemOutput (zeroX ++ front) = _ at hvalue
  change parseDevmemOutput (zeroX ++ front) ≠ 0 at hne
  have hfront : IsDigits front := by
    refine ⟨fun c hc => hdigits.isHex c (List.mem_append_left _ hc), fun hnil => ?_, ?_⟩
    · subst hnil
      exact absurd rfl hne
    · have hlen := hdigits.length_le
      rw [List.length_append] at hlen
      omega
  rw [parseDevmemOutput_zeroX hfront] at hvalue hne
  rw [hexValue_append] at hvalue
  cases back with
  | nil => rw [List.append_nil]; rfl
  | cons c back =>
    -- A digit more is a larger value.
    have hpow : 16 ≤ 16 ^ (c :: back).length := Nat.le_self_pow (by simp) 16
    have hlarge : hexValue front * 16 ≤ hexValue front * 16 ^ (c :: back).length := Nat.mul_le_mul_left _ hpow
    omega

end Lines

section Values

variable {prompts : ℕ → List UInt8} {regs : List RegInfo} {i n : ℕ} {session session' : Session}
  {contents : ℕ → List UInt8} {reads : List RegisterRead} {read : RegisterRead}

/-- Every value is what the code finds in the line that its iteration parses. -/
theorem readRegisters_parses (h : readRegisters contents prompts i regs session = some (reads, session'))
    (hread : reads[n]? = some read) : ∃ s, read.Parses s := by
  induction regs generalizing i n session reads with
  | nil =>
    cases h
    cases hread
  | cons reg regs ih =>
    simp only [readRegisters, Option.bind_eq_bind, Option.bind_eq_some_iff, Option.some.injEq, Prod.exists,
      Prod.mk.injEq] at h
    obtain ⟨first, session₁, hfirst, later, session₂, hlater, rfl, rfl⟩ := h
    cases n with
    | zero =>
      cases hread
      obtain ⟨echo, line, -, -, hline, -, rfl⟩ := readRegister_eq_some_iff.mp hfirst
      exact ⟨line.string, parses_of_readLine hline⟩
    | succ n => exact ih hlater hread

/-- The same run with another value in one register returns, and the line that is parsed for this register is the
same, or the value's own line was next. -/
theorem readRegisters_update {digits : List UInt8} (hdigits : List.Forall₂ Similar (contents (i + n)) digits)
    (h : readRegisters contents prompts i regs session = some (reads, session'))
    (hread : reads[n]? = some read) :
    ∃ reads' session'' read' s s', readRegisters (Function.update contents (i + n) digits) prompts i regs session =
        some (reads', session'') ∧ reads'[n]? = some read' ∧ read.Parses s ∧ read'.Parses s' ∧
      (s = s' ∨ ValueNext (contents (i + n)) read.port) := by
  induction regs generalizing i n session reads with
  | nil =>
    cases h
    cases hread
  | cons reg regs ih =>
    simp only [readRegisters, Option.bind_eq_bind, Option.bind_eq_some_iff, Option.some.injEq, Prod.exists,
      Prod.mk.injEq] at h
    obtain ⟨first, session₁, hfirst, later, session₂, hlater, rfl, rfl⟩ := h
    cases n with
    | zero =>
      cases hread
      rw [Nat.add_zero] at hdigits ⊢
      have hrefl : session.Similar session := ⟨⟨similar_refl _, rfl⟩, rfl⟩
      obtain ⟨read', session₁', hread', hsame⟩ := readRegister_similar hdigits hrefl hfirst
      have hupdate : ∀ j, List.Forall₂ Similar (contents j) (Function.update contents i digits j) := by
        intro j
        by_cases hj : j = i
        · subst hj
          rwa [Function.update_self]
        · rw [Function.update_of_ne hj]
          exact similar_refl _
      obtain ⟨⟨reads', session''⟩, hlater'⟩ := readRegisters_similar hupdate hsame hlater
      obtain ⟨s, s', hs, hs', hline⟩ := readRegister_line hfirst hread'
      refine ⟨read' :: reads', session'', read', s, s', ?_, rfl, hs, hs', hline⟩
      simp only [readRegisters, Function.update_self, hread', hlater', Option.bind_eq_bind, Option.bind_some]
    | succ n =>
      have hindex : i + (n + 1) = i + 1 + n := by omega
      rw [hindex] at hdigits ⊢
      obtain ⟨reads', session'', read', s, s', hlater', hread', hline⟩ := ih hdigits hlater hread
      have hne : i ≠ i + 1 + n := by omega
      refine ⟨first :: reads', session'', read', s, s', ?_, hread', hline⟩
      simp only [readRegisters, Function.update_of_ne hne, hfirst, hlater', Option.bind_eq_bind, Option.bind_some]

/-- **Registers and their values.** Whatever the registers hold, every value is 0 or the one that the device
printed for its register, exactly when the device answers in step. -/
theorem valuesRight_iff (regs : List RegInfo) (prompts : ℕ → List UInt8) (session : Session) :
    ValuesRight regs prompts session ↔ AnswersInStep regs prompts session := by
  constructor
  · intro h contents hcontents reads session' hrun i read hread
    rw [or_iff_not_imp_right]
    intro hnumber
    -- The same run with zeros in this register cannot return the value.
    let zeros : List UInt8 := List.replicate (contents i).length 48
    have hzeros : IsDigits zeros := by
      refine ⟨fun c hc => ?_, ?_, ?_⟩
      · obtain rfl := List.eq_of_mem_replicate hc
        decide
      · simpa [zeros] using (hcontents i).ne_nil
      · simpa [zeros] using (hcontents i).length_le
    have hsame : List.Forall₂ Similar (contents i) zeros :=
      similar_of_isHex (hcontents i).isHex hzeros.isHex (by simp [zeros])
    have hsame' : List.Forall₂ Similar (contents (0 + i)) zeros := by rw [Nat.zero_add]; exact hsame
    obtain ⟨reads', session'', read', s, s', hrun', hread', hs, hs', hline⟩ :=
      readRegisters_update hsame' hrun hread
    rw [Nat.zero_add] at hrun' hline
    have hne : read.value ≠ 0 := mt hs.eq_zero_iff.mp hnumber
    obtain ⟨line, hreads, rfl, hvalue⟩ := hs
    obtain rfl | hnext := hline
    · have hdigits : ∀ j, IsDigits (Function.update contents i zeros j) := by
        intro j
        by_cases hj : j = i
        · subst hj
          rwa [Function.update_self]
        · rw [Function.update_of_ne hj]
          exact hcontents j
      have hright := h _ hdigits reads' session'' hrun' i read' hread'
      have hzero : hexValue zeros = 0 :=
        (hexValue_eq_zero_iff hzeros.isHex).mpr fun c hc => List.eq_of_mem_replicate hc
      obtain ⟨_, -, -, hvalue'⟩ := hs'
      rw [Function.update_self, hzero, or_self, hvalue', ← hvalue] at hright
      exact absurd hright hne
    · obtain ⟨hpart, hcomes⟩ := hnext.part (hcontents i) hreads
      obtain hzero | hright := h contents hcontents reads session' hrun i read hread
      · exact absurd hzero hne
      · exact hcomes (eq_zeroX_of_part (hcontents i) hpart (hvalue ▸ hright) (hvalue ▸ hne))
  · intro h contents hcontents reads session' hrun i read hread
    obtain ⟨s, hs⟩ := readRegisters_parses hrun hread
    obtain hcomes | hnone := h contents hcontents reads session' hrun i read hread
    · obtain ⟨line, hline, rfl, hvalue⟩ := hs
      rw [hvalue]
      obtain hstring | hstring := hcomes.string (hcontents i) hline
      · exact .inr (hstring ▸ parseDevmemOutput_zeroX (hcontents i))
      · exact .inl (by rw [hstring]; rfl)
    · exact .inl (hs.eq_zero_iff.mpr hnone)

/-- A register that holds 1: the echo comes after the first read has given up, the second read takes it for the
value, and the register seems to hold 0xde. -/
theorem not_valuesRight : ¬∀ regs prompts session, ValuesRight regs prompts session := by
  intro h
  have hright := h [⟨0xd055010⟩] (fun _ => [35, 32]) ⟨⟨[], .timeout :: List.replicate 17 .readable⟩, [0, 2]⟩
    (fun _ => [49]) (fun _ => ⟨List.forall_mem_singleton.mpr rfl, by decide, by decide⟩)
  exact absurd (hright _ _ rfl 0 _ rfl) (by decide)

end Values

end LinuxFunctionTest.SerialRegread
