import LinuxFunctionTest.Library.Scanf

/-!
# The output of `devmem`

`parse_devmem_output` tries the start of the line first, then the first `0x` in it. The start of a line may be a
word of a command or of an error message, and such words begin with hexadecimal digits as well: `devmem` with `de`,
`ash:` with `a`.
-/

namespace LinuxFunctionTest.SerialRegread

open Scanf

/-- `parse_devmem_output`. -/
def parseDevmemOutput (line : List UInt8) : ℕ :=
  match scanHex line with
  | some val => val
  | none =>
    match strstr zeroX line with
    | some p => (scanHex p).getD 0
    | none => 0

/-- One to sixteen hexadecimal digits. -/
structure IsDigits (digits : List UInt8) : Prop where
  isHex : ∀ c ∈ digits, isHex c = true
  ne_nil : digits ≠ []
  length_le : digits.length ≤ 16

/-- A word that is a number: digits, behind `0x` or not. -/
def IsNumber (w : List UInt8) : Prop := IsDigits w ∨ ∃ digits, IsDigits digits ∧ w = zeroX ++ digits

/-- There is one number in the line, written with `0x`, and these words are in front of it. -/
structure OneNumber (line : List UInt8) (front : List (List UInt8)) (digits : List UInt8) : Prop where
  isDigits : IsDigits digits
  words : ∃ back, words line = front ++ (zeroX ++ digits) :: back ∧ ∀ w ∈ front ++ back, ¬IsNumber w

/-- Among these words, nothing reads as a number but `v`: the numeral at the start of the first one spells it, and
if there is none, so do the digits behind the first `0x`, which may be none and spell 0. -/
structure SpellsOnly (ws : List (List UInt8)) (v : ℕ) : Prop where
  start : ∀ w ∈ ws.head?, ∀ sign base rest, StartsNumeral w sign base rest →
    Numeral.toULong ⟨decide (sign = [45]), rest.takeWhile isHex⟩ = v
  behind : (∀ w ∈ ws.head?, ∀ sign base rest, ¬StartsNumeral w sign base rest) →
    ∀ clean w later front rest, ws = clean ++ w :: later → (∀ u ∈ clean, ¬zeroX <:+: u) →
      w = front ++ (zeroX ++ rest) → ¬zeroX <:+: front → Numeral.toULong ⟨false, rest.takeWhile isHex⟩ = v

/-- The only number of a line written with `0x` is returned, and 0 for a line without a number. -/
structure ReadsNumber (line : List UInt8) : Prop where
  one : ∀ front digits, OneNumber line front digits → parseDevmemOutput line = hexValue digits
  none : (∀ w ∈ words line, ¬IsNumber w) → parseDevmemOutput line = 0

/-- In front of the only number, nothing reads as another one; in a line without numbers, nothing reads as a number
but 0. -/
structure Undisturbed (line : List UInt8) : Prop where
  one : ∀ front digits, OneNumber line front digits → SpellsOnly front (hexValue digits)
  none : (∀ w ∈ words line, ¬IsNumber w) → SpellsOnly (words line) 0

/-- `0x` is part of one word. -/
theorem isWord_zeroX : IsWord zeroX := ⟨by decide, by simp [zeroX, isSpace]⟩

section Search

/-- The numeral that the code comes to in these words: at the start of the first one, else at the first `0x`. -/
def lookalike (ws : List (List UInt8)) : Option Numeral :=
  (ws.head?.bind numeral?).or ((ws.findSome? (strstr zeroX)).bind numeral?)

/-- The code reads a number in the words of the line, and 0 where it comes to none. -/
theorem parseDevmemOutput_eq (line : List UInt8) :
    parseDevmemOutput line = ((lookalike (words line)).map Numeral.toULong).getD 0 := by
  have hstrstr := strstr_eq_words isWord_zeroX line
  rw [parseDevmemOutput, scanHex, numeral?_eq_words line, lookalike]
  cases (words line).head?.bind numeral? with
  | some n => rfl
  | none =>
    simp only [Option.map_none, Option.none_or]
    cases hfound : strstr zeroX line with
    | none =>
      rw [hfound, Option.map_none, eq_comm, Option.map_eq_none_iff] at hstrstr
      rw [hstrstr]
      rfl
    | some p =>
      rw [hfound, Option.map_some] at hstrstr
      obtain ⟨p', hp', hsame⟩ := Option.map_eq_some_iff.mp hstrstr.symm
      simp only [hp', Option.bind_some, scanHex, hsame]

/-- A numeral behind `0x`. -/
theorem numeral?_zeroX (rest : List UInt8) : numeral? (zeroX ++ rest) = some ⟨false, 48 :: rest.takeWhile isHex⟩ := by
  have hnumeral : numeral? (zeroX ++ rest) =
      if (48 :: rest).takeWhile isHex = [] then none else some ⟨false, (48 :: rest).takeWhile isHex⟩ := rfl
  rw [hnumeral, takeWhile_isHex_zero, if_neg (List.cons_ne_nil _ _)]

/-- Nothing reads as a number but `v` when the numeral that the code comes to spells it. -/
theorem spellsOnly_iff {ws : List (List UInt8)} {v : ℕ} (hws : ∀ w ∈ ws, IsWord w) :
    SpellsOnly ws v ↔ ∀ n, lookalike ws = some n → n.toULong = v := by
  have hhead : ∀ w ∈ ws.head?, ∀ c ∈ w.head?, isSpace c = false := fun w hw c hc =>
    (hws w (List.mem_of_head? hw)).no_space c (List.mem_of_head? hc)
  constructor
  · intro h n hn
    obtain hstart | ⟨hstart, hfound⟩ := Option.or_eq_some_iff.mp hn
    · obtain ⟨w, hw, hnumeral⟩ := Option.bind_eq_some_iff.mp hstart
      obtain ⟨sign, base, rest, hstarts⟩ := startsNumeral_of_numeral? (hhead w hw) hnumeral
      obtain ⟨n', hn', hvalue⟩ := hstarts.numeral?_eq
      obtain rfl : n = n' := Option.some.inj (hnumeral.symm.trans hn')
      exact hvalue.trans (h.start w hw sign base rest hstarts)
    · obtain ⟨p, hp, hnumeral⟩ := Option.bind_eq_some_iff.mp hfound
      obtain ⟨clean, w, later, rfl, hsearch, hclean⟩ := List.findSome?_eq_some_iff.mp hp
      obtain ⟨front, rest, hw, rfl, hfront⟩ := strstr_zeroX_iff.mp hsearch
      rw [numeral?_zeroX] at hnumeral
      cases hnumeral
      rw [toULong_zero_cons]
      refine h.behind (fun u hu sign base rest' hstarts => ?_) clean w later front rest rfl ?_ hw hfront
      · obtain ⟨n', hn', -⟩ := hstarts.numeral?_eq
        rw [Option.mem_def.mp hu, Option.bind_some, hn'] at hstart
        cases hstart
      · rintro u hu ⟨a, b, rfl⟩
        exact absurd (hclean _ hu) (strstr_ne_none a b)
  · intro h
    refine ⟨fun w hw sign base rest hstarts => ?_, fun hnot clean w later front rest hws' hclean hw hfront => ?_⟩
    · obtain ⟨n, hn, hvalue⟩ := hstarts.numeral?_eq
      refine hvalue.symm.trans (h n ?_)
      rw [lookalike, Option.mem_def.mp hw, Option.bind_some, hn]
      rfl
    · have hstart : ws.head?.bind numeral? = none := by
        rw [Option.bind_eq_none_iff]
        intro u hu
        by_contra hne
        obtain ⟨n, hn⟩ := Option.ne_none_iff_exists'.mp hne
        obtain ⟨sign, base, rest', hstarts⟩ := startsNumeral_of_numeral? (hhead u hu) hn
        exact hnot u hu sign base rest' hstarts
      have hfound : ws.findSome? (strstr zeroX) = some (zeroX ++ rest) := by
        refine List.findSome?_eq_some_iff.mpr ⟨clean, w, later, hws', ?_, fun u hu => ?_⟩
        · exact strstr_zeroX_iff.mpr ⟨front, rest, hw, rfl, hfront⟩
        · by_contra hne
          obtain ⟨p, hp⟩ := Option.ne_none_iff_exists'.mp hne
          obtain ⟨a, b, rfl, rfl, -⟩ := strstr_zeroX_iff.mp hp
          exact hclean _ hu (List.infix_append' a zeroX b)
      rw [← toULong_zero_cons]
      refine h _ ?_
      rw [lookalike, hstart, hfound, Option.none_or, Option.bind_some, numeral?_zeroX]

/-- The code returns 0 when nothing in the line reads as a number but 0. -/
theorem parseDevmemOutput_eq_zero_iff (line : List UInt8) :
    parseDevmemOutput line = 0 ↔ SpellsOnly (words line) 0 := by
  rw [parseDevmemOutput_eq, spellsOnly_iff fun w => isWord_of_mem_words]
  cases lookalike (words line) with
  | none => simp
  | some n => simp

end Search

/-- Sixteen digits fit an `unsigned long`. -/
theorem toULong_digits {digits : List UInt8} (h : IsDigits digits) :
    Numeral.toULong ⟨false, digits⟩ = hexValue digits := by
  have hlt : hexValue digits < 2 ^ 64 := by
    calc hexValue digits < 16 ^ digits.length := hexValue_lt digits
      _ ≤ 16 ^ 16 := Nat.pow_le_pow_right (by decide) h.length_le
  simp only [Numeral.toULong]
  rw [if_neg (by omega)]
  rfl

/-- A number written with `0x` is read as its digits. -/
theorem toULong_zeroX {digits : List UInt8} (h : IsDigits digits) :
    Numeral.toULong ⟨false, 48 :: digits.takeWhile isHex⟩ = hexValue digits := by
  rw [List.takeWhile_eq_self_iff.mpr h.isHex, toULong_zero_cons, toULong_digits h]

/-- The value of a line that holds a number alone. -/
theorem parseDevmemOutput_zeroX {digits : List UInt8} (h : IsDigits digits) :
    parseDevmemOutput (zeroX ++ digits) = hexValue digits := by
  rw [parseDevmemOutput, scanHex, numeral?_zeroX]
  exact toULong_zeroX h

/-- The code reads a number written with `0x` when it comes to none in the words in front. -/
theorem lookalike_append (front back : List (List UInt8)) (digits : List UInt8) :
    lookalike (front ++ (zeroX ++ digits) :: back) =
      (lookalike front).or (some ⟨false, 48 :: digits.takeWhile isHex⟩) := by
  have hnumber : strstr zeroX (zeroX ++ digits) = some (zeroX ++ digits) := rfl
  cases front with
  | nil =>
    simp only [lookalike, List.nil_append, List.head?_cons, Option.bind_some, numeral?_zeroX]
    rfl
  | cons w front =>
    simp only [lookalike, List.cons_append, List.head?_cons, Option.bind_some]
    cases numeral? w with
    | some n => rfl
    | none =>
      rw [← List.cons_append, List.findSome?_append]
      cases hfound : (w :: front).findSome? (strstr zeroX) with
      | some p =>
        obtain ⟨_, u, _, -, hsearch, -⟩ := List.findSome?_eq_some_iff.mp hfound
        obtain ⟨_, rest, -, rfl, -⟩ := strstr_zeroX_iff.mp hsearch
        simp only [Option.none_or, Option.some_or, Option.bind_some, numeral?_zeroX]
      | none =>
        simp only [List.findSome?_cons, hnumber, Option.none_or, Option.bind_some, numeral?_zeroX, Option.bind_none]

/-- With one number in the line, the code returns that number unless it comes to another one in front. -/
theorem parseDevmemOutput_oneNumber {line digits : List UInt8} {front : List (List UInt8)}
    (h : OneNumber line front digits) :
    parseDevmemOutput line = ((lookalike front).map Numeral.toULong).getD (hexValue digits) := by
  obtain ⟨back, hwords, -⟩ := h.words
  rw [parseDevmemOutput_eq, hwords, lookalike_append]
  cases lookalike front with
  | some n => rfl
  | none => exact toULong_zeroX h.isDigits

/-- The words in front of a number are words. -/
theorem OneNumber.isWord {line digits : List UInt8} {front : List (List UInt8)} (h : OneNumber line front digits) :
    ∀ w ∈ front, IsWord w := by
  obtain ⟨back, hwords, -⟩ := h.words
  exact fun w hw => isWord_of_mem_words (s := line) (by rw [hwords]; exact List.mem_append_left _ hw)

/-- **Numbers in the output of `devmem`.** A line is parsed as it should be exactly when its other words do not
disturb. -/
theorem readsNumber_iff (line : List UInt8) : ReadsNumber line ↔ Undisturbed line := by
  constructor
  · intro h
    refine ⟨fun front digits hone => (spellsOnly_iff hone.isWord).mpr fun n hn => ?_, fun hnone => ?_⟩
    · have hval := h.one front digits hone
      rwa [parseDevmemOutput_oneNumber hone, hn] at hval
    · exact (parseDevmemOutput_eq_zero_iff line).mp (h.none hnone)
  · intro h
    refine ⟨fun front digits hone => ?_, fun hnone => ?_⟩
    · rw [parseDevmemOutput_oneNumber hone]
      cases hfound : lookalike front with
      | none => rfl
      | some n => exact (spellsOnly_iff hone.isWord).mp (h.one front digits hone) n hfound
    · exact (parseDevmemOutput_eq_zero_iff line).mpr (h.none hnone)

/-- `"devmem 0x12"`: the only number is 0x12, and the code returns 0xde. -/
theorem not_readsNumber : ¬∀ line, ReadsNumber line := by
  intro h
  have hcommand : ∀ w ∈ [[100, 101, 118, 109, 101, 109]] ++ [], ¬IsNumber w := by
    rintro w hw (hdigits | ⟨digits, -, hzeroX⟩)
    · obtain rfl := List.mem_singleton.mp hw
      exact absurd (hdigits.isHex 118 (by decide)) (by decide)
    · obtain rfl := List.mem_singleton.mp hw
      simp [zeroX] at hzeroX
  have hone : OneNumber [100, 101, 118, 109, 101, 109, 32, 48, 120, 49, 50] [[100, 101, 118, 109, 101, 109]]
      [49, 50] :=
    ⟨⟨by simp [isHex, hexDigit?], by decide, by decide⟩, [], by decide, hcommand⟩
  exact absurd ((h _).one _ _ hone) (by decide)

end LinuxFunctionTest.SerialRegread
