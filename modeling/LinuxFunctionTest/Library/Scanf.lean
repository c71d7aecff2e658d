import Mathlib.Data.List.TakeWhile
import Mathlib.Data.List.Induction
import Mathlib.Tactic.Ring
import Mathlib.Tactic.SplitIfs
import Mathlib.Data.Nat.Notation

/-!
# Hexadecimal numerals in C strings

`sscanf` with `%lx`, `strstr`, and the words of a string. A scan skips spaces and stops inside the word behind
them, and a search for a needle without spaces stays inside a word too: both see the words only.
-/

namespace LinuxFunctionTest.Scanf

/-- `isspace` in the C locale. -/
def isSpace (c : UInt8) : Bool := c = 32 || (9 ≤ c && c ≤ 13)

/-- The value of a hexadecimal digit, small or capital. -/
def hexDigit? (c : UInt8) : Option ℕ :=
  if 48 ≤ c ∧ c ≤ 57 then some (c.toNat - 48)
  else if 65 ≤ c ∧ c ≤ 70 then some (c.toNat - 55)
  else if 97 ≤ c ∧ c ≤ 102 then some (c.toNat - 87)
  else none

/-- `isxdigit`. -/
def isHex (c : UInt8) : Bool := (hexDigit? c).isSome

/-- The number that a row of digits spells. -/
def hexValue (digits : List UInt8) : ℕ := digits.foldl (fun value c => 16 * value + (hexDigit? c).getD 0) 0

/-- `"0x"`. -/
def zeroX : List UInt8 := [48, 120]

/-- `"0X"`. -/
def capitalZeroX : List UInt8 := [48, 88]

/-- A numeral: a sign, and the digits that count. -/
structure Numeral where
  negative : Bool
  digits : List UInt8
  deriving DecidableEq

/-- The sign, if there is one, and what is behind it. -/
def splitSign : List UInt8 → Bool × List UInt8
  | [] => (false, [])
  | c :: s => if c = 45 then (true, s) else if c = 43 then (false, s) else (false, c :: s)

/-- The digits that count at the start of a string: the `x` of `0x` or `0X` is read and does not, its zero does. -/
def dropX : List UInt8 → List UInt8
  | c :: d :: s => if c = 48 ∧ (d = 120 ∨ d = 88) then c :: s else c :: d :: s
  | s => s

/-- The numeral at the start of a string, behind spaces. A bare `0x` is the numeral of its zero. -/
def numeral? (s : List UInt8) : Option Numeral :=
  let (negative, s) := splitSign (s.dropWhile isSpace)
  let digits := (dropX s).takeWhile isHex
  if digits = [] then none else some ⟨negative, digits⟩

/-- The value in an `unsigned long`, as `strtoul` computes it: the largest one when the digits spell more, and the
negative one modulo `2 ^ 64`. -/
def Numeral.toULong (n : Numeral) : ℕ :=
  if 2 ^ 64 ≤ hexValue n.digits then 2 ^ 64 - 1
  else if n.negative then (2 ^ 64 - hexValue n.digits) % 2 ^ 64
  else hexValue n.digits

/-- `sscanf(s, "%lx", &val)`: the value stored when it returns 1. -/
def scanHex (s : List UInt8) : Option ℕ := (numeral? s).map Numeral.toULong

/-- `strstr`. -/
def strstr (needle : List UInt8) : List UInt8 → Option (List UInt8)
  | [] => if needle = [] then some [] else none
  | c :: s => if needle.isPrefixOf (c :: s) then some (c :: s) else strstr needle s

/-- The words of a string: what spaces separate. -/
def words (s : List UInt8) : List (List UInt8) := (s.splitOnP isSpace).filter (fun w => !w.isEmpty)

/-- A word starts with a numeral: a sign, or none, then `0x` or `0X`, or none, and then what begins with the digits;
without `0x` there is a digit at least. -/
structure StartsNumeral (w sign base rest : List UInt8) : Prop where
  split : w = sign ++ (base ++ rest)
  isSign : sign = [] ∨ sign = [43] ∨ sign = [45]
  isBase : base = [] ∨ base = zeroX ∨ base = capitalZeroX
  plain : base = [] → rest.takeWhile isHex ≠ [] ∧ ¬zeroX <+: rest ∧ ¬capitalZeroX <+: rest

/-- A word of a string: it is not empty, and there is no space in it. -/
structure IsWord (w : List UInt8) : Prop where
  ne_nil : w ≠ []
  no_space : ∀ c ∈ w, isSpace c = false

/-- A string that starts with a space, or is empty: what comes behind a word. -/
def StartsSpaced (s : List UInt8) : Prop := ∀ c ∈ s.head?, isSpace c = true

section Digits

/-- A space, by its code. -/
theorem isSpace_iff {c : UInt8} : isSpace c = true ↔ c.toNat = 32 ∨ 9 ≤ c.toNat ∧ c.toNat ≤ 13 := by
  simp [isSpace, UInt8.le_iff_toNat_le, ← UInt8.toNat_inj]

/-- The value of a digit, by its code. -/
theorem hexDigit?_eq_some_iff {c : UInt8} {v : ℕ} : hexDigit? c = some v ↔
    48 ≤ c.toNat ∧ c.toNat ≤ 57 ∧ v = c.toNat - 48 ∨ 65 ≤ c.toNat ∧ c.toNat ≤ 70 ∧ v = c.toNat - 55 ∨
      97 ≤ c.toNat ∧ c.toNat ≤ 102 ∧ v = c.toNat - 87 := by
  simp only [hexDigit?, UInt8.le_iff_toNat_le, UInt8.reduceToNat]
  split_ifs <;> simp only [Option.some.injEq, false_iff] <;> omega

/-- A hexadecimal digit has a value. -/
theorem hexDigit?_of_isHex {c : UInt8} (h : isHex c = true) : ∃ v, hexDigit? c = some v :=
  Option.isSome_iff_exists.mp h

/-- A hexadecimal digit, by its code. -/
theorem isHex_iff {c : UInt8} : isHex c = true ↔
    48 ≤ c.toNat ∧ c.toNat ≤ 57 ∨ 65 ≤ c.toNat ∧ c.toNat ≤ 70 ∨ 97 ≤ c.toNat ∧ c.toNat ≤ 102 := by
  rw [isHex, Option.isSome_iff_exists]
  simp only [hexDigit?_eq_some_iff]
  constructor
  · rintro ⟨v, hv⟩
    omega
  · rintro (h | h | h)
    · exact ⟨_, .inl ⟨h.1, h.2, rfl⟩⟩
    · exact ⟨_, .inr (.inl ⟨h.1, h.2, rfl⟩)⟩
    · exact ⟨_, .inr (.inr ⟨h.1, h.2, rfl⟩)⟩

/-- A space is not a digit. -/
theorem isHex_eq_false_of_isSpace {c : UInt8} (h : isSpace c = true) : isHex c = false := by
  rw [Bool.eq_false_iff, Ne, isHex_iff]
  rw [isSpace_iff] at h
  omega

/-- The digits in front count by the places behind them. -/
theorem hexValue_append (front back : List UInt8) :
    hexValue (front ++ back) = hexValue front * 16 ^ back.length + hexValue back := by
  have hfold : ∀ value, back.foldl (fun value c => 16 * value + (hexDigit? c).getD 0) value =
      value * 16 ^ back.length + hexValue back := by
    unfold hexValue
    induction back with
    | nil => simp
    | cons c back ih =>
      intro value
      rw [List.foldl_cons, ih, List.foldl_cons, ih (16 * 0 + _), List.length_cons, Nat.pow_succ]
      ring
  rw [hexValue, List.foldl_append]
  exact hfold _

/-- A row of digits stays below the power of its length. -/
theorem hexValue_lt (digits : List UInt8) : hexValue digits < 16 ^ digits.length := by
  induction digits using List.reverseRecOn with
  | nil => simp [hexValue]
  | append_singleton digits c ih =>
    have hc : (hexDigit? c).getD 0 < 16 := by
      cases hdigit : hexDigit? c with
      | none => simp
      | some v =>
        have := hexDigit?_eq_some_iff.mp hdigit
        simp only [Option.getD_some]
        omega
    have hlast : hexValue [c] = (hexDigit? c).getD 0 := by simp [hexValue]
    rw [hexValue_append, hlast, List.length_append, List.length_singleton, Nat.pow_succ 16 digits.length]
    omega

/-- Digits spell zero when they are all `'0'`. -/
theorem hexValue_eq_zero_iff {digits : List UInt8} (hdigits : ∀ c ∈ digits, isHex c = true) :
    hexValue digits = 0 ↔ ∀ c ∈ digits, c = 48 := by
  induction digits with
  | nil => simp [hexValue]
  | cons c digits ih =>
    obtain ⟨hc, hdigits⟩ := List.forall_mem_cons.mp hdigits
    obtain ⟨v, hv⟩ := hexDigit?_of_isHex hc
    have hfirst : hexValue [c] = v := by simp [hexValue, hv]
    have hzero : v = 0 ↔ c = 48 := by
      rw [hexDigit?_eq_some_iff] at hv
      rw [← UInt8.toNat_inj]
      simp only [UInt8.reduceToNat]
      omega
    rw [← List.singleton_append, hexValue_append, hfirst, Nat.add_eq_zero_iff, ih hdigits, List.forall_mem_append,
      List.forall_mem_singleton, ← hzero]
    simp

/-- A zero in front does not count. -/
theorem toULong_zero_cons (negative : Bool) (digits : List UInt8) :
    Numeral.toULong ⟨negative, 48 :: digits⟩ = Numeral.toULong ⟨negative, digits⟩ := by
  have hvalue : hexValue (48 :: digits) = hexValue digits := by simp [hexValue, hexDigit?]
  simp only [Numeral.toULong, hvalue]

end Digits

section Numerals

variable {w sign base rest s : List UInt8}

/-- The digits behind `0x` count, and the zero in front of them. -/
theorem takeWhile_isHex_zero (rest : List UInt8) : (48 :: rest).takeWhile isHex = 48 :: rest.takeWhile isHex :=
  List.takeWhile_cons_of_pos (by decide)

/-- Without `0x` in front everything counts. -/
theorem dropX_of_plain (h : ¬zeroX <+: s) (h' : ¬capitalZeroX <+: s) : dropX s = s := by
  match s with
  | [] => rfl
  | [_] => rfl
  | c :: d :: s =>
    refine if_neg ?_
    rintro ⟨rfl, rfl | rfl⟩
    · exact h ⟨s, rfl⟩
    · exact h' ⟨s, rfl⟩

/-- A digit is no sign, and no space. -/
theorem ne_of_isHex {c : UInt8} (h : isHex c = true) : c ≠ 45 ∧ c ≠ 43 ∧ isSpace c = false := by
  refine ⟨?_, ?_, ?_⟩
  · rintro rfl
    exact absurd h (by decide)
  · rintro rfl
    exact absurd h (by decide)
  · rw [Bool.eq_false_iff]
    intro hspace
    exact absurd h (by simp [isHex_eq_false_of_isSpace hspace])

/-- Behind the sign there is a digit. -/
theorem StartsNumeral.head (h : StartsNumeral w sign base rest) : ∃ c s, base ++ rest = c :: s ∧ isHex c = true := by
  obtain rfl | rfl | rfl := h.isBase
  · obtain ⟨hdigits, -⟩ := h.plain rfl
    cases rest with
    | nil => exact absurd rfl hdigits
    | cons c rest =>
      refine ⟨c, rest, rfl, ?_⟩
      by_contra hc
      exact hdigits (List.takeWhile_cons_of_neg hc)
  · exact ⟨48, 120 :: rest, rfl, by decide⟩
  · exact ⟨48, 88 :: rest, rfl, by decide⟩

/-- The digits that count behind the sign. -/
theorem StartsNumeral.digits (h : StartsNumeral w sign base rest) :
    (dropX (base ++ rest)).takeWhile isHex ≠ [] ∧ ∀ negative,
      Numeral.toULong ⟨negative, (dropX (base ++ rest)).takeWhile isHex⟩ =
        Numeral.toULong ⟨negative, rest.takeWhile isHex⟩ := by
  have hbased : (48 :: rest).takeWhile isHex ≠ [] ∧ ∀ negative,
      Numeral.toULong ⟨negative, (48 :: rest).takeWhile isHex⟩ =
        Numeral.toULong ⟨negative, rest.takeWhile isHex⟩ := by
    rw [takeWhile_isHex_zero]
    exact ⟨List.cons_ne_nil _ _, fun negative => toULong_zero_cons negative _⟩
  obtain rfl | rfl | rfl := h.isBase
  · obtain ⟨hdigits, hplain, hplain'⟩ := h.plain rfl
    rw [List.nil_append, dropX_of_plain hplain hplain']
    exact ⟨hdigits, fun _ => rfl⟩
  · exact hbased
  · exact hbased

/-- A scan of a word that starts with a numeral reads it. -/
theorem StartsNumeral.numeral?_eq (h : StartsNumeral w sign base rest) :
    ∃ n, numeral? w = some n ∧ n.toULong = Numeral.toULong ⟨decide (sign = [45]), rest.takeWhile isHex⟩ := by
  obtain ⟨c, s, hhead, hc⟩ := h.head
  obtain ⟨hne, hvalue⟩ := h.digits
  obtain ⟨hminus, hplus, hspace⟩ := ne_of_isHex hc
  have hscan : splitSign (w.dropWhile isSpace) = (decide (sign = [45]), base ++ rest) := by
    rw [h.split, hhead]
    obtain rfl | rfl | rfl := h.isSign
    · rw [List.nil_append, List.dropWhile_cons_of_neg (by simp [hspace]), splitSign, if_neg hminus, if_neg hplus]
      rfl
    · rfl
    · rfl
  refine ⟨⟨decide (sign = [45]), (dropX (base ++ rest)).takeWhile isHex⟩, ?_, hvalue _⟩
  simp only [numeral?, hscan]
  exact if_neg hne

/-- What a scan reads at the start of a word is a numeral there. -/
theorem startsNumeral_of_numeral? {n : Numeral} (hw : ∀ c ∈ w.head?, isSpace c = false) (h : numeral? w = some n) :
    ∃ sign base rest, StartsNumeral w sign base rest := by
  cases w with
  | nil => cases h
  | cons c w =>
    have hc : isSpace c = false := hw c rfl
    -- The sign, and what is behind it.
    obtain ⟨sign, s, hsplit, hsign, hbehind⟩ : ∃ sign s, c :: w = sign ++ s ∧
        (sign = [] ∨ sign = [43] ∨ sign = [45]) ∧ (splitSign (c :: w)).2 = s := by
      by_cases hminus : c = 45
      · exact ⟨[45], w, by rw [hminus]; rfl, .inr (.inr rfl), by rw [splitSign, if_pos hminus]⟩
      by_cases hplus : c = 43
      · exact ⟨[43], w, by rw [hplus]; rfl, .inr (.inl rfl), by rw [splitSign, if_neg hminus, if_pos hplus]⟩
      · exact ⟨[], c :: w, rfl, .inl rfl, by rw [splitSign, if_neg hminus, if_neg hplus]⟩
    have hdigits : (dropX s).takeWhile isHex ≠ [] := by
      intro hnil
      simp only [numeral?, List.dropWhile_cons_of_neg (show ¬isSpace c = true by simp [hc]), hbehind, hnil,
        if_true] at h
      cases h
    by_cases hx : zeroX <+: s
    · obtain ⟨rest, rfl⟩ := hx
      exact ⟨sign, zeroX, rest, hsplit, hsign, .inr (.inl rfl), fun h => absurd h (by decide)⟩
    by_cases hX : capitalZeroX <+: s
    · obtain ⟨rest, rfl⟩ := hX
      exact ⟨sign, capitalZeroX, rest, hsplit, hsign, .inr (.inr rfl), fun h => absurd h (by decide)⟩
    · rw [dropX_of_plain hx hX] at hdigits
      exact ⟨sign, [], s, hsplit, hsign, .inl rfl, fun _ => ⟨hdigits, hx, hX⟩⟩

end Numerals

section Words

/-- Spaces in front of the words do not count. -/
theorem words_append_of_spaces {front : List UInt8} (hfront : ∀ c ∈ front, isSpace c = true) (s : List UInt8) :
    words (front ++ s) = words s := by
  induction front with
  | nil => rfl
  | cons c front ih =>
    obtain ⟨hc, hfront⟩ := List.forall_mem_cons.mp hfront
    rw [← ih hfront, words, List.cons_append, List.splitOnP_cons_eq_if_modifyHead, if_pos hc]
    rfl

/-- There are no words among spaces. -/
theorem words_of_spaces {s : List UInt8} (hs : ∀ c ∈ s, isSpace c = true) : words s = [] := by
  have h := words_append_of_spaces hs []
  rwa [List.append_nil] at h

/-- The first word goes as far as there is no space. -/
theorem words_append {w tail : List UInt8} (hw : IsWord w) (htail : StartsSpaced tail) :
    words (w ++ tail) = w :: words tail := by
  have hne : (!w.isEmpty) = true := by simpa using hw.ne_nil
  cases tail with
  | nil =>
    rw [List.append_nil, words, List.splitOnP_eq_singleton hw.no_space, List.filter_cons, if_pos hne]
    rfl
  | cons c tail =>
    have hc : isSpace c = true := htail c rfl
    have hspace : ∀ d ∈ [c], isSpace d = true := by simpa using hc
    have htail : words (c :: tail) = words tail := words_append_of_spaces hspace tail
    rw [htail, words, List.splitOnP_append_cons_of_forall_mem hw.no_space c hc, List.filter_cons, if_pos hne, words]

/-- A string is spaces only, or spaces and a word and a string that is shorter. -/
theorem words_induction {P : List UInt8 → Prop} (spaces : ∀ s, (∀ c ∈ s, isSpace c = true) → P s)
    (word : ∀ front w tail, (∀ c ∈ front, isSpace c = true) → IsWord w → StartsSpaced tail → P tail →
      P (front ++ (w ++ tail))) (s : List UInt8) : P s := by
  induction hlen : s.length using Nat.strong_induction_on generalizing s with
  | _ n ih =>
    have hfront : ∀ c ∈ s.takeWhile isSpace, isSpace c = true := fun c hc => List.mem_takeWhile_imp hc
    have hsplit : s.takeWhile isSpace ++ s.dropWhile isSpace = s := List.takeWhile_append_dropWhile
    cases hrest : s.dropWhile isSpace with
    | nil =>
      rw [hrest, List.append_nil] at hsplit
      exact spaces s (hsplit ▸ hfront)
    | cons c rest =>
      have hc : isSpace c = false := by
        have hhead := List.head?_dropWhile_not isSpace s
        rwa [hrest] at hhead
      let notSpace : UInt8 → Bool := fun c => !isSpace c
      have hword : IsWord (c :: rest.takeWhile notSpace) := by
        refine ⟨List.cons_ne_nil _ _, List.forall_mem_cons.mpr ⟨hc, fun d hd => ?_⟩⟩
        simpa [notSpace] using List.mem_takeWhile_imp hd
      have htail : StartsSpaced (rest.dropWhile notSpace) := by
        intro d hd
        have hhead := List.head?_dropWhile_not notSpace rest
        rw [Option.mem_def.mp hd] at hhead
        simpa [notSpace] using hhead
      have hrest' : rest.takeWhile notSpace ++ rest.dropWhile notSpace = rest := List.takeWhile_append_dropWhile
      have hshort : (rest.dropWhile notSpace).length < n := by
        have hwhole := congrArg List.length hsplit
        have hpart := congrArg List.length hrest'
        rw [hrest, List.length_append, List.length_cons] at hwhole
        rw [List.length_append] at hpart
        omega
      have h := word _ _ _ hfront hword htail (ih _ hshort _ rfl)
      rwa [List.cons_append, hrest', ← hrest, hsplit] at h

/-- The words of a string are words. -/
theorem isWord_of_mem_words {s w : List UInt8} (h : w ∈ words s) : IsWord w := by
  induction s using words_induction with
  | spaces s hs => rw [words_of_spaces hs] at h; cases h
  | word front w' tail hfront hw htail ih =>
    rw [words_append_of_spaces hfront, words_append hw htail] at h
    obtain rfl | h := List.mem_cons.mp h
    · exact hw
    · exact ih h

end Words

section Scan

variable {c : UInt8} {s tail front needle : List UInt8}

/-- Digits end at the space behind a word. -/
theorem takeWhile_isHex_append (htail : StartsSpaced tail) (s : List UInt8) :
    (s ++ tail).takeWhile isHex = s.takeWhile isHex := by
  induction s with
  | nil =>
    cases tail with
    | nil => rfl
    | cons c tail =>
      have hc : isHex c = false := isHex_eq_false_of_isSpace (htail c rfl)
      exact List.takeWhile_cons_of_neg (by simp [hc])
  | cons c s ih => rw [List.cons_append, List.takeWhile_cons, ih, List.takeWhile_cons]

/-- A space is not part of `0x`. -/
theorem dropX_append (htail : StartsSpaced tail) (s : List UInt8) :
    dropX (s ++ tail) = dropX s ++ tail := by
  match s with
  | [] =>
    match tail with
    | [] => rfl
    | [_] => rfl
    | c :: d :: tail =>
      have hc : c ≠ 48 := by
        rintro rfl
        exact absurd (htail 48 rfl) (by decide)
      exact if_neg fun h => hc h.1
  | [a] =>
    match tail with
    | [] => rfl
    | d :: tail =>
      have hd : ¬(d = 120 ∨ d = 88) := by
        rintro (rfl | rfl)
        · exact absurd (htail 120 rfl) (by decide)
        · exact absurd (htail 88 rfl) (by decide)
      exact if_neg fun h => hd h.2
  | a :: b :: s =>
    by_cases h : a = 48 ∧ (b = 120 ∨ b = 88)
    · simp only [List.cons_append, dropX, if_pos h]
    · simp only [List.cons_append, dropX, if_neg h]

/-- The sign is the first character of a word. -/
theorem splitSign_append (c : UInt8) (s tail : List UInt8) :
    splitSign (c :: s ++ tail) = ((splitSign (c :: s)).1, (splitSign (c :: s)).2 ++ tail) := by
  simp only [List.cons_append, splitSign]
  split_ifs <;> rfl

/-- Spaces in front of a numeral are skipped. -/
theorem numeral?_append_of_spaces (hfront : ∀ c ∈ front, isSpace c = true) (s : List UInt8) :
    numeral? (front ++ s) = numeral? s := by
  simp only [numeral?, List.dropWhile_append_of_pos hfront]

/-- A numeral ends where its word ends. -/
theorem numeral?_append (hc : isSpace c = false) (htail : StartsSpaced tail) :
    numeral? (c :: s ++ tail) = numeral? (c :: s) := by
  have hstart : ∀ rest, (c :: rest).dropWhile isSpace = c :: rest := fun rest =>
    List.dropWhile_cons_of_neg (by simp [hc])
  simp only [numeral?]
  rw [List.cons_append, hstart, hstart, ← List.cons_append, splitSign_append]
  simp only [dropX_append htail, takeWhile_isHex_append htail]

/-- There is no numeral among spaces. -/
theorem numeral?_of_spaces (hs : ∀ c ∈ s, isSpace c = true) : numeral? s = none := by
  rw [← List.append_nil s, numeral?_append_of_spaces hs]
  rfl

/-- A scan sees the first word only. -/
theorem numeral?_eq_words (s : List UInt8) : numeral? s = (words s).head?.bind numeral? := by
  induction s using words_induction with
  | spaces s hs => rw [numeral?_of_spaces hs, words_of_spaces hs]; rfl
  | word front w tail hfront hw htail _ =>
    rw [numeral?_append_of_spaces hfront, words_append_of_spaces hfront, words_append hw htail]
    cases w with
    | nil => exact absurd rfl hw.ne_nil
    | cons c w => exact numeral?_append (hw.no_space c (List.mem_cons_self ..)) htail

/-- What `strstr` finds starts with the needle. -/
theorem prefix_of_strstr {found : List UInt8} (h : strstr needle s = some found) : needle <+: found := by
  induction s with
  | nil =>
    rw [strstr] at h
    split at h
    · next hneedle => exact hneedle ▸ List.nil_prefix
    · cases h
  | cons c s ih =>
    rw [strstr] at h
    split at h
    · next hneedle => cases h; exact List.isPrefixOf_iff_prefix.mp hneedle
    · exact ih h

/-- A search for `0x` finds it where it stands first. -/
theorem strstr_zeroX_iff {found : List UInt8} :
    strstr zeroX s = some found ↔ ∃ front rest, s = front ++ found ∧ found = zeroX ++ rest ∧ ¬zeroX <:+: front := by
  induction s with
  | nil =>
    refine iff_of_false (by simp [strstr, zeroX]) ?_
    rintro ⟨front, rest, hsplit, rfl, -⟩
    simp [zeroX] at hsplit
  | cons c s ih =>
    rw [strstr]
    split
    case isTrue hhere =>
      obtain ⟨rest, hrest⟩ := List.isPrefixOf_iff_prefix.mp hhere
      constructor
      · rintro h
        cases h
        exact ⟨[], rest, rfl, hrest.symm, by simp [zeroX]⟩
      · rintro ⟨front, rest', hsplit, rfl, hfront⟩
        -- Nothing in front of it can begin a `0x` that ends in it.
        match front with
        | [] => exact congrArg some hsplit
        | [d] => simp [zeroX, ← hrest] at hsplit
        | d :: e :: front =>
          refine absurd ?_ hfront
          rw [← hrest] at hsplit
          simp only [zeroX, List.cons_append, List.nil_append, List.cons.injEq] at hsplit
          obtain ⟨rfl, rfl, -⟩ := hsplit
          exact List.infix_append_left
    case isFalse hnot =>
      rw [ih]
      constructor
      · rintro ⟨front, rest, rfl, rfl, hfront⟩
        refine ⟨c :: front, rest, rfl, rfl, fun hin => ?_⟩
        obtain hin | hin := List.infix_cons_iff.mp hin
        · exact hnot (List.isPrefixOf_iff_prefix.mpr (hin.trans (List.prefix_append (c :: front) _)))
        · exact hfront hin
      · rintro ⟨front, rest, hsplit, rfl, hfront⟩
        cases front with
        | nil => exact absurd (List.isPrefixOf_iff_prefix.mpr ⟨rest, hsplit.symm⟩) hnot
        | cons d front =>
          obtain ⟨rfl, rfl⟩ := List.cons.inj hsplit
          exact ⟨front, rest, rfl, rfl, fun hin => hfront (List.infix_cons hin)⟩

/-- A search for `0x` finds one wherever it stands. -/
theorem strstr_ne_none (front back : List UInt8) : strstr zeroX (front ++ zeroX ++ back) ≠ none := by
  induction front with
  | nil => exact Option.some_ne_none _
  | cons c front ih =>
    rw [List.cons_append, List.cons_append, strstr]
    split
    · exact Option.some_ne_none _
    · exact ih

/-- A needle without spaces does not go on behind a word. -/
theorem isPrefixOf_append (hneedle : ∀ c ∈ needle, isSpace c = false) (htail : StartsSpaced tail) (s : List UInt8) :
    needle.isPrefixOf (s ++ tail) = needle.isPrefixOf s := by
  induction s generalizing needle with
  | nil =>
    match needle, tail with
    | [], _ => rfl
    | _ :: _, [] => rfl
    | d :: needle, c :: tail =>
      have hne : d ≠ c := by
        rintro rfl
        exact absurd (htail d rfl) (by simp [hneedle d (List.mem_cons_self ..)])
      simp [List.isPrefixOf, hne]
  | cons c s ih =>
    cases needle with
    | nil => rfl
    | cons d needle =>
      rw [List.cons_append, List.isPrefixOf, List.isPrefixOf, ih (List.forall_mem_cons.mp hneedle).2]

/-- A needle without spaces is not found among them. -/
theorem strstr_append_of_spaces (hneedle : IsWord needle) (hfront : ∀ c ∈ front, isSpace c = true)
    (s : List UInt8) : strstr needle (front ++ s) = strstr needle s := by
  induction front with
  | nil => rfl
  | cons c front ih =>
    obtain ⟨hc, hfront⟩ := List.forall_mem_cons.mp hfront
    have hstart : StartsSpaced (c :: front ++ s) := fun d hd => by
      cases hd
      exact hc
    have hnot : needle.isPrefixOf (c :: front ++ s) = false := by
      rw [← List.nil_append (c :: front ++ s), isPrefixOf_append hneedle.no_space hstart]
      cases needle with
      | nil => exact absurd rfl hneedle.ne_nil
      | cons d needle => rfl
    rw [← ih hfront, List.cons_append, strstr, if_neg (by rw [← List.cons_append, hnot]; exact Bool.false_ne_true)]

/-- A needle without spaces is found in the first word, or behind it. -/
theorem strstr_append (hneedle : IsWord needle) (htail : StartsSpaced tail) (s : List UInt8) :
    strstr needle (s ++ tail) = ((strstr needle s).map (· ++ tail)).or (strstr needle tail) := by
  induction s with
  | nil =>
    have hnil : strstr needle [] = none := if_neg hneedle.ne_nil
    rw [hnil]
    rfl
  | cons c s ih =>
    have hpre := isPrefixOf_append hneedle.no_space htail (c :: s)
    rw [List.cons_append] at hpre ⊢
    rw [strstr, strstr, hpre]
    split
    · rfl
    · exact ih

/-- A search with a needle without spaces, and the scan where it ends, see the words only. -/
theorem strstr_eq_words (hneedle : IsWord needle) (s : List UInt8) :
    (strstr needle s).map numeral? = ((words s).findSome? (strstr needle)).map numeral? := by
  induction s using words_induction with
  | spaces s hs =>
    have hnil : strstr needle [] = none := if_neg hneedle.ne_nil
    rw [words_of_spaces hs, ← List.append_nil s, strstr_append_of_spaces hneedle hs, hnil]
    rfl
  | word front w tail hfront hw htail ih =>
    rw [strstr_append_of_spaces hneedle hfront, strstr_append hneedle htail, words_append_of_spaces hfront,
      words_append hw htail, List.findSome?_cons]
    cases hfound : strstr needle w with
    | none => exact ih
    | some found =>
      -- What is found starts with the needle, so no space is skipped there.
      obtain ⟨rest, rfl⟩ := prefix_of_strstr hfound
      cases needle with
      | nil => exact absurd rfl hneedle.ne_nil
      | cons c needle => exact congrArg some (numeral?_append (hneedle.no_space c (List.mem_cons_self ..)) htail)

end Scan

end LinuxFunctionTest.Scanf
