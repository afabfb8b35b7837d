import Bookmarks.Json.Reader
import Bookmarks.Json.Writer

/-! # Reading back the leaves

A string and a whole number are read back from what the writer makes of them, each
with the input behind it left over.  For a string every character is one unit: the
character itself or, for a control character without a letter of its own, its number.
A number is followed by something that cannot go on with it (`Ends`), so that **no
digit of what follows is taken for one of its own**.
-/
namespace Bookmarks.Json.Reader

open Text

/-! ## Strings -/

/-- The unit that a character is written as. -/
def unitOf (c : Char) : StringUnit :=
  if c.toNat < 0x20 ∧ c ∉ ['\x08', '\t', '\n', '\x0c', '\r'] then .code c.toNat else .symbol (some c)

/-- The digits of a control character are read as its number. -/
theorem code?_controlDigits {n : Nat} (h : n < 0x20) :
    code? (some '0') (some '0') (some (Nat.digitChar (n / 16))) (some (Nat.digitChar (n % 16))) = some n := by
  have hall : ∀ n < 0x20, code? (some '0') (some '0') (some (Nat.digitChar (n / 16)))
      (some (Nat.digitChar (n % 16))) = some n := by decide
  exact hall n h

theorem stringUnits_quote (rest : List Symbol) : stringUnits (some '"' :: rest) = some ([], rest) := by
  rw [stringUnits.eq_def]
  exact if_pos rfl

/-- A symbol that needs no escape is a unit of its own. -/
theorem stringUnits_plain {s : Symbol} (hquote : s ≠ some '"') (hslash : s ≠ some '\\')
    (hcontrol : isControl s = false) (rest : List Symbol) :
    stringUnits (s :: rest) = (stringUnits rest).map fun r => (.symbol s :: r.1, r.2) := by
  rw [stringUnits.eq_def]
  simp only [if_neg hquote, if_neg hslash, hcontrol, Bool.false_eq_true, if_false]

/-- A number of sixteen bits is a unit. -/
theorem stringUnits_code {a b c d : Symbol} {n : Nat} (h : code? a b c d = some n) (rest : List Symbol) :
    stringUnits (some '\\' :: some 'u' :: a :: b :: c :: d :: rest) =
      (stringUnits rest).map fun r => (.code n :: r.1, r.2) := by
  rw [stringUnits.eq_def]
  simp only [Option.some.injEq, Char.reduceEq, if_false, if_true, h]

theorem stringUnits_escapeChar (c : Char) (rest : List Symbol) :
    stringUnits ((escapeChar c).map some ++ rest) =
      (stringUnits rest).map fun r => (unitOf c :: r.1, r.2) := by
  unfold escapeChar
  split
  · next h => subst h; rfl
  split
  · next h => subst h; rfl
  split
  · next h => subst h; rfl
  split
  · next h => subst h; rfl
  split
  · next h => subst h; rfl
  split
  · next h => subst h; rfl
  split
  · next h => subst h; rfl
  split
  · next hcontrol =>
    have hunit : unitOf c = .code c.toNat := by
      unfold unitOf
      rw [if_pos ⟨hcontrol, by simp [*]⟩]
    rw [hunit]
    exact stringUnits_code (code?_controlDigits hcontrol) rest
  · next hquote hslash _ _ _ _ _ hcontrol =>
    have hunit : unitOf c = .symbol (some c) := by
      unfold unitOf
      rw [if_neg fun h => hcontrol h.1]
    rw [hunit]
    exact stringUnits_plain (by simpa using hquote) (by simpa using hslash) (by simpa [isControl] using hcontrol) rest

theorem stringUnits_escapeChars (cs : List Char) (rest : List Symbol) :
    stringUnits ((cs.flatMap escapeChar).map some ++ some '"' :: rest) = some (cs.map unitOf, rest) := by
  induction cs with
  | nil => exact stringUnits_quote rest
  | cons c cs ih =>
    rw [List.flatMap_cons, List.map_append, List.append_assoc, stringUnits_escapeChar, ih]
    rfl

/-- A control character is no half of a surrogate pair. -/
theorem unitChars?_unitOf (c : Char) (units : List StringUnit) :
    unitChars? (unitOf c :: units) = (unitChars? units).map (c :: ·) := by
  unfold unitOf
  split
  · next h =>
    have hhigh : isHighSurrogate c.toNat = false := by
      simp only [isHighSurrogate, Bool.and_eq_false_iff, decide_eq_false_iff_not]
      omega
    have hlow : isLowSurrogate c.toNat = false := by
      simp only [isLowSurrogate, Bool.and_eq_false_iff, decide_eq_false_iff_not]
      omega
    rw [unitChars?.eq_def]
    simp [hhigh, hlow, Char.ofNat_toNat]
  · rfl

theorem unitChars?_map_unitOf (cs : List Char) : unitChars? (cs.map unitOf) = some cs := by
  induction cs with
  | nil => rfl
  | cons c cs ih => rw [List.map_cons, unitChars?_unitOf, ih, Option.map_some]

/-- **A string is read back**, whatever characters it holds. -/
theorem stringAfterQuote_escapeChars (s : String) (rest : List Symbol) :
    stringAfterQuote ((s.toList.flatMap escapeChar).map some ++ some '"' :: rest) = some (some s, rest) := by
  unfold stringAfterQuote
  rw [stringUnits_escapeChars, Option.map_some, unitChars?_map_unitOf, Option.map_some, String.ofList_toList]

/-! ## Whole numbers -/

/-- The symbols that may stand behind a value. -/
def Ends (rest : List Symbol) : Prop :=
  ∀ s ∈ rest.head?, isSpace s ∨ s = some ',' ∨ s = some ']' ∨ s = some '\x7d'

theorem ends_nil : Ends [] := by
  intro s hs
  cases hs

theorem ends_cons {s : Symbol} {rest : List Symbol}
    (h : isSpace s ∨ s = some ',' ∨ s = some ']' ∨ s = some '\x7d') : Ends (s :: rest) := by
  intro t ht
  obtain rfl : s = t := Option.some.inj ht
  exact h

/-- What ends a value goes on with no number. -/
theorem Ends.stops {s : Symbol} {rest : List Symbol} (h : Ends (s :: rest)) :
    digit? s = none ∧ s ≠ some '.' ∧ s ≠ some 'e' ∧ s ≠ some 'E' := by
  have hs := h s rfl
  simp only [isSpace, Bool.or_eq_true, beq_iff_eq] at hs
  rcases hs with ((((rfl | rfl) | rfl) | rfl) | rfl | rfl | rfl) <;> decide

/-- The value of a digit. -/
def digitValue (c : Char) : Nat := c.toNat - 48

theorem digit?_of_isDigit {c : Char} (h : c.isDigit) : digit? (some c) = some (digitValue c) := by
  obtain ⟨hlow, hhigh⟩ := Char.isDigit_iff_toNat.mp h
  have hle : '0' ≤ c ∧ c ≤ '9' := ⟨hlow, hhigh⟩
  simp only [digit?, if_pos hle, digitValue]

theorem takeDigits_append {cs : List Char} (hcs : ∀ c ∈ cs, c.isDigit) {rest : List Symbol}
    (hrest : Ends rest) : takeDigits (cs.map some ++ rest) = (cs.map digitValue, rest) := by
  induction cs with
  | nil =>
    cases rest with
    | nil => rfl
    | cons s rest => simp [takeDigits, hrest.stops.1]
  | cons c cs ih =>
    obtain ⟨hc, hcs⟩ := List.forall_mem_cons.mp hcs
    simp [takeDigits, digit?_of_isDigit hc, ih hcs]

theorem digitsValue_map (cs : List Char) : digitsValue (cs.map digitValue) = Nat.ofDigitChars 10 cs 0 := by
  rw [digitsValue, List.foldl_map, Nat.ofDigitChars_eq_foldl]
  congr 1
  funext n c
  rw [Nat.mul_comm]
  rfl

/-- A positive number is not written with a zero in front. -/
theorem head_toDigits {n : Nat} (h : 0 < n) : ∃ c cs, Nat.toDigits 10 n = c :: cs ∧ digitValue c ≠ 0 := by
  -- the first digit of `n` is that of `n / 10`, down to a single digit
  induction n using Nat.strongRecOn with
  | _ n ih =>
    by_cases hn : n < 10
    · refine ⟨_, [], Nat.toDigits_of_lt_base hn, ?_⟩
      rw [digitValue, Nat.toNat_digitChar_sub_48_of_lt_ten hn]
      omega
    · obtain ⟨c, cs, hcs, hc⟩ := ih (n / 10) (by omega) (by omega)
      refine ⟨c, cs ++ [(n % 10).digitChar], ?_, hc⟩
      rw [Nat.toDigits_of_base_le (by omega) (by omega), hcs]
      rfl

theorem isDigit_toDigits (n : Nat) : ∀ c ∈ Nat.toDigits 10 n, c.isDigit :=
  fun _ hc => Nat.isDigit_of_mem_toDigits (by omega) (by omega) hc

theorem toDigits_eq_cons (n : Nat) : ∃ c cs, Nat.toDigits 10 n = c :: cs ∧ c.isDigit := by
  cases h : Nat.toDigits 10 n with
  | nil => exact absurd h Nat.toDigits_ne_nil
  | cons c cs => exact ⟨c, cs, rfl, isDigit_toDigits n c (by simp [h])⟩

/-- The digits of a number are the whole part of a literal. -/
theorem wholePart_toDigits (n : Nat) {rest : List Symbol} (hrest : Ends rest) :
    wholePart ((Nat.toDigits 10 n).map some ++ rest) = some ((Nat.toDigits 10 n).map digitValue, rest) := by
  unfold wholePart
  rw [takeDigits_append (isDigit_toDigits n) hrest]
  -- a zero in front is refused unless it is the only digit
  rcases Nat.eq_zero_or_pos n with rfl | hpos
  · rfl
  · obtain ⟨c, cs, hcs, hc⟩ := head_toDigits hpos
    rw [hcs, List.map_cons]
    cases hv : digitValue c with
    | zero => exact absurd hv hc
    | succ k => rfl

/-- They stand for that number. -/
theorem digitsValue_toDigits (n : Nat) : digitsValue ((Nat.toDigits 10 n).map digitValue) = n := by
  rw [digitsValue_map, Nat.ofDigitChars_ten_toDigits]

theorem fractionPart_of_ends {rest : List Symbol} (hrest : Ends rest) : fractionPart rest = some ([], rest) := by
  unfold fractionPart
  split
  · exact absurd rfl hrest.stops.2.1
  · rfl

theorem exponentPart_of_ends {rest : List Symbol} (hrest : Ends rest) : exponentPart rest = some (none, rest) := by
  unfold exponentPart
  split
  · next s input =>
    obtain ⟨-, -, he, hE⟩ := hrest.stops
    rw [if_neg (by simp [he, hE])]
  · rfl

/-- What the digits of a whole number are read as, behind its sign. -/
def readDigits (negative : Bool) (n : Nat) : Option Number :=
  literalNumber negative ((Nat.toDigits 10 n).map digitValue) [] none

theorem unsignedNumber_toDigits (negative : Bool) (n : Nat) {rest : List Symbol} (hrest : Ends rest) :
    unsignedNumber negative ((Nat.toDigits 10 n).map some ++ rest) = some (.number (readDigits negative n), rest) := by
  unfold unsignedNumber
  simp only [wholePart_toDigits n hrest, fractionPart_of_ends hrest, exponentPart_of_ends hrest, Option.bind_eq_bind,
    Option.bind_some]
  rfl

theorem readDigits_of_isExact {negative : Bool} {n : Nat} (hn : isExact negative n) :
    readDigits negative n = some (.integer (if negative then -(n : Int) else n)) := by
  simp [readDigits, literalNumber, digitsValue_toDigits, hn]

/-- Digits that do not fit are read as a double, or as no number; so whatever whole number
digits are read as, it is theirs. -/
theorem readDigits_eq_integer {negative : Bool} {n : Nat} {m : Int} (h : readDigits negative n = some (.integer m)) :
    m = if negative then -(n : Int) else n := by
  cases hexact : isExact negative n with
  | true =>
    rw [readDigits_of_isExact hexact] at h
    exact (Number.integer.inj (Option.some.inj h)).symm
  | false =>
    simp only [readDigits, literalNumber, digitsValue_toDigits, hexact, Bool.and_false, Bool.false_eq_true, if_false] at h
    obtain ⟨x, -, hx⟩ := Option.map_eq_some_iff.mp h
    cases hx

/-- What starts with a digit has no sign. -/
theorem number_of_isDigit {c : Char} (hc : c.isDigit) (rest : List Symbol) :
    number (some c :: rest) = unsignedNumber false (some c :: rest) := by
  unfold number
  split
  · next h =>
    obtain rfl : c = '-' := Option.some.inj (List.cons.inj h).1
    exact absurd hc (by decide)
  · rfl

/-- Whether a whole number is kept exactly when it is read. -/
def IsWhole (n : Int) : Prop := -(2 ^ 63) ≤ n ∧ n < 2 ^ 64

/-- What a whole number is read as. -/
def readInteger : Int → Option Number
  | .ofNat n => readDigits false n
  | .negSucc n => readDigits true (n + 1)

/-- **A whole number is read back**, as what the reader makes of its digits. -/
theorem number_integerChars (n : Int) {rest : List Symbol} (hrest : Ends rest) :
    number ((integerChars n).map some ++ rest) = some (.number (readInteger n), rest) := by
  cases n with
  | ofNat n =>
    obtain ⟨c, cs, hcs, hc⟩ := toDigits_eq_cons n
    calc number ((Nat.toDigits 10 n).map some ++ rest)
        = unsignedNumber false ((Nat.toDigits 10 n).map some ++ rest) := by
          rw [hcs, List.map_cons, List.cons_append, number_of_isDigit hc]
      _ = _ := unsignedNumber_toDigits false n hrest
  | negSucc n => exact unsignedNumber_toDigits true (n + 1) hrest

/-- A whole number that fits is read as itself. -/
theorem readInteger_of_isWhole {n : Int} (hn : IsWhole n) : readInteger n = some (.integer n) := by
  obtain ⟨hlow, hhigh⟩ := hn
  cases n with
  | ofNat n =>
    have hexact : isExact false n := by
      simp only [isExact, Bool.false_eq_true, if_false, decide_eq_true_eq]
      exact Int.ofNat_lt.mp hhigh
    exact readDigits_of_isExact hexact
  | negSucc n =>
    have hexact : isExact true (n + 1) := by
      simp only [isExact, if_true, Bool.and_eq_true, decide_eq_true_eq]
      omega
    exact readDigits_of_isExact hexact

/-- A whole number is read as no other one. -/
theorem readInteger_eq_integer {n m : Int} (h : readInteger n = some (.integer m)) : m = n := by
  cases n with
  | ofNat n => exact readDigits_eq_integer h
  | negSucc n => exact readDigits_eq_integer h

theorem integerChars_eq_cons (n : Int) : ∃ c cs, integerChars n = c :: cs ∧ (c = '-' ∨ c.isDigit) := by
  cases n with
  | ofNat n =>
    obtain ⟨c, cs, hcs, hc⟩ := toDigits_eq_cons n
    exact ⟨c, cs, hcs, Or.inr hc⟩
  | negSucc n => exact ⟨'-', _, rfl, Or.inl rfl⟩

end Bookmarks.Json.Reader
