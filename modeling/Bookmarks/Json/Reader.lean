import Bookmarks.Decimal.Literal
import Bookmarks.Json.Document
import Bookmarks.Text.Symbols

/-! # Reading JSON

The grammar of RFC 8259 over the symbols of a text.  White space is the four
characters of that grammar, a control character may not stand inside a string,
and nothing but white space may follow the value.

A string is read in two steps: its units first, where `\uXXXX` is one unit, then
the characters they stand for, where two units of a surrogate pair make one.
-/
namespace Bookmarks.Json.Reader

open Text Decimal

/-- White space between the parts of a text. -/
def isSpace (s : Symbol) : Bool :=
  s == some ' ' || s == some '\n' || s == some '\t' || s == some '\r'

/-- The input from the next part on. -/
def skipSpace (input : List Symbol) : List Symbol :=
  input.dropWhile isSpace

/-- The input after a word, if it starts with it. -/
def skipWord : List Char → List Symbol → Option (List Symbol)
  | [], input => some input
  | c :: word, s :: input => if s = some c then skipWord word input else none
  | _ :: _, [] => none

/-! ## Strings -/

/-- One unit of a string: a symbol that stands for itself, or a number of
sixteen bits. -/
inductive StringUnit where
  | symbol (s : Symbol)
  | code (n : Nat)
  deriving DecidableEq, Repr

/-- The value of a hexadecimal digit. -/
def hexValue? : Symbol → Option Nat
  | some c =>
    if '0' ≤ c ∧ c ≤ '9' then some (c.toNat - 48)
    else if 'a' ≤ c ∧ c ≤ 'f' then some (c.toNat - 87)
    else if 'A' ≤ c ∧ c ≤ 'F' then some (c.toNat - 55)
    else none
  | none => none

/-- The number of four hexadecimal digits. -/
def code? (a b c d : Symbol) : Option Nat :=
  match hexValue? a, hexValue? b, hexValue? c, hexValue? d with
  | some a, some b, some c, some d => some (((a * 16 + b) * 16 + c) * 16 + d)
  | _, _, _, _ => none

/-- The character that a letter after a backslash stands for. -/
def escaped? : Char → Option Char
  | '"' => some '"'
  | '\\' => some '\\'
  | '/' => some '/'
  | 'b' => some '\x08'
  | 'f' => some '\x0c'
  | 'n' => some '\n'
  | 'r' => some '\r'
  | 't' => some '\t'
  | _ => none

/-- Whether a symbol may not stand in a string as it is. -/
def isControl : Symbol → Bool
  | some c => c.toNat < 0x20
  | none => false

/-- The units of a string up to its closing quote, and the input after it. -/
def stringUnits : List Symbol → Option (List StringUnit × List Symbol)
  | [] => none
  | s :: input =>
    if s = some '"' then some ([], input)
    else if s = some '\\' then
      match input with
      | some 'u' :: a :: b :: c :: d :: input =>
        match code? a b c d with
        | some n => (stringUnits input).map fun r => (.code n :: r.1, r.2)
        | none => none
      | some e :: input =>
        match escaped? e with
        | some c => (stringUnits input).map fun r => (.symbol (some c) :: r.1, r.2)
        | none => none
      | _ => none
    else if isControl s then none
    else (stringUnits input).map fun r => (.symbol s :: r.1, r.2)

/-- Whether a number is the first half of a surrogate pair. -/
def isHighSurrogate (n : Nat) : Bool := 0xD800 ≤ n && n < 0xDC00

/-- Whether a number is the second half of a surrogate pair. -/
def isLowSurrogate (n : Nat) : Bool := 0xDC00 ≤ n && n < 0xE000

/-- The character of a surrogate pair. -/
def pairedChar (high low : Nat) : Char :=
  Char.ofNat (0x10000 + (high - 0xD800) * 0x400 + (low - 0xDC00))

/-- The characters that units stand for, if every one of them stands for some. -/
def unitChars? : List StringUnit → Option (List Char)
  | [] => some []
  | .symbol (some c) :: units => (unitChars? units).map (c :: ·)
  | .symbol none :: _ => none
  | .code n :: units =>
    if isHighSurrogate n then
      match units with
      | .code m :: units =>
        if isLowSurrogate m then (unitChars? units).map (pairedChar n m :: ·) else none
      | _ => none
    else if isLowSurrogate n then none
    else (unitChars? units).map (Char.ofNat n :: ·)

/-- A string after its opening quote: the text, if it stands for one, and the
input after the closing quote. -/
def stringAfterQuote (input : List Symbol) : Option (Option String × List Symbol) :=
  (stringUnits input).map fun r => ((unitChars? r.1).map String.ofList, r.2)

/-! ## Numbers -/

/-- The value of a decimal digit. -/
def digit? : Symbol → Option Nat
  | some c => if '0' ≤ c ∧ c ≤ '9' then some (c.toNat - 48) else none
  | none => none

/-- The digits the input starts with, and the input after them. -/
def takeDigits : List Symbol → List Nat × List Symbol
  | [] => ([], [])
  | s :: input =>
    match digit? s with
    | some d => let r := takeDigits input; (d :: r.1, r.2)
    | none => ([], s :: input)

/-- The number that decimal digits stand for. -/
def digitsValue (digits : List Nat) : Nat :=
  digits.foldl (fun n d => n * 10 + d) 0

/-- The whole numbers kept exactly. -/
def isExact (negative : Bool) (n : Nat) : Bool :=
  if negative then 0 < n && n ≤ 2 ^ 63 else n < 2 ^ 64

/-- The number of a literal, if it is not too large. -/
def literalNumber (negative : Bool) (whole fraction : List Nat) (exponent : Option Int) : Option Number :=
  let n := digitsValue whole
  if fraction.isEmpty && exponent.isNone && isExact negative n then
    some (.integer (if negative then -(n : Int) else n))
  else
    (Scientific.ofDigits whole fraction (exponent.getD 0)).magnitude?.map fun m => .real ⟨negative, m⟩

/-- The whole part of a literal: a zero, or digits that start with none. -/
def wholePart (input : List Symbol) : Option (List Nat × List Symbol) :=
  match takeDigits input with
  | ([], _) => none
  | (0 :: _ :: _, _) => none
  | (digits, rest) => some (digits, rest)

/-- The digits after a point, if there is one. -/
def fractionPart : List Symbol → Option (List Nat × List Symbol)
  | some '.' :: input =>
    match takeDigits input with
    | ([], _) => none
    | (digits, rest) => some (digits, rest)
  | input => some ([], input)

/-- The digits of an exponent. -/
def exponentDigits (negative : Bool) (input : List Symbol) : Option (Option Int × List Symbol) :=
  match takeDigits input with
  | ([], _) => none
  | (digits, rest) =>
    let n : Int := digitsValue digits
    some (some (if negative then -n else n), rest)

/-- The exponent, if there is one. -/
def exponentPart : List Symbol → Option (Option Int × List Symbol)
  | s :: input =>
    if s = some 'e' ∨ s = some 'E' then
      match input with
      | some '+' :: input => exponentDigits false input
      | some '-' :: input => exponentDigits true input
      | input => exponentDigits false input
    else some (none, s :: input)
  | [] => some (none, [])

/-- The number after its sign. -/
def unsignedNumber (negative : Bool) (input : List Symbol) : Option (Document × List Symbol) := do
  let (whole, input) ← wholePart input
  let (fraction, input) ← fractionPart input
  let (exponent, input) ← exponentPart input
  return (.number (literalNumber negative whole fraction exponent), input)

/-- The number the input starts with. -/
def number : List Symbol → Option (Document × List Symbol)
  | some '-' :: input => unsignedNumber true input
  | input => unsignedNumber false input

/-! ## Values -/

mutual

/-- The value the input starts with, and the input after it. -/
def value : Nat → List Symbol → Option (Document × List Symbol)
  | 0, _ => none
  | fuel + 1, input =>
    match skipSpace input with
    | some '"' :: input => (stringAfterQuote input).map fun r => (.string r.1, r.2)
    | some '[' :: input =>
      match skipSpace input with
      | some ']' :: input => some (.array [], input)
      | input => (items fuel input).map fun r => (.array r.1, r.2)
    | some '\x7b' :: input =>
      match skipSpace input with
      | some '\x7d' :: input => some (.object [], input)
      | input => (members fuel input).map fun r => (.object r.1, r.2)
    | some 't' :: input => (skipWord ['r', 'u', 'e'] input).map fun r => (.bool true, r)
    | some 'f' :: input => (skipWord ['a', 'l', 's', 'e'] input).map fun r => (.bool false, r)
    | some 'n' :: input => (skipWord ['u', 'l', 'l'] input).map fun r => (.null, r)
    | input => number input

/-- The items of an array up to its closing bracket. -/
def items : Nat → List Symbol → Option (List Document × List Symbol)
  | 0, _ => none
  | fuel + 1, input =>
    match value fuel input with
    | none => none
    | some (x, input) =>
      match skipSpace input with
      | some ']' :: input => some ([x], input)
      | some ',' :: input => (items fuel input).map fun r => (x :: r.1, r.2)
      | _ => none

/-- The members of an object up to its closing brace. -/
def members : Nat → List Symbol → Option (List (Option String × Document) × List Symbol)
  | 0, _ => none
  | fuel + 1, input =>
    match skipSpace input with
    | some '"' :: input =>
      match stringAfterQuote input with
      | none => none
      | some (key, input) =>
        match skipSpace input with
        | some ':' :: input =>
          match value fuel input with
          | none => none
          | some (x, input) =>
            match skipSpace input with
            | some '\x7d' :: input => some ([(key, x)], input)
            | some ',' :: input => (members fuel input).map fun r => ((key, x) :: r.1, r.2)
            | _ => none
        | _ => none
    | _ => none

end

/-- More steps than reading an input can take. -/
def fuelFor (input : List Symbol) : Nat :=
  2 * input.length + 2

end Bookmarks.Json.Reader

namespace Bookmarks

open Json.Reader

/-- The document that a whole input is, if it is one. -/
def Document.ofSymbols? (input : List Text.Symbol) : Option Document :=
  match Json.Reader.value (fuelFor input) input with
  | some (d, rest) => if (skipSpace rest).isEmpty then some d else none
  | none => none

/-- The document of a text. -/
def Document.ofText? (text : String) : Option Document :=
  Document.ofSymbols? (Text.symbols text)

/-- The value of a text, if it is well formed and every part of it has a value. -/
def Json.ofText? (text : String) : Option Json :=
  (Document.ofText? text).bind Document.value?

end Bookmarks
