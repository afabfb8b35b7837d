import Bookmarks.Json.Basic

/-! # Writing JSON

Two layouts of one value: `compact`, without any white space, and `pretty`, with
a line for every item and two spaces for every level.  In both a string escapes
the quote, the backslash and the control characters and nothing else.
-/
namespace Bookmarks.Json

/-- The two hexadecimal digits of a control character. -/
def controlDigits (n : Nat) : List Char :=
  [Nat.digitChar (n / 16), Nat.digitChar (n % 16)]

/-- How one character is written inside a string. -/
def escapeChar (c : Char) : List Char :=
  if c = '"' then ['\\', '"']
  else if c = '\\' then ['\\', '\\']
  else if c = '\x08' then ['\\', 'b']
  else if c = '\t' then ['\\', 't']
  else if c = '\n' then ['\\', 'n']
  else if c = '\x0c' then ['\\', 'f']
  else if c = '\r' then ['\\', 'r']
  else if c.toNat < 0x20 then ['\\', 'u', '0', '0'] ++ controlDigits c.toNat
  else [c]

/-- A string with its quotes. -/
def stringChars (s : String) : List Char :=
  '"' :: s.toList.flatMap escapeChar ++ ['"']

/-- The digits of a whole number, with its sign. -/
def integerChars : Int → List Char
  | .ofNat n => Nat.toDigits 10 n
  | .negSucc n => '-' :: Nat.toDigits 10 (n + 1)

/-- A number. -/
def numberChars : Number → List Char
  | .integer n => integerChars n
  | .real x => x.text.toList

/-- A truth value. -/
def boolChars (b : Bool) : List Char :=
  if b then ['t', 'r', 'u', 'e'] else ['f', 'a', 'l', 's', 'e']

/-- The value that stands for none. -/
def nullChars : List Char := ['n', 'u', 'l', 'l']

mutual

/-- The value without white space. -/
def compactChars : Json → List Char
  | .null => nullChars
  | .bool b => boolChars b
  | .number n => numberChars n
  | .string s => stringChars s
  | .array items => '[' :: compactItems items ++ [']']
  | .object members => '\x7b' :: compactMembers members ++ ['\x7d']

/-- The items of an array with commas between them. -/
def compactItems : List Json → List Char
  | [] => []
  | x :: items => compactChars x ++ if items.isEmpty then [] else ',' :: compactItems items

/-- The members of an object with commas between them. -/
def compactMembers : List (String × Json) → List Char
  | [] => []
  | (k, v) :: members =>
    stringChars k ++ ':' :: compactChars v ++ if members.isEmpty then [] else ',' :: compactMembers members

end

/-- A new line at a level. -/
def newline (level : Nat) : List Char :=
  '\n' :: List.replicate (2 * level) ' '

mutual

/-- The value over several lines, the first of which stands at `level`. -/
def prettyChars (level : Nat) : Json → List Char
  | .null => nullChars
  | .bool b => boolChars b
  | .number n => numberChars n
  | .string s => stringChars s
  | .array items =>
    if items.isEmpty then ['[', ']']
    else '[' :: prettyItems (level + 1) items ++ newline level ++ [']']
  | .object members =>
    if members.isEmpty then ['\x7b', '\x7d']
    else '\x7b' :: prettyMembers (level + 1) members ++ newline level ++ ['\x7d']

/-- The items of an array, each on a line of its own. -/
def prettyItems (level : Nat) : List Json → List Char
  | [] => []
  | x :: items =>
    newline level ++ prettyChars level x ++ if items.isEmpty then [] else ',' :: prettyItems level items

/-- The members of an object, each on a line of its own. -/
def prettyMembers (level : Nat) : List (String × Json) → List Char
  | [] => []
  | (k, v) :: members =>
    newline level ++ stringChars k ++ ':' :: ' ' :: prettyChars level v ++
      if members.isEmpty then [] else ',' :: prettyMembers level members

end

/-- The text of a value without white space. -/
def compact (j : Json) : String := String.ofList (compactChars j)

/-- The text of a value over several lines. -/
def pretty (j : Json) : String := String.ofList (prettyChars 0 j)

end Bookmarks.Json
