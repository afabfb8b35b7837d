import Bookmarks.Bytes.Basic

/-! # Base64 text

Three bytes are written as four characters of a sixty-four letter alphabet.  A
last group of one or two bytes is filled up with `=` to four characters.  The
reading side is strict: the padding has to be there, no character may be
outside the alphabet, and the bits of the last group that carry nothing must be
zero, so that **every byte sequence has exactly one text**.
-/
namespace Bookmarks.Bytes.Base64

/-- The letter for a six-bit value. -/
def letter (n : Nat) : Char :=
  if n < 26 then Char.ofNat (65 + n)
  else if n < 52 then Char.ofNat (71 + n)
  else if n < 62 then Char.ofNat (n - 4)
  else if n = 62 then '+'
  else '/'

/-- The six-bit value of a letter. -/
def value? (c : Char) : Option Nat :=
  if 'A' ≤ c && c ≤ 'Z' then some (c.toNat - 65)
  else if 'a' ≤ c && c ≤ 'z' then some (c.toNat - 71)
  else if '0' ≤ c && c ≤ '9' then some (c.toNat + 4)
  else if c = '+' then some 62
  else if c = '/' then some 63
  else none

/-- The characters that stand for a byte sequence. -/
def encodeChars : Bytes → List Char
  | [] => []
  | [a] => [letter (a.toNat / 4), letter (a.toNat % 4 * 16), '=', '=']
  | [a, b] =>
    [letter (a.toNat / 4), letter (a.toNat % 4 * 16 + b.toNat / 16), letter (b.toNat % 16 * 4), '=']
  | a :: b :: c :: rest =>
    letter (a.toNat / 4) :: letter (a.toNat % 4 * 16 + b.toNat / 16) ::
      letter (b.toNat % 16 * 4 + c.toNat / 64) :: letter (c.toNat % 64) :: encodeChars rest

/-- The bytes that groups of four characters stand for; only the last group may
be padded. -/
def decodeChars? : List Char → Option Bytes
  | [] => some []
  | a :: b :: c :: d :: rest => do
    let va ← value? a
    let vb ← value? b
    let first := UInt8.ofNat (va * 4 + vb / 16)
    if c = '=' && d = '=' && rest.isEmpty then
      if vb % 16 = 0 then some [first] else none
    else
      let vc ← value? c
      let second := UInt8.ofNat (vb % 16 * 16 + vc / 4)
      if d = '=' && rest.isEmpty then
        if vc % 4 = 0 then some [first, second] else none
      else
        let vd ← value? d
        let third := UInt8.ofNat (vc % 4 * 64 + vd)
        let bytes ← decodeChars? rest
        some (first :: second :: third :: bytes)
  | _ => none

/-- The text of a byte sequence. -/
def encode (bytes : Bytes) : String :=
  String.ofList (encodeChars bytes)

/-- The bytes of a text, if it is the text of any. -/
def decode? (s : String) : Option Bytes :=
  decodeChars? s.toList

end Bookmarks.Bytes.Base64
