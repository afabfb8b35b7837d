/-! # Symbols of a byte sequence

Stored and decrypted bytes are meant to be UTF-8, but nothing forces them to
be.  Reading them as a list of symbols keeps both cases: a symbol is a
character, or `none` for a byte that belongs to none.  A reader can then refuse
a stray byte where it meets one, and only there.
-/
namespace Bookmarks.Text

/-- A character, or a byte that belongs to none. -/
abbrev Symbol := Option Char

/-- Whether a byte may follow the first byte of a character. -/
def isTail (b : UInt8) : Bool :=
  b &&& 0xC0 == 0x80

/-- The value of six bits carried by a following byte. -/
def tailBits (b : UInt8) : Nat :=
  b.toNat % 64

/-- The character at the front of the bytes, with the number of bytes it takes. -/
def leadingChar : List UInt8 → Option (Char × Nat)
  | [] => none
  | a :: rest =>
    let n := a.toNat
    if n < 0x80 then some (Char.ofNat n, 1)
    else match rest with
    | b :: rest =>
      if !isTail b then none
      else if 0xC2 ≤ n && n < 0xE0 then some (Char.ofNat ((n - 0xC0) * 64 + tailBits b), 2)
      else match rest with
      | c :: rest =>
        if !isTail c then none
        else if 0xE0 ≤ n && n < 0xF0 then
          let v := (n - 0xE0) * 4096 + tailBits b * 64 + tailBits c
          if v < 0x800 || (0xD800 ≤ v && v < 0xE000) then none else some (Char.ofNat v, 3)
        else match rest with
        | d :: _ =>
          let v := (n - 0xF0) * 262144 + tailBits b * 4096 + tailBits c * 64 + tailBits d
          if isTail d && 0xF0 ≤ n && 0x10000 ≤ v && v < 0x110000 then some (Char.ofNat v, 4)
          else none
        | [] => none
      | [] => none
    | [] => none

/-- The symbols of a byte sequence, `skip` bytes of which belong to the last
character read. -/
def symbolsFrom : Nat → List UInt8 → List Symbol
  | _, [] => []
  | skip + 1, _ :: rest => symbolsFrom skip rest
  | 0, b :: rest =>
    match leadingChar (b :: rest) with
    | some (c, size) => some c :: symbolsFrom (size - 1) rest
    | none => none :: symbolsFrom 0 rest

/-- The symbols of a text: its characters. -/
def symbols (s : String) : List Symbol :=
  s.toList.map some

/-- The symbols of a byte sequence: the characters of the text it encodes, or,
where it encodes none, every character it still holds and every stray byte. -/
def symbolsOfBytes (bytes : List UInt8) : List Symbol :=
  match String.fromUTF8? bytes.toByteArray with
  | some s => symbols s
  | none => symbolsFrom 0 bytes

/-- The bytes of a text. -/
def utf8 (s : String) : List UInt8 :=
  s.toUTF8.toList

end Bookmarks.Text
