import Bookmarks.Text.Symbols

/-! # Bytes shown as text

A name on the disk is a byte sequence and may hold bytes that belong to no
character.  To be shown, **each longest start of a character that is not finished
becomes one replacement character**, and so does each byte that starts none.
-/
namespace Bookmarks.Text

/-- What stands for bytes that belong to no character. -/
def replacement : Char := '\uFFFD'

/-- Whether two bytes can start a character of three or four bytes. -/
def startsLong (first second : UInt8) : Bool :=
  let a := first.toNat
  let b := second.toNat
  isTail second &&
    ((a == 0xE0 && 0xA0 ≤ b) || (0xE1 ≤ a && a ≤ 0xEF && a != 0xED) || (a == 0xED && b < 0xA0) ||
      (a == 0xF0 && 0x90 ≤ b) || (0xF1 ≤ a && a ≤ 0xF3) || (a == 0xF4 && b < 0x90))

/-- The number of bytes at the front that one replacement character stands for, where
no character is at the front. -/
def strayLength : List UInt8 → Nat
  | a :: b :: c :: _ =>
    if !startsLong a b then 1 else if 0xF0 ≤ a.toNat && isTail c then 3 else 2
  | [a, b] => if startsLong a b then 2 else 1
  | _ => 1

/-- The characters of a byte sequence, of which the first bytes belong to what was
shown last. -/
def lossyFrom : Nat → List UInt8 → List Char
  | _, [] => []
  | skip + 1, _ :: rest => lossyFrom skip rest
  | 0, b :: rest =>
    match leadingChar (b :: rest) with
    | some (c, size) => c :: lossyFrom (size - 1) rest
    | none => replacement :: lossyFrom (strayLength (b :: rest) - 1) rest

/-- A byte sequence shown as a text. -/
def lossy (bytes : List UInt8) : String :=
  String.ofList (lossyFrom 0 bytes)

end Bookmarks.Text
