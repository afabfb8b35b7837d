import Bookmarks.Bytes.Hex
import Bookmarks.Text.Fields
import Bookmarks.Text.Lossy

/-! # File URIs

A file URI is a path with options, in one text: the scheme, perhaps an authority,
the path, perhaps a question mark and the options, perhaps a fragment.  Each part
may hold bytes as two digits after a percent sign.

**A text is taken apart before the bytes are decoded**, so that an encoded separator
does not separate.
-/
namespace Bookmarks

/-- A path with options. -/
structure FileUri where
  path : Bytes
  /-- The options with their values, in order. -/
  options : List (String × Bytes)
  deriving DecidableEq, Repr

namespace FileUri

/-- What a file URI starts with. -/
def scheme : String := "file:"

/-- The host that an authority may name. -/
def localHost : String := "localhost"

/-- The bytes of a part, up to an encoded zero. -/
def decode : List Char → Bytes
  | [] => []
  | '%' :: a :: b :: cs =>
    match Bytes.Hex.value? a, Bytes.Hex.value? b with
    | some high, some low =>
      if high = 0 && low = 0 then [] else UInt8.ofNat (high * 16 + low) :: decode cs
    | _, _ => Text.utf8 "%" ++ decode (a :: b :: cs)
  | c :: cs => Text.utf8 (String.singleton c) ++ decode cs

/-- What comes before the first occurrence of a mark, and what comes after it. -/
def cut (mark : Char) (cs : List Char) : List Char × List Char :=
  (cs.takeWhile (· != mark), (cs.dropWhile (· != mark)).drop 1)

/-- An option and its value. -/
def option (part : List Char) : String × Bytes :=
  let (name, value) := cut '=' part
  (Text.lossy (decode name), decode value)

/-- The options of a query; those without a name do not count. -/
def optionsOf (query : List Char) : List (String × Bytes) :=
  ((Text.splitAt '&' query).map option).filter (·.1 != "")

/-- What follows an authority.  There may be none, and it may name no other host. -/
def afterAuthority? : List Char → Option (List Char)
  | '/' :: '/' :: cs =>
    let authority := cs.takeWhile (· != '/')
    if authority = [] || authority = localHost.toList then some (cs.dropWhile (· != '/')) else none
  | cs => some cs

/-- Whether a text is meant as a file URI. -/
def isUri (text : String) : Bool :=
  scheme.toList.isPrefixOf text.toList

/-- The path and the options of a file URI, unless its authority is another host. -/
def ofText? (text : String) : Option FileUri := do
  let cs ← afterAuthority? (text.toList.drop scheme.length)
  let (path, query) := cut '?' (cut '#' cs).1
  return ⟨decode path, optionsOf query⟩

/-- The value that an option has at its first occurrence. -/
def value? (uri : FileUri) (name : String) : Option Bytes :=
  uri.options.lookup name

/-- The value that an option has at its last occurrence. -/
def lastValue? (uri : FileUri) (name : String) : Option Bytes :=
  uri.options.reverse.lookup name

/-! ## Yes and no -/

/-- The value of digits in a base. -/
def numberOf (base : Nat) (digits : List Char) : Nat :=
  digits.foldl (fun n c => n * base + (Bytes.Hex.value? c).getD 0) 0

/-- The number that a text starts with, in hexadecimal digits if they are announced. -/
def leadingNumber : List Char → Nat
  | '0' :: x :: cs =>
    let digits := cs.takeWhile fun c => (Bytes.Hex.value? c).isSome
    if (x = 'x' || x = 'X') && !digits.isEmpty then numberOf 16 digits
    else numberOf 10 (('0' :: x :: cs).takeWhile Char.isDigit)
  | cs => numberOf 10 (cs.takeWhile Char.isDigit)

/-- Whether a value means yes: one of the words for it, or a number of at most 31 bits
whose low byte is not zero. -/
def isYesText (value : String) : Bool :=
  if (value.toList.headD ' ').isDigit then
    let n := leadingNumber value.toList
    n < 2 ^ 31 && n % 256 != 0
  else ["on", "yes", "true"].contains value.toLower

/-- Whether an option means yes; without the option the answer is no. -/
def isYes (uri : FileUri) (name : String) : Bool :=
  ((uri.value? name).map fun value => isYesText (Text.lossy value)).getD false

end FileUri

end Bookmarks
