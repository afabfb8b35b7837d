import Bookmarks.Json.Reader
import Bookmarks.Json.Record
import Bookmarks.Json.Writer

/-! # Codecs

A codec writes the values of a type as JSON and reads them back.  There are three
written forms: the compact text, the pretty text, and the value in memory, whose
members stand in the order of their keys.
-/
namespace Bookmarks

/-- How the values of a type are written and read. -/
structure Codec (α : Type) where
  encode : α → Json
  read : Document → Except Fault α

/-- Why a text cannot be read. -/
inductive TextFault where
  /-- The text is not a JSON value. -/
  | malformed
  /-- The text is a JSON value, but not one of the type. -/
  | unfit (fault : Fault)
  deriving DecidableEq, Repr

namespace Codec

variable {α : Type}

/-- The text without white space. -/
def compact (c : Codec α) (a : α) : String := (c.encode a).compact

/-- The text over several lines. -/
def pretty (c : Codec α) (a : α) : String := (c.encode a).pretty

/-- The value in memory. -/
def toValue (c : Codec α) (a : α) : Json := (c.encode a).sorted

/-- Reads a value in memory. -/
def ofValue (c : Codec α) (v : Json) : Except Fault α := c.read v.toDocument

/-- Reads the symbols of a text.  Only what the type asks for is looked at; where
that fails, a part of the text that stands for no value makes it malformed. -/
def ofSymbols (c : Codec α) (input : List Text.Symbol) : Except TextFault α :=
  match Document.ofSymbols? input with
  | none => .error .malformed
  | some d =>
    match c.read d with
    | .ok a => .ok a
    | .error fault => .error (if d.value?.isSome then .unfit fault else .malformed)

/-- Reads a text. -/
def ofText (c : Codec α) (text : String) : Except TextFault α :=
  c.ofSymbols (Text.symbols text)

/-- Reads the bytes of a text. -/
def ofBytes (c : Codec α) (bytes : List UInt8) : Except TextFault α :=
  c.ofSymbols (Text.symbolsOfBytes bytes)

/-- The codec of a list. -/
def list (c : Codec α) : Codec (List α) where
  encode as := .array (as.map c.encode)
  read := Document.readList c.read

/-- Any JSON value. -/
def json : Codec Json where
  encode := id
  read d :=
    match d.value? with
    | some v => .ok v
    | none => .error .noValue

end Codec

end Bookmarks
