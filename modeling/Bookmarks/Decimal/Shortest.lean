import Bookmarks.Decimal.Binary64

/-! # The shortest digits of a double

A double is written with the fewest digits that read back as the same double.
The reals that read back are an interval around it, its ends included exactly
when the coefficient is even.  For one digit, two digits, and so on up to
seventeen, the two neighbours of the value on that decimal grid are tried: the
first grid with a neighbour inside the interval wins, of two such neighbours the
nearer, and of two equally near the even one.
-/
namespace Bookmarks.Decimal

/-- A decimal number `digits · 10^exponent`. -/
structure Digits where
  digits : Nat
  exponent : Int
  deriving DecidableEq, Repr

namespace Shortest

/-- Four times the value and the ends of its interval, in units of a quarter of
the last place, with the quotient that such a unit is. -/
structure Interval where
  low : Nat
  value : Nat
  high : Nat
  closed : Bool
  unit : Nat × Nat

/-- The reals that round to a magnitude. -/
def interval (m : Magnitude) : Interval where
  low := if m.coefficient = 2 ^ 52 ∧ m.exponent ≠ Magnitude.minExponent then 4 * m.coefficient - 1
    else 4 * m.coefficient - 2
  value := 4 * m.coefficient
  high := 4 * m.coefficient + 2
  closed := m.coefficient % 2 == 0
  unit := Magnitude.scaled 1 1 (m.exponent - 2)

/-- A power of ten as a quotient. -/
def power (e : Int) : Nat × Nat :=
  match e with
  | .ofNat n => (10 ^ n, 1)
  | .negSucc n => (1, 10 ^ (n + 1))

/-- Whether `d · 10^e` lies inside the interval. -/
def Interval.contains (i : Interval) (d : Nat) (e : Int) : Bool :=
  let (pn, pd) := power e
  let x := d * pn * i.unit.2
  let y := pd * i.unit.1
  if i.closed then i.low * y ≤ x && x ≤ i.high * y else i.low * y < x && x < i.high * y

/-- The greatest multiple of `10^e` that is no more than the value, as a count. -/
def Interval.below (i : Interval) (e : Int) : Nat :=
  let (pn, pd) := power e
  (i.value * i.unit.1 * pd) / (i.unit.2 * pn)

/-- Of two neighbouring counts the one nearer to the value, or the even one. -/
def Interval.nearer (i : Interval) (d : Nat) (e : Int) : Nat :=
  let (pn, pd) := power e
  let twice := 2 * (i.value * i.unit.1 * pd)
  let middle := (2 * d + 1) * (i.unit.2 * pn)
  if twice < middle then d
  else if middle < twice then d + 1
  else d + d % 2

/-- The neighbour on the grid of `10^e` that reads back, if one does. -/
def Interval.pick? (i : Interval) (e : Int) : Option Nat :=
  let d := i.below e
  match i.contains d e, i.contains (d + 1) e with
  | true, true => some (i.nearer d e)
  | true, false => some d
  | false, true => some (d + 1)
  | false, false => none

/-- Tries the grids from `10^e` down, `n` of them. -/
def Interval.search (i : Interval) : Nat → Int → Digits
  | 0, e => ⟨i.below e, e⟩
  | n + 1, e =>
    match i.pick? e with
    | some d => ⟨d, e⟩
    | none => i.search n (e - 1)

/-- The number of decimal digits. -/
def digitCount (n : Nat) : Nat :=
  (Nat.toDigits 10 n).length

/-- The exponent of the grid on which the whole value counts less than ten. -/
def Interval.firstGrid (i : Interval) : Int :=
  let n := i.value * i.unit.1
  if i.unit.2 ≤ n then (digitCount (n / i.unit.2) : Int) - 1
  else - (digitCount (i.unit.2 / n) : Int)

/-- Takes zeros off the end of the digits. -/
def strip : Nat → Digits → Digits
  | 0, d => d
  | n + 1, d => if d.digits ≠ 0 ∧ d.digits % 10 = 0 then strip n ⟨d.digits / 10, d.exponent + 1⟩ else d

end Shortest

open Shortest in
/-- The shortest digits that read back as the magnitude. -/
def shortest (m : Magnitude) : Digits :=
  if m.isZero then ⟨0, 0⟩
  else
    let i := interval m
    strip 20 (i.search 20 (i.firstGrid + 1))

/-! ## How a double is written -/

/-- The decisions a number format makes. -/
structure Format where
  /-- The least exponent, of the first digit, that is written without an exponent. -/
  leastPositional : Int
  /-- The exponent from which on an exponent is written. -/
  firstScientific : Int

/-- Doubles are written without an exponent from `10^-5` to below `10^16`. -/
def standardFormat : Format := ⟨-5, 16⟩

/-- The text of the digits `ds` of which the first stands for units of
`10^point`. -/
def Format.layout (f : Format) (ds : List Char) (point : Int) : List Char :=
  if f.leastPositional ≤ point ∧ point < f.firstScientific then
    if point < 0 then
      ['0', '.'] ++ List.replicate (point.natAbs - 1) '0' ++ ds
    else
      let whole := point.toNat + 1
      let padded := ds ++ List.replicate (whole - ds.length) '0'
      padded.take whole ++ '.' :: (if ds.length ≤ whole then ['0'] else ds.drop whole)
  else
    let mantissa := match ds with
      | first :: second :: rest => first :: '.' :: second :: rest
      | short => short
    let magnitude := (Nat.toDigits 10 point.natAbs)
    mantissa ++ 'e' :: (if point < 0 then '-' else '+') :: magnitude

/-- The text of a double: the fewest digits that read back, positional where the
format says so, with a sign even for a negative zero. -/
def Binary64.text (x : Binary64) : String :=
  let d := shortest x.magnitude
  let ds := Nat.toDigits 10 d.digits
  let body := standardFormat.layout ds (d.exponent + ds.length - 1)
  String.ofList (if x.negative then '-' :: body else body)

end Bookmarks.Decimal
