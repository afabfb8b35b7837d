import Bookmarks.Decimal.Binary64

/-! # The value of a decimal literal

A literal is a run of digits, perhaps a fraction, perhaps an exponent.  Its
value is found in two roundings: the leading digits that fit sixty-four bits
become a whole significand, and the double nearest to it is multiplied or divided
by the double nearest to the power of ten that is left.  Digits of the whole part
that no longer fit only raise that power; digits of the fraction that no longer
fit are dropped.
-/
namespace Bookmarks.Decimal

/-- The significand of a literal and the power of ten that it is scaled by. -/
structure Scientific where
  significand : Nat
  exponent : Int
  deriving DecidableEq, Repr

/-- The significands below this bound fit sixty-four bits. -/
def significandBound : Nat := 2 ^ 64

/-- The greatest power of ten that is a double. -/
def maxPower : Nat := 308

namespace Scientific

/-- Takes in digits of the whole part. -/
def addWhole (s : Scientific) : List Nat → Scientific
  | [] => s
  | d :: digits =>
    if s.exponent = 0 ∧ s.significand * 10 + d < significandBound then
      addWhole ⟨s.significand * 10 + d, 0⟩ digits
    else
      addWhole ⟨s.significand, s.exponent + 1⟩ digits

/-- Takes in digits of the fraction, as many as fit. -/
def addFraction (s : Scientific) : List Nat → Scientific
  | [] => s
  | d :: digits =>
    if s.significand * 10 + d < significandBound then
      addFraction ⟨s.significand * 10 + d, s.exponent - 1⟩ digits
    else s

/-- The significand and power of a literal with these digits and exponent. -/
def ofDigits (whole fraction : List Nat) (exponent : Int) : Scientific :=
  let s := (addWhole ⟨0, 0⟩ whole).addFraction fraction
  ⟨s.significand, s.exponent + exponent⟩

/-- Divides by ten to the power `n`, by no more than the greatest power at a
time; `fuel` bounds the number of such divisions. -/
def divideByPower : Nat → Magnitude → Nat → Option Magnitude
  | 0, m, _ => some m
  | fuel + 1, m, n =>
    if m.isZero then some m
    else if n ≤ maxPower then do
      m.div? (← Magnitude.ofRatio? (10 ^ n) 1)
    else do
      let smaller ← m.div? (← Magnitude.ofRatio? (10 ^ maxPower) 1)
      divideByPower fuel smaller (n - maxPower)

/-- The magnitude of a literal, if a double is that large. -/
def magnitude? (s : Scientific) : Option Magnitude := do
  let m ← Magnitude.ofRatio? s.significand 1
  match s.exponent with
  | .ofNat n =>
    if n ≤ maxPower then m.mul? (← Magnitude.ofRatio? (10 ^ n) 1)
    else if m.isZero then some m
    else none
  | .negSucc n => divideByPower 4 m (n + 1)

end Scientific

end Bookmarks.Decimal
