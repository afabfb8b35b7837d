/-! # Binary64 magnitudes

A number with a fraction or an exponent is kept as the double of IEEE 754 that
is nearest to it.  A magnitude is `coefficient · 2^exponent` with a coefficient
below `2^53`; it is normal, with a coefficient of at least `2^52`, or it has the
least exponent, `-1074`.  All rounding goes through one function, `ofRatio?`,
which takes an exact quotient of natural numbers to the nearest magnitude, a
half to the even one.
-/
-- A power is the one of the core library, whatever else an importing module knows.
attribute [default_instance (20000), instance (2000)] instPowNat

namespace Bookmarks.Decimal

/-- A finite magnitude `coefficient · 2^exponent`. -/
structure Magnitude where
  coefficient : Nat
  exponent : Int
  deriving DecidableEq, Repr, Inhabited

/-- The quotient rounded to a whole number, a half to the even one. -/
def roundHalfEven (num den : Nat) : Nat :=
  let q := num / den
  let twice := 2 * (num % den)
  if twice < den then q
  else if den < twice then q + 1
  else q + q % 2

namespace Magnitude

/-- The least exponent. -/
def minExponent : Int := -1074

/-- The greatest exponent. -/
def maxExponent : Int := 971

/-- Nothing at all. -/
def zero : Magnitude := ⟨0, minExponent⟩

/-- Whether the magnitude is zero. -/
def isZero (m : Magnitude) : Bool := m.coefficient == 0

/-- A number times a power of two, as a quotient. -/
def scaled (num den : Nat) (power : Int) : Nat × Nat :=
  match power with
  | .ofNat n => (num * 2 ^ n, den)
  | .negSucc n => (num, den * 2 ^ (n + 1))

/-- The exponent of the magnitudes around `num / den`: with it the coefficient
has fifty-three bits, unless the least exponent is greater. -/
def exponentFor (num den : Nat) : Int :=
  let guess : Int := (num.log2 : Int) - den.log2 - 52
  let (n, d) := scaled num den (-guess)
  max minExponent (if n < d * 2 ^ 52 then guess - 1 else guess)

/-- The magnitude nearest to `num / den`, if one is that large. -/
def ofRatio? (num den : Nat) : Option Magnitude :=
  if num = 0 then some zero
  else
    let e := exponentFor num den
    let (n, d) := scaled num den (-e)
    let c := roundHalfEven n d
    let m : Magnitude := if c = 2 ^ 53 then ⟨2 ^ 52, e + 1⟩ else ⟨c, e⟩
    if m.exponent ≤ maxExponent then some m else none

/-- The magnitude as an exact quotient. -/
def toRatio (m : Magnitude) : Nat × Nat :=
  scaled m.coefficient 1 m.exponent

/-- The magnitude nearest to the product. -/
def mul? (a b : Magnitude) : Option Magnitude :=
  let (an, ad) := a.toRatio
  let (bn, bd) := b.toRatio
  ofRatio? (an * bn) (ad * bd)

/-- The magnitude nearest to the quotient by a magnitude that is not zero. -/
def div? (a b : Magnitude) : Option Magnitude :=
  let (an, ad) := a.toRatio
  let (bn, bd) := b.toRatio
  ofRatio? (an * bd) (ad * bn)

end Magnitude

/-- A finite double: a magnitude with a sign. -/
structure Binary64 where
  negative : Bool
  magnitude : Magnitude
  deriving DecidableEq, Repr, Inhabited

end Bookmarks.Decimal
