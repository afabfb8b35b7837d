import Bookmarks.Crypto.Gcm
import Mathlib.FieldTheory.Finite.Extension
import Mathlib.RingTheory.AdjoinRoot

/-! # The field of the tags

A block stands for a polynomial with coefficients of one bit, its first bit being the
constant one, and blocks are multiplied as these polynomials are, modulo a polynomial of
degree 128.  **That polynomial is irreducible, so a product with a block other than zero
can be undone.**

A divisor of the polynomial is told by the squarings of the variable: an irreducible one
has a degree that divides `n` exactly if it divides what the variable differs by after `n`
squarings.  The squarings are computed on blocks.
-/
namespace Bookmarks.Crypto.Gcm

open Polynomial

namespace Element

/-! ## The value of a block at a point -/

section Value

variable {R S : Type} [CommRing R] [CommRing S]

/-- The value at `r` of the polynomial whose coefficients are the lowest `n` bits, the
highest of them first. -/
def valueAt (r : R) (x : Element) : Nat → R
  | 0 => 0
  | n + 1 => (if x.getLsbD n then 1 else 0) + r * valueAt r x n

theorem valueAt_succ (r : R) (x : Element) (n : Nat) :
    valueAt r x (n + 1) = (if x.getLsbD n then 1 else 0) + r * valueAt r x n := rfl

theorem map_valueAt (f : R →+* S) (r : R) (x : Element) (n : Nat) : f (valueAt r x n) = valueAt (f r) x n := by
  induction n with
  | zero => exact map_zero f
  | succ n ih =>
    rw [valueAt, valueAt, map_add, map_mul, ih]
    split
    · rw [map_one]
    · rw [map_zero]

theorem valueAt_xor [CharP R 2] (r : R) (x y : Element) (n : Nat) :
    valueAt r (x ^^^ y) n = valueAt r x n + valueAt r y n := by
  have hbit : ∀ a b : Bool, (if (a ^^ b) then (1 : R) else 0) = (if a then 1 else 0) + (if b then 1 else 0) := by
    intro a b
    cases a <;> cases b <;> simp [CharTwo.add_self_eq_zero]
  induction n with
  | zero => exact (add_zero 0).symm
  | succ n ih =>
    rw [valueAt, valueAt, valueAt, BitVec.getLsbD_xor, hbit, ih]
    ring

/-- The lowest bit is the last coefficient, and the others are those of the block moved
by one. -/
theorem valueAt_succ_eq (r : R) (x : Element) (n : Nat) :
    valueAt r x (n + 1) = valueAt r (x >>> 1) n + if x.getLsbD 0 then r ^ n else 0 := by
  induction n with
  | zero => simp [valueAt]
  | succ n ih =>
    have hbit : BitVec.getLsbD (x >>> 1) n = x.getLsbD (n + 1) := by
      rw [BitVec.getLsbD_ushiftRight, Nat.add_comm 1 n]
    rw [valueAt, ih, valueAt, hbit, mul_add, add_assoc, mul_ite, mul_zero, pow_succ']

end Value

/-! ## The polynomial of a block -/

theorem coeff_valueAt (x : Element) (n k : Nat) :
    (valueAt (X : (ZMod 2)[X]) x n).coeff k = if k < n ∧ x.getLsbD (n - 1 - k) then 1 else 0 := by
  induction n generalizing k with
  | zero => simp [valueAt]
  | succ n ih =>
    rw [valueAt, coeff_add]
    cases k with
    | zero =>
      rw [coeff_X_mul_zero, add_zero]
      by_cases hx : x.getLsbD n <;> simp [hx]
    | succ k =>
      have hbit : (if x.getLsbD n then (1 : (ZMod 2)[X]) else 0).coeff (k + 1) = 0 := by
        split
        · rw [coeff_one, if_neg (Nat.succ_ne_zero k)]
        · exact coeff_zero _
      rw [coeff_X_mul, ih, hbit, zero_add]
      simp only [Nat.add_lt_add_iff_right, Nat.add_sub_cancel, Nat.sub_sub, Nat.add_comm 1 k]

theorem degree_valueAt_lt (x : Element) (n : Nat) : (valueAt (X : (ZMod 2)[X]) x n).degree < n := by
  refine (degree_lt_iff_coeff_zero _ n).mpr ?_
  intro k hk
  rw [coeff_valueAt, if_neg (fun h => absurd h.1 (Nat.not_lt.mpr hk))]

-- a block has 128 coefficients, and nothing below should count through them
attribute [irreducible] valueAt

/-- The polynomial of a block. -/
@[irreducible] noncomputable def toPoly (x : Element) : (ZMod 2)[X] :=
  valueAt X x 128

theorem degree_toPoly_lt (x : Element) : x.toPoly.degree < ((128 : ℕ) : WithBot ℕ) := by
  rw [toPoly]
  exact degree_valueAt_lt x 128

theorem toPoly_xor (x y : Element) : toPoly (x ^^^ y) = x.toPoly + y.toPoly := by
  rw [toPoly, toPoly, toPoly, valueAt_xor]

theorem eq_zero_of_toPoly_eq_zero {x : Element} (h : x.toPoly = 0) : x = 0 := by
  refine BitVec.eq_of_getLsbD_eq ?_
  intro i hi
  have hcoeff : x.toPoly.coeff (127 - i) = 0 := by rw [h, coeff_zero]
  rw [toPoly, coeff_valueAt, show 128 - 1 - (127 - i) = i by omega] at hcoeff
  by_contra hne
  have hbit : x.getLsbD i = true := by simpa using hne
  rw [if_pos ⟨by omega, hbit⟩] at hcoeff
  exact one_ne_zero hcoeff

end Element

/-! ## Products modulo a polynomial -/

/-- The polynomial of degree `n` at whose root the power `n` has the value of `p`. -/
noncomputable def reducing (n : Nat) (p : (ZMod 2)[X]) : (ZMod 2)[X] :=
  X ^ n - p

section
variable {n : Nat} {p : (ZMod 2)[X]}

theorem reducing_monic (h : p.degree < n) : (reducing n p).Monic :=
  monic_X_pow_sub h

theorem degree_reducing (h : p.degree < n) : (reducing n p).degree = n := by
  rw [reducing, degree_sub_eq_left_of_degree_lt (by rwa [degree_X_pow]), degree_X_pow]

theorem root_reducing_pow : AdjoinRoot.root (reducing n p) ^ n = AdjoinRoot.mk (reducing n p) p := by
  rw [← AdjoinRoot.mk_X, ← map_pow, AdjoinRoot.mk_eq_mk]
  exact dvd_rfl

end

/-- The polynomial of degree 128 that products are reduced by. -/
noncomputable def modulus : (ZMod 2)[X] :=
  reducing 128 reduction.toPoly

theorem modulus_monic : modulus.Monic :=
  reducing_monic reduction.degree_toPoly_lt

theorem degree_modulus : modulus.degree = ((128 : ℕ) : WithBot ℕ) :=
  degree_reducing reduction.degree_toPoly_lt

theorem natDegree_modulus : modulus.natDegree = 128 :=
  natDegree_eq_of_degree_eq_some degree_modulus

theorem root_modulus_pow : AdjoinRoot.root modulus ^ 128 = AdjoinRoot.mk modulus reduction.toPoly :=
  root_reducing_pow

attribute [irreducible] modulus

namespace Element

/-- What a block stands for: its polynomial modulo the other one. -/
noncomputable def residue (x : Element) : AdjoinRoot modulus :=
  AdjoinRoot.mk modulus x.toPoly

theorem residue_eq_valueAt (x : Element) : x.residue = valueAt (AdjoinRoot.root modulus) x 128 := by
  rw [residue, toPoly, map_valueAt, AdjoinRoot.mk_X]

theorem residue_xor (x y : Element) : residue (x ^^^ y) = x.residue + y.residue := by
  rw [residue, toPoly_xor, map_add, residue, residue]

theorem residue_zero : residue 0 = 0 := by
  have h := residue_xor 0 0
  rw [show (0 ^^^ 0 : Element) = 0 from rfl] at h
  simpa using h

theorem residue_add_self (x : Element) : x.residue + x.residue = 0 := by
  rw [← residue_xor, BitVec.xor_self]
  exact residue_zero

/-- **Different blocks stand for different residues**, as their polynomials have a lower
degree than the other one. -/
theorem residue_injective : Function.Injective residue := by
  have hzero : ∀ x : Element, x.residue = 0 → x = 0 := by
    intro x h
    rw [residue, AdjoinRoot.mk_eq_zero] at h
    refine eq_zero_of_toPoly_eq_zero (eq_zero_of_dvd_of_degree_lt h ?_)
    rw [degree_modulus]
    exact x.degree_toPoly_lt
  intro x y h
  have hxor : x ^^^ y = 0 := by
    refine hzero _ ?_
    rw [residue_xor, h, residue_add_self]
  exact BitVec.xor_eq_zero_iff.mp hxor

/-- Shifting is multiplying by the variable. -/
theorem residue_shift (x : Element) : x.shift.residue = AdjoinRoot.root modulus * x.residue := by
  have hhigh : x.getLsbD 128 = false := BitVec.getLsbD_of_ge x 128 (Nat.le_refl 128)
  have hvalue : AdjoinRoot.root modulus * x.residue =
      residue (x >>> 1) + if x.getLsbD 0 then reduction.residue else 0 := by
    have hnext := valueAt_succ (AdjoinRoot.root modulus) x 128
    rw [hhigh, if_neg Bool.false_ne_true, zero_add] at hnext
    rw [residue_eq_valueAt, residue_eq_valueAt (x >>> 1), residue, ← root_modulus_pow, ← valueAt_succ_eq, hnext]
  rw [hvalue, shift]
  split
  · exact residue_xor _ _
  · exact (add_zero _).symm

theorem residue_mulFrom (x : Element) (n : Nat) (y sum : Element) :
    (x.mulFrom n y sum).residue = sum.residue + valueAt (AdjoinRoot.root modulus) x n * y.residue := by
  induction n generalizing y sum with
  | zero => rw [mulFrom, valueAt, zero_mul, add_zero]
  | succ n ih =>
    rw [mulFrom, ih, residue_shift, valueAt]
    split
    · rw [residue_xor]
      ring
    · ring

/-- **A product stands for the product.** -/
theorem residue_mul (x y : Element) : (x.mul y).residue = x.residue * y.residue := by
  rw [mul, residue_mulFrom, residue_zero, zero_add, ← residue_eq_valueAt]

/-! ## Squarings of the variable -/

/-- The block of one. -/
def one : Element := BitVec.twoPow 128 127

/-- The block of the variable. -/
def unknown : Element := BitVec.twoPow 128 126

/-- The product of a block with itself. -/
def square (x : Element) : Element := x.mul x

theorem residue_one : one.residue = 1 := by
  have hpoly : one.toPoly = 1 := by
    ext k
    rw [toPoly, coeff_valueAt, one, BitVec.getLsbD_twoPow, coeff_one]
    refine if_congr ?_ rfl rfl
    simp only [Bool.and_eq_true, decide_eq_true_eq]
    omega
  rw [residue, hpoly, map_one]

theorem residue_unknown : unknown.residue = AdjoinRoot.root modulus := by
  have hshift : unknown = one.shift := by decide
  rw [hshift, residue_shift, residue_one, mul_one]

theorem residue_square_iterate (x : Element) (n : Nat) : (square^[n] x).residue = x.residue ^ 2 ^ n := by
  induction n with
  | zero => rw [Function.iterate_zero_apply, pow_zero, pow_one]
  | succ n ih => rw [Function.iterate_succ_apply', square, residue_mul, ih, ← sq, ← pow_mul, pow_succ]

theorem mk_X_pow_sub_X (n : Nat) :
    AdjoinRoot.mk modulus (X ^ 2 ^ n - X) = residue (square^[n] unknown ^^^ unknown) := by
  rw [residue_xor, residue_square_iterate, map_sub, map_pow, AdjoinRoot.mk_X, ← residue_unknown, sub_eq_add_neg,
    neg_eq_of_add_eq_zero_left (residue_add_self unknown)]

end Element

open Element

section Factor

variable {g : (ZMod 2)[X]} {n : Nat}

theorem natDegree_dvd_iff (hg : Irreducible g) : g.natDegree ∣ n ↔ g ∣ X ^ 2 ^ n - X := by
  have hcard : Nat.card (ZMod 2) = 2 := Nat.card_zmod 2
  rw [hg.natDegree_dvd_iff_dvd_X_pow_card_pow_sub_X, hcard]

/-- Where the variable comes back after `n` squarings, the degree divides `n`. -/
theorem natDegree_dvd_of_iterate_eq (hg : Irreducible g) (hdvd : g ∣ modulus) (h : square^[n] unknown = unknown) :
    g.natDegree ∣ n := by
  refine (natDegree_dvd_iff hg).mpr (hdvd.trans ?_)
  rw [← AdjoinRoot.mk_eq_zero, mk_X_pow_sub_X, h, BitVec.xor_self]
  exact residue_zero

/-- Where what it differs by after `n` squarings has an inverse, the degree does not. -/
theorem not_natDegree_dvd_of_mul_eq_one (hg : Irreducible g) (hdvd : g ∣ modulus) {b : Element}
    (h : (square^[n] unknown ^^^ unknown).mul b = one) : ¬ g.natDegree ∣ n := by
  intro hn
  have hone : modulus ∣ (X ^ 2 ^ n - X) * b.toPoly - 1 := by
    rw [← AdjoinRoot.mk_eq_mk, map_mul, mk_X_pow_sub_X, map_one, ← residue_one, ← h, residue_mul]
    rfl
  have hg1 : g ∣ 1 := (dvd_sub_right (((natDegree_dvd_iff hg).mp hn).mul_right _)).mp (hdvd.trans hone)
  exact hg.not_isUnit (isUnit_of_dvd_one hg1)

end Factor

/-- The variable after sixty-four squarings. -/
def halfway : Element := 0x6f9945a9e519a7229d4c1ad657f8a686#128

theorem iterate_unknown : square^[64] unknown = halfway := by
  decide +kernel

theorem iterate_halfway : square^[64] halfway = unknown := by
  decide +kernel

/-- What the variable then differs by has an inverse. -/
theorem halfway_mul_eq_one : (halfway ^^^ unknown).mul 0x180da934bf53158251c13dbb149f5279#128 = one := by
  decide +kernel

/-- **The polynomial is irreducible.**  The degree of an irreducible factor divides 128,
but not 64, so the factor is all of the polynomial. -/
theorem modulus_irreducible : Irreducible modulus := by
  obtain ⟨g, hg, hdvd⟩ : ∃ g, Irreducible g ∧ g ∣ modulus := by
    refine exists_irreducible_of_natDegree_ne_zero ?_
    rw [natDegree_modulus]
    decide
  have hback : square^[128] unknown = unknown := by
    rw [show 128 = 64 + 64 from rfl, Function.iterate_add_apply, iterate_unknown, iterate_halfway]
  have hfull : g.natDegree ∣ 2 ^ 7 := natDegree_dvd_of_iterate_eq hg hdvd hback
  have hhalf : ¬ g.natDegree ∣ 2 ^ 6 :=
    not_natDegree_dvd_of_mul_eq_one hg hdvd (iterate_unknown ▸ halfway_mul_eq_one)
  obtain ⟨k, hk, hdegree⟩ := (Nat.dvd_prime_pow Nat.prime_two).mp hfull
  have hk7 : k = 7 := by
    by_contra hne
    exact hhalf (hdegree ▸ pow_dvd_pow 2 (show k ≤ 6 by omega))
  have hle : modulus.natDegree ≤ g.natDegree := natDegree_modulus.trans_le (by rw [hdegree, hk7]; decide)
  exact (associated_of_dvd_of_natDegree_le hdvd modulus_monic.ne_zero hle).irreducible hg

/-- **A product with a block other than zero can be undone.** -/
theorem Element.eq_of_mul_eq {x y z : Element} (hz : z ≠ 0) (h : x.mul z = y.mul z) : x = y := by
  have hfact : Fact (Irreducible modulus) := ⟨modulus_irreducible⟩
  have hres : x.residue * z.residue = y.residue * z.residue := by rw [← residue_mul, h, residue_mul]
  have hne : z.residue ≠ 0 := fun h0 => hz (residue_injective (h0.trans residue_zero.symm))
  exact residue_injective (mul_right_cancel₀ hne hres)

end Bookmarks.Crypto.Gcm
