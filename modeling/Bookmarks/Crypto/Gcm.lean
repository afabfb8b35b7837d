import Bookmarks.Crypto.Aes

/-! # AES-256-GCM

Authenticated encryption of NIST SP 800-38D with a nonce of twelve bytes and no
associated data.  The plaintext is combined with a key stream, and a tag of
sixteen bytes is appended that depends on every byte of the result.

The tag is the value of a polynomial over the field of `2^128` elements at a
secret point.  A field element is a block: **its first bit is the constant
coefficient**, so multiplying by the variable shifts to the right.
-/
namespace Bookmarks.Crypto.Gcm

/-- An element of the field, most significant bit first. -/
abbrev Element := BitVec 128

/-- The element whose bytes these are. -/
def Element.ofBytes (block : Bytes) : Element :=
  BitVec.ofNat 128 (Bytes.toNat (Bytes.padTo 16 block))

/-- The sixteen bytes of an element. -/
def Element.toBytes (x : Element) : Bytes :=
  Bytes.ofNat 16 x.toNat

/-- What the variable to the power 128 equals: one, the variable, and its square
and seventh power, in the order of bits of a block. -/
def reduction : Element :=
  0xE1000000000000000000000000000000#128

/-- An element times the variable. -/
def Element.shift (x : Element) : Element :=
  if x.getLsbD 0 then (x >>> 1) ^^^ reduction else x >>> 1

/-- The sum of `y` times each power of the variable whose coefficient in `x`,
from bit `i` counted down, is one. -/
def Element.mulFrom (x : Element) : Nat → Element → Element → Element
  | 0, _, sum => sum
  | i + 1, y, sum => mulFrom x i y.shift (if x.getLsbD i then sum ^^^ y else sum)

/-- The product of two elements. -/
def Element.mul (x y : Element) : Element :=
  x.mulFrom 128 y 0

/-- The value at `point` of the polynomial with these coefficients, the last of
which belongs to the first power. -/
def evaluate (point : Element) (coefficients : List Element) : Element :=
  coefficients.foldl (fun sum c => (sum ^^^ c).mul point) 0

/-- The coefficients for a ciphertext: its blocks, and a block with its length in
bits. -/
def coefficients (ciphertext : Bytes) : List Element :=
  (Bytes.chunks 16 ciphertext).map Element.ofBytes ++ [BitVec.ofNat 128 (8 * ciphertext.length)]

/-- The counter block with the number `n`. -/
def counterBlock (nonce : Octets 12) (n : Nat) : Bytes :=
  nonce.toBytes ++ Bytes.ofNat 4 n

/-- The first `size` bytes of the key stream. -/
def keyStream (key : Octets 32) (nonce : Octets 12) (size : Nat) : Bytes :=
  let keys := Aes.roundKeys key
  ((List.range ((size + 15) / 16)).flatMap fun i => Aes.encryptWith keys (counterBlock nonce (i + 2)))

/-- The point at which tags under a key are evaluated: the cipher block of the
zero block. -/
def point (key : Octets 32) : Element :=
  Element.ofBytes (Aes.encrypt key (List.replicate 16 0))

/-- The tag of a ciphertext. -/
def tag (key : Octets 32) (nonce : Octets 12) (ciphertext : Bytes) : Bytes :=
  Bytes.xor (evaluate (point key) (coefficients ciphertext)).toBytes
    (Aes.encrypt key (counterBlock nonce 1))

/-- The number of bytes of a tag. -/
def tagLength : Nat := 16

/-- The sealed text for a plaintext: the ciphertext followed by its tag. -/
def encrypt (key : Octets 32) (nonce : Octets 12) (plaintext : Bytes) : Bytes :=
  let ciphertext := Bytes.xor plaintext (keyStream key nonce plaintext.length)
  ciphertext ++ tag key nonce ciphertext

/-- The plaintext of a sealed text, if its tag is right. -/
def decrypt? (key : Octets 32) (nonce : Octets 12) (sealed : Bytes) : Option Bytes :=
  let size := sealed.length - tagLength
  let ciphertext := sealed.take size
  if sealed.drop size = tag key nonce ciphertext then
    some (Bytes.xor ciphertext (keyStream key nonce size))
  else none

end Bookmarks.Crypto.Gcm
