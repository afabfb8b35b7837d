import Bookmarks.Bytes.Basic

/-! # SHA-256

The hash function of FIPS 180-4.  A message is padded to whole blocks of
sixty-four bytes, and every block is mixed into a state of eight words by
sixty-four rounds.  The message schedule is kept as a window of sixteen words
that moves on by one word in every round, so that a block costs no memory.
-/
namespace Bookmarks.Crypto.Sha256

/-- The eight words between two blocks. -/
structure State where
  a : UInt32
  b : UInt32
  c : UInt32
  d : UInt32
  e : UInt32
  f : UInt32
  g : UInt32
  h : UInt32
  deriving DecidableEq, Repr, Inhabited

/-- The state before the first block. -/
def State.initial : State :=
  ⟨0x6a09e667, 0xbb67ae85, 0x3c6ef372, 0xa54ff53a, 0x510e527f, 0x9b05688c, 0x1f83d9ab, 0x5be0cd19⟩

/-- The constants of the sixty-four rounds. -/
def roundConstants : List UInt32 :=
  [0x428a2f98, 0x71374491, 0xb5c0fbcf, 0xe9b5dba5, 0x3956c25b, 0x59f111f1, 0x923f82a4, 0xab1c5ed5,
   0xd807aa98, 0x12835b01, 0x243185be, 0x550c7dc3, 0x72be5d74, 0x80deb1fe, 0x9bdc06a7, 0xc19bf174,
   0xe49b69c1, 0xefbe4786, 0x0fc19dc6, 0x240ca1cc, 0x2de92c6f, 0x4a7484aa, 0x5cb0a9dc, 0x76f988da,
   0x983e5152, 0xa831c66d, 0xb00327c8, 0xbf597fc7, 0xc6e00bf3, 0xd5a79147, 0x06ca6351, 0x14292967,
   0x27b70a85, 0x2e1b2138, 0x4d2c6dfc, 0x53380d13, 0x650a7354, 0x766a0abb, 0x81c2c92e, 0x92722c85,
   0xa2bfe8a1, 0xa81a664b, 0xc24b8b70, 0xc76c51a3, 0xd192e819, 0xd6990624, 0xf40e3585, 0x106aa070,
   0x19a4c116, 0x1e376c08, 0x2748774c, 0x34b0bcb5, 0x391c0cb3, 0x4ed8aa4a, 0x5b9cca4f, 0x682e6ff3,
   0x748f82ee, 0x78a5636f, 0x84c87814, 0x8cc70208, 0x90befffa, 0xa4506ceb, 0xbef9a3f7, 0xc67178f2]

/-- A word rotated right by `n` bits, `0 < n < 32`. -/
@[inline] def rotateRight (x n : UInt32) : UInt32 :=
  (x >>> n) ||| (x <<< (32 - n))

/-- The word that enters the schedule after a window with these first, second,
tenth and fifteenth words. -/
@[inline] def nextWord (w0 w1 w9 w14 : UInt32) : UInt32 :=
  let s0 := rotateRight w1 7 ^^^ rotateRight w1 18 ^^^ (w1 >>> 3)
  let s1 := rotateRight w14 17 ^^^ rotateRight w14 19 ^^^ (w14 >>> 10)
  w0 + s0 + w9 + s1

/-- One round for each constant, over the state `a … h` and the window of the
next sixteen words. -/
def rounds (constants : List UInt32) (a b c d e f g h : UInt32)
    (w0 w1 w2 w3 w4 w5 w6 w7 w8 w9 w10 w11 w12 w13 w14 w15 : UInt32) : State :=
  match constants with
  | [] => ⟨a, b, c, d, e, f, g, h⟩
  | k :: constants =>
    let s1 := rotateRight e 6 ^^^ rotateRight e 11 ^^^ rotateRight e 25
    let choice := (e &&& f) ^^^ ((e ^^^ 0xFFFFFFFF) &&& g)
    let t1 := h + s1 + choice + k + w0
    let s0 := rotateRight a 2 ^^^ rotateRight a 13 ^^^ rotateRight a 22
    let majority := (a &&& b) ^^^ (a &&& c) ^^^ (b &&& c)
    rounds constants (t1 + s0 + majority) a b c (d + t1) e f g
      w1 w2 w3 w4 w5 w6 w7 w8 w9 w10 w11 w12 w13 w14 w15 (nextWord w0 w1 w9 w14)

/-- The state with a block of sixteen words mixed in. -/
def State.mix (s : State) (w0 w1 w2 w3 w4 w5 w6 w7 w8 w9 w10 w11 w12 w13 w14 w15 : UInt32) : State :=
  let t := rounds roundConstants s.a s.b s.c s.d s.e s.f s.g s.h
    w0 w1 w2 w3 w4 w5 w6 w7 w8 w9 w10 w11 w12 w13 w14 w15
  ⟨s.a + t.a, s.b + t.b, s.c + t.c, s.d + t.d, s.e + t.e, s.f + t.f, s.g + t.g, s.h + t.h⟩

/-- The words of which these are the big-endian bytes; missing bytes count as
zero. -/
def wordAt (bytes : Bytes) (i : Nat) : UInt32 :=
  UInt32.ofNat (Bytes.toNat (Bytes.padTo 4 ((bytes.drop (4 * i)).take 4)))

/-- The state with a block of sixty-four bytes mixed in. -/
def State.mixBytes (s : State) (block : Bytes) : State :=
  s.mix (wordAt block 0) (wordAt block 1) (wordAt block 2) (wordAt block 3)
    (wordAt block 4) (wordAt block 5) (wordAt block 6) (wordAt block 7)
    (wordAt block 8) (wordAt block 9) (wordAt block 10) (wordAt block 11)
    (wordAt block 12) (wordAt block 13) (wordAt block 14) (wordAt block 15)

/-- The four bytes of a word, most significant first. -/
def wordBytes (w : UInt32) : Bytes :=
  [(w >>> 24).toUInt8, (w >>> 16).toUInt8, (w >>> 8).toUInt8, w.toUInt8]

/-- The thirty-two bytes of a state. -/
def State.bytes (s : State) : Octets 32 :=
  ⟨wordBytes s.a ++ wordBytes s.b ++ wordBytes s.c ++ wordBytes s.d ++
    wordBytes s.e ++ wordBytes s.f ++ wordBytes s.g ++ wordBytes s.h, by simp [wordBytes]⟩

/-- What follows the last bytes of a message of `size` bytes: a one bit, zeros,
and the length in bits. -/
def padding (size : Nat) : Bytes :=
  0x80 :: List.replicate ((119 - size % 64) % 64) 0 ++ Bytes.ofNat 8 (8 * size)

/-- The state after the rest of a message whose first `before` bytes, whole
blocks, led to the state `s`. -/
def State.absorb (s : State) (before : Nat) (rest : Bytes) : State :=
  (Bytes.chunks 64 (rest ++ padding (before + rest.length))).foldl State.mixBytes s

/-- The hash of a message. -/
def hash (message : Bytes) : Octets 32 :=
  (State.initial.absorb 0 message).bytes

end Bookmarks.Crypto.Sha256
