import Bookmarks.Crypto.Sha256

/-! # Keys from passwords

`HMAC` turns SHA-256 into a function keyed by a password, and `PBKDF2` of
RFC 8018 applies it over and over, so that trying a password costs as many
steps as making the key did.

A key enters `HMAC` as one block: a longer one is hashed first, a shorter one is
**filled up with zeros**.  Two keys with the same block are the same key.
-/
namespace Bookmarks.Crypto

open Sha256

namespace Hmac

/-- The block of sixty-four bytes that stands for a key. -/
def keyBlock (key : Bytes) : Bytes :=
  Bytes.padTo 64 (if key.length ≤ 64 then key else (Sha256.hash key).toBytes)

/-- A key taken in: the states after its inner and its outer block. -/
structure Prepared where
  inner : State
  outer : State
  deriving DecidableEq, Repr, Inhabited

/-- The states that a key block leads to. -/
def ofBlock (block : Bytes) : Prepared where
  inner := State.initial.mixBytes (block.map (· ^^^ 0x36))
  outer := State.initial.mixBytes (block.map (· ^^^ 0x5c))

/-- The states that a key leads to. -/
def prepare (key : Bytes) : Prepared :=
  ofBlock (keyBlock key)

/-- A state mixed with a block that holds one hash and its padding. -/
@[inline] def mixHash (s message : State) : State :=
  s.mix message.a message.b message.c message.d message.e message.f message.g message.h
    0x80000000 0 0 0 0 0 0 768

/-- The code of a message that is itself a hash. -/
@[inline] def ofHash (key : Prepared) (message : State) : State :=
  mixHash key.outer (mixHash key.inner message)

/-- The code of a message. -/
def code (key : Prepared) (message : Bytes) : State :=
  mixHash key.outer (key.inner.absorb 64 message)

end Hmac

namespace Pbkdf2

/-- Eight words combined with eight others by exclusive or. -/
@[inline] def combine (s t : State) : State :=
  ⟨s.a ^^^ t.a, s.b ^^^ t.b, s.c ^^^ t.c, s.d ^^^ t.d, s.e ^^^ t.e, s.f ^^^ t.f, s.g ^^^ t.g, s.h ^^^ t.h⟩

/-- `n` further rounds: each codes the last result and adds it to the sum. -/
def iterate (key : Hmac.Prepared) : Nat → State → State → State
  | 0, _, sum => sum
  | n + 1, last, sum =>
    let next := Hmac.ofHash key last
    iterate key n next (combine sum next)

/-- The key that a prepared password and a salt give after `rounds` rounds, the
first of which always happens. -/
def derivePrepared (rounds : Nat) (key : Hmac.Prepared) (salt : Bytes) : Octets 32 :=
  let first := Hmac.code key (salt ++ [0, 0, 0, 1])
  (iterate key (rounds - 1) first first).bytes

/-- The key of thirty-two bytes for a password and a salt. -/
def derive (rounds : Nat) (password salt : Bytes) : Octets 32 :=
  derivePrepared rounds (Hmac.prepare password) salt

end Pbkdf2

end Bookmarks.Crypto
