import Bookmarks.Bytes.Hex
import Bookmarks.Crypto.Sha256

/-! # What comes from outside

An operation may need ids that nobody has used, the time, and the salt and nonce
of a seal.  It takes them from a supply that is handed to it, so that it is a
function of its arguments.

A supply for one operation can be had from random bytes: salt and nonce are cut off
them, and the ids are hashes of the rest and a count.
-/
namespace Bookmarks

/-- The ids, the time and the randomness that one operation may draw. -/
structure Supply where
  /-- The ids, in the order in which they are drawn. -/
  id : Nat → String
  /-- The time, in milliseconds. -/
  now : Int
  salt : Octets 16
  nonce : Octets 12

namespace Supply

/-- The bytes with the version and the variant of a random UUID. -/
def markUuid (bytes : Bytes) : Bytes :=
  bytes.mapIdx fun i b =>
    if i = 6 then (b &&& 0x0f) ||| 0x40
    else if i = 8 then (b &&& 0x3f) ||| 0x80
    else b

/-- The groups of bytes between the hyphens of a UUID. -/
def uuidGroups (bytes : Bytes) : List Bytes :=
  [bytes.take 4, (bytes.drop 4).take 2, (bytes.drop 6).take 2, (bytes.drop 8).take 2, bytes.drop 10]

/-- Sixteen bytes in the written form of a random UUID. -/
def uuidText (bytes : Bytes) : String :=
  "-".intercalate ((uuidGroups (markUuid bytes)).map Bytes.Hex.encode)

/-- The random bytes that a supply is made from. -/
def entropySize : Nat := 60

theorem length_padTo_take (n : Nat) (bytes : Bytes) : (Bytes.padTo n (bytes.take n)).length = n := by
  simp only [Bytes.padTo, List.length_append, List.length_replicate, List.length_take]
  omega

/-- The first `n` bytes, or zeros in the place of those that are not there. -/
def cut (n : Nat) (bytes : Bytes) : Octets n :=
  ⟨Bytes.padTo n (bytes.take n), length_padTo_take n bytes⟩

/-- The supply for a time and random bytes. -/
def ofEntropy (now : Int) (entropy : Bytes) : Supply where
  id k := uuidText ((Crypto.Sha256.hash (entropy.drop 28 ++ Bytes.ofNat 8 k)).toBytes.take 16)
  now
  salt := cut 16 entropy
  nonce := cut 12 (entropy.drop 16)

end Supply

end Bookmarks
