/-! # Bytes

Keys, salts, nonces and sealed texts are lists of bytes.  Where the length is
part of the meaning the list carries it: `Octets n` is a list of exactly `n`
bytes, so that a key of the wrong length cannot be built.
-/
-- A power is the one of the core library, whatever else an importing module knows.
attribute [default_instance (20000), instance (2000)] instPowNat

namespace Bookmarks

/-- A sequence of bytes. -/
abbrev Bytes := List UInt8

/-- A sequence of exactly `n` bytes. -/
abbrev Octets (n : Nat) := { bytes : Bytes // bytes.length = n }

namespace Octets

/-- The bytes as a sequence of length `n`, if there are that many. -/
def ofBytes? (n : Nat) (bytes : Bytes) : Option (Octets n) :=
  if h : bytes.length = n then some ⟨bytes, h⟩ else none

/-- The bytes of the sequence. -/
def toBytes {n : Nat} (o : Octets n) : Bytes := o.val

@[simp] theorem length_toBytes {n : Nat} (o : Octets n) : o.toBytes.length = n := o.property

@[simp] theorem ofBytes?_toBytes {n : Nat} (o : Octets n) : ofBytes? n o.toBytes = some o := by
  simp [ofBytes?, toBytes, o.property]

theorem ofBytes?_eq_some_iff {n : Nat} {bytes : Bytes} {o : Octets n} :
    ofBytes? n bytes = some o ↔ bytes = o.toBytes := by
  unfold ofBytes? toBytes
  split
  · constructor
    · intro h; rw [← Option.some.inj h]
    · intro h; exact congrArg some (Subtype.ext h)
  · next hne =>
    constructor
    · intro h; exact absurd h (by simp)
    · intro h; exact absurd (by rw [h]; exact o.property) hne

end Octets

namespace Bytes

/-- The bitwise exclusive or of two sequences, as long as the shorter of them. -/
def xor (a b : Bytes) : Bytes :=
  List.zipWith (· ^^^ ·) a b

@[simp] theorem length_xor (a b : Bytes) : (xor a b).length = min a.length b.length := by
  simp [xor]

/-- Combining twice with the same mask gives the sequence back, if the mask is
long enough. -/
theorem xor_xor_cancel (a mask : Bytes) (h : a.length ≤ mask.length) :
    xor (xor a mask) mask = a := by
  induction a generalizing mask with
  | nil => simp [xor]
  | cons x a ih =>
    cases mask with
    | nil => simp at h
    | cons m mask =>
      have ih' := ih mask (by simpa using h)
      simp only [xor, List.zipWith_cons_cons] at ih' ⊢
      rw [ih', UInt8.xor_assoc, UInt8.xor_self, UInt8.xor_zero]

/-- What is left of bytes that have to be forgotten: as many zeros. -/
def erase (bytes : Bytes) : Bytes :=
  bytes.map fun _ => 0

/-- The bytes cut into pieces of `size`, the last of which may be shorter. -/
def chunks (size : Nat) (bytes : Bytes) : List Bytes :=
  go bytes.length bytes
where
  /-- Cuts off one piece at a time, at most `fuel` of them. -/
  go : Nat → Bytes → List Bytes
    | 0, _ => []
    | _ + 1, [] => []
    | fuel + 1, bytes => bytes.take size :: go fuel (bytes.drop size)

/-- The bytes followed by zeros up to length `n`. -/
def padTo (n : Nat) (bytes : Bytes) : Bytes :=
  bytes ++ List.replicate (n - bytes.length) 0

/-- The number whose big-endian bytes these are. -/
def toNat (bytes : Bytes) : Nat :=
  bytes.foldl (fun n b => n * 256 + b.toNat) 0

/-- The `size` lowest bytes of a number, most significant first. -/
def ofNat (size n : Nat) : Bytes :=
  (List.range size).map fun i => UInt8.ofNat (n / 256 ^ (size - 1 - i))

@[simp] theorem length_ofNat (size n : Nat) : (ofNat size n).length = size := by
  simp [ofNat]

end Bytes

end Bookmarks
