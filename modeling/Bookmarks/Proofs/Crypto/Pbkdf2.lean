import Bookmarks.Crypto.Pbkdf2

/-! # Passwords with one key

A password gives a key only by way of the block that it enters `HMAC` as.  Two passwords
have the same block exactly if what is filled up of them, the password itself or the hash
of a long one, is the same **up to zeros at its end**.  Then they give the same key for
every salt and after any number of rounds.
-/
namespace Bookmarks

namespace Bytes

/-- Filling up forgets the zeros at the end and nothing else. -/
theorem padTo_eq_padTo_iff {n : Nat} {a b : Bytes} (ha : a.length ≤ n) (hb : b.length ≤ n) :
    padTo n a = padTo n b ↔ ∃ k, a = b ++ List.replicate k 0 ∨ b = a ++ List.replicate k 0 := by
  constructor
  · intro h
    unfold padTo at h
    -- the longer of the two is what the shorter one and its zeros begin with
    rcases Nat.le_total b.length a.length with hle | hle
    · have htake := congrArg (List.take a.length) h
      rw [List.take_left, List.take_append, List.take_of_length_le hle, List.take_replicate] at htake
      exact ⟨_, Or.inl htake⟩
    · have htake := congrArg (List.take b.length) h
      rw [List.take_left, List.take_append, List.take_of_length_le hle, List.take_replicate] at htake
      exact ⟨_, Or.inr htake.symm⟩
  · have hfill : ∀ (bytes : Bytes) k, (bytes ++ List.replicate k 0).length ≤ n →
        padTo n (bytes ++ List.replicate k 0) = padTo n bytes := by
      intro bytes k hlen
      rw [List.length_append, List.length_replicate] at hlen
      unfold padTo
      rw [List.append_assoc, List.replicate_append_replicate, List.length_append, List.length_replicate]
      congr 2
      omega
    rintro ⟨k, rfl | rfl⟩
    · exact hfill b k ha
    · exact (hfill a k hb).symm

end Bytes

namespace Crypto

namespace Hmac

/-- What is filled up to a key block: the key, or its hash if it is longer than a block. -/
def shortened (key : Bytes) : Bytes :=
  if key.length ≤ 64 then key else (Sha256.hash key).toBytes

theorem length_shortened (key : Bytes) : (shortened key).length ≤ 64 := by
  unfold shortened
  split
  · next hle => exact hle
  · rw [Octets.length_toBytes]
    decide

theorem keyBlock_eq_iff (key other : Bytes) :
    keyBlock key = keyBlock other ↔ ∃ k, shortened key = shortened other ++ List.replicate k 0 ∨
      shortened other = shortened key ++ List.replicate k 0 :=
  Bytes.padTo_eq_padTo_iff (length_shortened key) (length_shortened other)

/-- A key is as good as itself followed by zeros, within a block. -/
theorem keyBlock_append_zeros {key : Bytes} {k : Nat} (h : key.length + k ≤ 64) :
    keyBlock (key ++ List.replicate k 0) = keyBlock key := by
  have hlen : (key ++ List.replicate k 0).length ≤ 64 := by
    rw [List.length_append, List.length_replicate]
    exact h
  rw [keyBlock_eq_iff, shortened, if_pos hlen, shortened, if_pos (Nat.le_of_add_right_le h)]
  exact ⟨k, Or.inl rfl⟩

end Hmac

/-- **Passwords with one block have one key**, for every salt. -/
theorem Pbkdf2.derive_eq_of_keyBlock_eq {password other : Bytes} (h : Hmac.keyBlock password = Hmac.keyBlock other)
    (rounds : Nat) (salt : Bytes) : derive rounds password salt = derive rounds other salt := by
  unfold derive Hmac.prepare
  rw [h]

end Crypto

end Bookmarks
