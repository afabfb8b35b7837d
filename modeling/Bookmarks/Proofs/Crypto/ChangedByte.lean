import Bookmarks.Proofs.Crypto.Gcm
import Bookmarks.Proofs.Crypto.TagField
import Mathlib.Data.List.Induction

/-! # A changed byte and the tag

A tag is the value of a polynomial whose coefficients are the blocks of the ciphertext.
**Two ciphertexts that differ in one byte differ in one coefficient, and their tags are the
same only where the point of evaluation is zero**: what happens to the sum after that
coefficient can be undone.

The last block may be a partial one.  It is filled up with zeros, which no byte of it can
be mistaken for as the lengths agree.
-/
namespace Bookmarks

namespace Bytes

/-! ## Bytes as numbers -/

theorem toNat_concat (bytes : Bytes) (b : UInt8) : toNat (bytes ++ [b]) = toNat bytes * 256 + b.toNat := by
  rw [toNat, List.foldl_append, List.foldl_cons, List.foldl_nil]
  rfl

theorem toNat_lt (bytes : Bytes) : toNat bytes < 256 ^ bytes.length := by
  induction bytes using List.reverseRecOn with
  | nil => exact Nat.one_pos
  | append_singleton bytes b ih =>
    have hb : b.toNat < 256 := b.toNat_lt
    rw [toNat_concat, List.length_append, List.length_singleton, Nat.pow_succ]
    omega

/-- Sequences of one length are told apart by their numbers. -/
theorem eq_of_toNat_eq {a b : Bytes} (hlen : a.length = b.length) (h : toNat a = toNat b) : a = b := by
  induction a using List.reverseRecOn generalizing b with
  | nil => exact (List.eq_nil_of_length_eq_zero hlen.symm).symm
  | append_singleton a x ih =>
    obtain ⟨b, y, rfl⟩ : ∃ b' y, b = b' ++ [y] := by
      rcases List.eq_nil_or_concat b with rfl | ⟨b', y, rfl⟩
      · simp at hlen
      · exact ⟨b', y, by simp⟩
    have hx : x.toNat < 256 := x.toNat_lt
    have hy : y.toNat < 256 := y.toNat_lt
    rw [toNat_concat, toNat_concat] at h
    rw [ih (by simpa using hlen) (by omega), UInt8.toNat_inj.mp (show x.toNat = y.toNat by omega)]

theorem ofNat_succ (size n : Nat) : ofNat (size + 1) n = ofNat size (n / 256) ++ [UInt8.ofNat n] := by
  rw [ofNat, List.range_succ, List.map_append, ofNat]
  refine congrArg₂ (· ++ ·) (List.map_congr_left fun i hi => ?_) (by simp)
  rw [List.mem_range] at hi
  rw [Nat.div_div_eq_div_mul, ← Nat.pow_succ', show size + 1 - 1 - i = size - 1 - i + 1 by omega]

theorem toNat_ofNat (size n : Nat) : toNat (ofNat size n) = n % 256 ^ size := by
  induction size generalizing n with
  | zero => rw [Nat.pow_zero, Nat.mod_one]; rfl
  | succ size ih =>
    have hlow : (UInt8.ofNat n).toNat = n % 256 := UInt8.toNat_ofNat'
    rw [ofNat_succ, toNat_concat, ih, hlow, Nat.pow_succ', Nat.mod_mul]
    omega

theorem length_padTo {n : Nat} {bytes : Bytes} (h : bytes.length ≤ n) : (padTo n bytes).length = n := by
  rw [padTo, List.length_append, List.length_replicate]
  omega

/-- Combining with a mask that is long enough can be undone. -/
theorem eq_of_xor_eq {a b mask : Bytes} (ha : a.length ≤ mask.length) (hb : b.length ≤ mask.length)
    (h : xor a mask = xor b mask) : a = b := by
  rw [← xor_xor_cancel a mask ha, h, xor_xor_cancel b mask hb]

/-! ## The piece with the changed byte -/

theorem set_eq_self_iff {bytes : Bytes} {i : Nat} {b : UInt8} :
    bytes.set i b = bytes ↔ ∀ old, bytes[i]? = some old → old = b := by
  constructor
  · intro h old hold
    have hi : i < bytes.length := (List.getElem?_eq_some_iff.mp hold).1
    rw [← h, List.getElem?_set_self hi] at hold
    exact (Option.some.inj hold).symm
  · intro h
    rcases Nat.lt_or_ge i bytes.length with hi | hi
    · rw [← h bytes[i] (List.getElem?_eq_getElem hi)]
      exact List.set_getElem_self hi
    · exact List.set_eq_of_length_le hi

theorem chunks_go_set {size fuel i : Nat} {bytes : Bytes} (hsize : 0 < size) (hfuel : bytes.length ≤ fuel)
    (hi : i < bytes.length) (b : UInt8) :
    ∃ front piece back j, piece.length ≤ size ∧ piece[j]? = bytes[i]? ∧
      chunks.go size fuel bytes = front ++ piece :: back ∧
      chunks.go size fuel (bytes.set i b) = front ++ piece.set j b :: back := by
  induction fuel generalizing i bytes with
  | zero => omega
  | succ fuel ih =>
    have hgo : ∀ bytes : Bytes, bytes ≠ [] →
        chunks.go size (fuel + 1) bytes = bytes.take size :: chunks.go size fuel (bytes.drop size) := by
      intro bytes hne
      obtain ⟨x, rest, rfl⟩ := List.exists_cons_of_ne_nil hne
      rfl
    have hne : bytes ≠ [] := List.ne_nil_of_length_pos (Nat.zero_lt_of_lt hi)
    rw [hgo bytes hne, hgo (bytes.set i b) (by simpa using hne)]
    rcases Nat.lt_or_ge i size with hlt | hge
    · refine ⟨[], bytes.take size, chunks.go size fuel (bytes.drop size), i, List.length_take_le _ _, ?_, rfl, ?_⟩
      · exact List.getElem?_take_of_lt hlt
      · rw [List.take_set, List.drop_set_of_lt hlt]
        rfl
    · have hlen : (bytes.drop size).length = bytes.length - size := List.length_drop
      have hfuelRest : (bytes.drop size).length ≤ fuel := by omega
      have hiRest : i - size < (bytes.drop size).length := by omega
      obtain ⟨front, piece, back, j, hpiece, hat, heq, hset⟩ := ih hfuelRest hiRest
      refine ⟨bytes.take size :: front, piece, back, j, hpiece, ?_, ?_, ?_⟩
      · rw [hat, List.getElem?_drop, Nat.add_sub_cancel' hge]
      · rw [heq]
        rfl
      · rw [List.take_set_of_le hge, List.drop_set, if_neg (Nat.not_lt.mpr hge), hset]
        rfl

end Bytes

namespace Crypto.Gcm

namespace Element

/-! ## Blocks and their bytes -/

/-- Blocks that are filled up from the same length are told apart. -/
theorem eq_of_ofBytes_eq {a b : Bytes} (hlen : a.length = b.length) (hsize : a.length ≤ 16)
    (h : ofBytes a = ofBytes b) : a = b := by
  have hlenA : (Bytes.padTo 16 a).length = 16 := Bytes.length_padTo hsize
  have hlenB : (Bytes.padTo 16 b).length = 16 := Bytes.length_padTo (hlen ▸ hsize)
  have hltA := Bytes.toNat_lt (Bytes.padTo 16 a)
  have hltB := Bytes.toNat_lt (Bytes.padTo 16 b)
  rw [hlenA] at hltA
  rw [hlenB] at hltB
  have hnat := congrArg BitVec.toNat h
  rw [ofBytes, ofBytes, BitVec.toNat_ofNat, BitVec.toNat_ofNat, Nat.mod_eq_of_lt hltA, Nat.mod_eq_of_lt hltB] at hnat
  have hpad := Bytes.eq_of_toNat_eq (hlenA.trans hlenB.symm) hnat
  exact (List.append_inj hpad hlen).1

theorem toBytes_injective : Function.Injective toBytes := by
  intro x y h
  have hnat := congrArg Bytes.toNat h
  rw [toBytes, toBytes, Bytes.toNat_ofNat, Bytes.toNat_ofNat, Nat.mod_eq_of_lt x.isLt, Nat.mod_eq_of_lt y.isLt] at hnat
  exact BitVec.eq_of_toNat_eq hnat

theorem mul_zero (x : Element) : x.mul 0 = 0 := by
  refine residue_injective ?_
  rw [residue_mul, residue_zero, MulZeroClass.mul_zero]

end Element

/-! ## The coefficient with the changed byte -/

/-- Adding a coefficient and going on to the next power. -/
def absorb (point sum c : Element) : Element := (sum ^^^ c).mul point

variable {point : Element}

theorem evaluate_eq (cs : List Element) : evaluate point cs = cs.foldl (absorb point) 0 := rfl

theorem absorb_zero (sum c : Element) : absorb 0 sum c = 0 := Element.mul_zero _

/-- What follows can be undone. -/
theorem eq_of_foldl_absorb_eq (hpoint : point ≠ 0) {cs : List Element} {s t : Element}
    (h : cs.foldl (absorb point) s = cs.foldl (absorb point) t) : s = t := by
  induction cs generalizing s t with
  | nil => exact h
  | cons c cs ih => exact (BitVec.xor_left_inj c).mp (Element.eq_of_mul_eq hpoint (ih h))

/-- Of two polynomials that differ in one coefficient at most, the values agree if the
coefficients do, or at zero. -/
theorem evaluate_eq_iff (front back : List Element) (c d : Element) :
    evaluate point (front ++ c :: back) = evaluate point (front ++ d :: back) ↔ c = d ∨ point = 0 := by
  simp only [evaluate_eq, List.foldl_append, List.foldl_cons]
  constructor
  · intro h
    by_cases hpoint : point = 0
    · exact Or.inr hpoint
    · exact Or.inl ((BitVec.xor_right_inj _).mp (Element.eq_of_mul_eq hpoint (eq_of_foldl_absorb_eq hpoint h)))
  · rintro (rfl | rfl)
    · rfl
    · rw [absorb_zero, absorb_zero]

variable (key : Octets 32) (nonce : Octets 12)

theorem tag_eq_iff (a b : Bytes) :
    tag key nonce a = tag key nonce b ↔
      evaluate (Gcm.point key) (coefficients a) = evaluate (Gcm.point key) (coefficients b) := by
  have hmask : (Aes.encrypt key (counterBlock nonce 1)).length = 16 := Aes.length_encryptWith key _
  have hfits : ∀ x : Element, x.toBytes.length ≤ (Aes.encrypt key (counterBlock nonce 1)).length := by
    intro x
    rw [hmask, Element.toBytes, Bytes.length_ofNat]
  constructor
  · intro h
    exact Element.toBytes_injective (Bytes.eq_of_xor_eq (hfits _) (hfits _) h)
  · intro h
    rw [tag, tag, h]

/-- **A changed byte changes the tag**, unless the point of evaluation is zero. -/
theorem tag_set_eq_iff (ciphertext : Bytes) (i : Nat) (b : UInt8) :
    tag key nonce (ciphertext.set i b) = tag key nonce ciphertext ↔
      ciphertext.set i b = ciphertext ∨ Gcm.point key = 0 := by
  rcases Nat.lt_or_ge i ciphertext.length with hi | hi
  · obtain ⟨front, piece, back, j, hpiece, hat, heq, hset⟩ :=
      Bytes.chunks_go_set (show 0 < 16 by decide) (Nat.le_refl _) hi b
    have hcoefficients : coefficients ciphertext = front.map Element.ofBytes ++ Element.ofBytes piece ::
        (back.map Element.ofBytes ++ [BitVec.ofNat 128 (8 * ciphertext.length)]) := by
      rw [coefficients, Bytes.chunks, heq]
      simp
    have hchanged : coefficients (ciphertext.set i b) =
        front.map Element.ofBytes ++ Element.ofBytes (piece.set j b) ::
          (back.map Element.ofBytes ++ [BitVec.ofNat 128 (8 * ciphertext.length)]) := by
      rw [coefficients, Bytes.chunks, List.length_set, hset]
      simp
    have hpieces : Element.ofBytes (piece.set j b) = Element.ofBytes piece ↔ ciphertext.set i b = ciphertext := by
      rw [Bytes.set_eq_self_iff, ← hat, ← Bytes.set_eq_self_iff]
      refine ⟨Element.eq_of_ofBytes_eq List.length_set ?_, congrArg _⟩
      rwa [List.length_set]
    rw [tag_eq_iff, hcoefficients, hchanged, evaluate_eq_iff, hpieces]
  · rw [List.set_eq_of_length_le hi]
    simp

/-- The point is zero exactly if the zero block is encrypted to itself. -/
theorem point_eq_zero_iff : Gcm.point key = 0 ↔ Aes.encrypt key (List.replicate 16 0) = List.replicate 16 0 := by
  have hlen : (Aes.encrypt key (List.replicate 16 0)).length = 16 := Aes.length_encryptWith key _
  have hzero : Element.ofBytes (List.replicate 16 0) = 0 := by decide
  rw [Gcm.point, ← hzero]
  exact ⟨Element.eq_of_ofBytes_eq (by rw [hlen, List.length_replicate]) (by rw [hlen]), congrArg _⟩

/-- The key of zeros does not encrypt it to itself. -/
example : Gcm.point ⟨List.replicate 32 0, rfl⟩ ≠ 0 := by decide +kernel

theorem decrypt?_append_eq_none_iff (body : Bytes) {mac : Bytes} (h : mac.length = tagLength) :
    decrypt? key nonce (body ++ mac) = none ↔ mac ≠ tag key nonce body := by
  rw [decrypt?_append key nonce body h]
  split
  · next heq => exact ⟨nofun, fun hne => absurd heq hne⟩
  · next hne => exact ⟨fun _ => hne, fun _ => rfl⟩

/-- **Whether a sealed text with a changed byte is turned down.**  It is if the byte was
another one, and stood in the tag or the point of evaluation is not zero. -/
theorem decrypt?_set_eq_none_iff (plaintext : Bytes) (i : Nat) (b : UInt8) :
    decrypt? key nonce ((encrypt key nonce plaintext).set i b) = none ↔
      (encrypt key nonce plaintext).set i b ≠ encrypt key nonce plaintext ∧
        (Gcm.point key ≠ 0 ∨ plaintext.length ≤ i) := by
  have htag : (tag key nonce (ciphertext key nonce plaintext)).length = tagLength := length_tag key nonce _
  rw [encrypt_eq, List.set_append, length_ciphertext]
  split
  · next hi =>
    -- the tag is that of the ciphertext as it was
    have hlow : ¬ plaintext.length ≤ i := Nat.not_le.mpr hi
    rw [decrypt?_append_eq_none_iff key nonce _ htag, ne_comm, Ne, tag_set_eq_iff, Ne, List.append_left_inj]
    simp only [not_or, hlow, or_false, ne_eq]
  · next hi =>
    -- the ciphertext is as it was, and so is the tag it has
    have hlow : plaintext.length ≤ i := Nat.not_lt.mp hi
    rw [decrypt?_append_eq_none_iff key nonce _ (by rw [List.length_set, htag]), Ne, Ne, List.append_right_inj]
    simp only [hlow, or_true, and_true]

end Crypto.Gcm

end Bookmarks
