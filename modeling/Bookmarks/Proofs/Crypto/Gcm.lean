import Bookmarks.Crypto.Gcm

/-! # Opening undoes sealing

What AES-256-GCM seals is opened under the same key and nonce.  All of this is a
matter of lengths: a cipher block has sixteen bytes, so the key stream is **as long as
what it is combined with** and the tag is found where it was put.

The length of a cipher block is that of the round key combined last, so the schedule of
keys is followed once through its words of four bytes.
-/
namespace Bookmarks

namespace Bytes

theorem chunks_go_lengths {size : Nat} (hsize : 0 < size) {n fuel : Nat} (hfuel : n ≤ fuel) {bytes : Bytes}
    (h : bytes.length = n * size) :
    (chunks.go size fuel bytes).length = n ∧ ∀ piece ∈ chunks.go size fuel bytes, piece.length = size := by
  induction n generalizing fuel bytes with
  | zero =>
    obtain rfl : bytes = [] := List.eq_nil_of_length_eq_zero (by omega)
    cases fuel <;> exact ⟨rfl, nofun⟩
  | succ n ih =>
    rw [Nat.succ_mul] at h
    obtain ⟨fuel, rfl⟩ : ∃ k, fuel = k + 1 := ⟨fuel - 1, by omega⟩
    cases bytes with
    | nil =>
      simp only [List.length_nil] at h
      omega
    | cons b bytes =>
      have hdrop : ((b :: bytes).drop size).length = n * size := by
        rw [List.length_drop]
        omega
      obtain ⟨hlen, hpieces⟩ := ih (Nat.le_of_succ_le_succ hfuel) hdrop
      have hgo : chunks.go size (fuel + 1) (b :: bytes) =
          (b :: bytes).take size :: chunks.go size fuel ((b :: bytes).drop size) := rfl
      rw [hgo]
      refine ⟨by rw [List.length_cons, hlen], ?_⟩
      refine List.forall_mem_cons.mpr ⟨?_, hpieces⟩
      rw [List.length_take]
      omega

/-- Bytes that can be cut evenly are. -/
theorem chunks_lengths {size n : Nat} (hsize : 0 < size) {bytes : Bytes} (h : bytes.length = n * size) :
    (chunks size bytes).length = n ∧ ∀ piece ∈ chunks size bytes, piece.length = size := by
  refine chunks_go_lengths hsize ?_ h
  rw [h]
  exact Nat.le_mul_of_pos_right n hsize

end Bytes

namespace Crypto

namespace Aes

/-- The words of a schedule, eight at a time and of four bytes each. -/
def Words (words : List Bytes) : Prop :=
  words.length = 8 ∧ ∀ w ∈ words, w.length = 4

theorem chain_lengths {seed : Bytes} (hseed : seed.length = 4) {words : List Bytes} (h : ∀ w ∈ words, w.length = 4) :
    (chain seed words).length = words.length ∧ ∀ w ∈ chain seed words, w.length = 4 := by
  induction words generalizing seed with
  | nil => exact ⟨rfl, nofun⟩
  | cons w words ih =>
    obtain ⟨hw, hwords⟩ := List.forall_mem_cons.mp h
    have hnext : (Bytes.xor w seed).length = 4 := by rw [Bytes.length_xor, hw, hseed]; rfl
    obtain ⟨hlen, hall⟩ := ih hnext hwords
    simp only [chain]
    exact ⟨by rw [List.length_cons, List.length_cons, hlen], List.forall_mem_cons.mpr ⟨hnext, hall⟩⟩

theorem length_getD {words : List Bytes} (h : ∀ w ∈ words, w.length = 4) {i : Nat} (hi : i < words.length) :
    (words.getD i []).length = 4 := by
  rw [List.getD_eq_getElem?_getD, List.getElem?_eq_getElem hi, Option.getD_some]
  exact h _ (List.getElem_mem hi)

theorem nextWords_words (factor : UInt8) {words : List Bytes} (h : Words words) : Words (nextWords factor words) := by
  obtain ⟨hlen, hall⟩ := h
  obtain ⟨a, rest, hlast⟩ : ∃ a rest, (words.getD 7 []).map substitute = a :: rest := by
    refine List.exists_cons_of_length_pos ?_
    rw [List.length_map, length_getD hall (by omega)]
    decide
  have hrest : (a :: rest).length = 4 := by
    rw [← hlast, List.length_map, length_getD hall (by omega)]
  simp only [nextWords, hlast]
  -- the turned word is as long as the last one, so both chains start from four bytes
  have hseed : (Bytes.xor (rest ++ [a]) [factor, 0, 0, 0]).length = 4 := by
    rw [List.length_cons] at hrest
    rw [Bytes.length_xor, List.length_append, List.length_singleton, hrest]
    rfl
  obtain ⟨hfront, hfrontAll⟩ := chain_lengths hseed fun w hw => hall w (List.mem_of_mem_take hw)
  have hmiddle : (((chain (Bytes.xor (rest ++ [a]) [factor, 0, 0, 0]) (words.take 4)).getD 3 []).map
      substitute).length = 4 := by
    rw [List.length_map, length_getD hfrontAll]
    rw [hfront, List.length_take]
    omega
  obtain ⟨hback, hbackAll⟩ := chain_lengths hmiddle fun w hw => hall w (List.mem_of_mem_drop hw)
  refine ⟨?_, List.forall_mem_append.mpr ⟨hfrontAll, hbackAll⟩⟩
  rw [List.length_append, hfront, hback, List.length_take, List.length_drop]
  omega

/-- Every step of the expansion adds eight words. -/
theorem expandFrom_lengths {words : List Bytes} (h : Words words) (factors : List UInt8) :
    (expandFrom words factors).length = 8 * (factors.length + 1) ∧ ∀ w ∈ expandFrom words factors, w.length = 4 := by
  induction factors generalizing words with
  | nil => exact h
  | cons factor factors ih =>
    obtain ⟨hlen, hall⟩ := ih (nextWords_words factor h)
    refine ⟨?_, List.forall_mem_append.mpr ⟨h.2, hall⟩⟩
    rw [expandFrom, List.length_append, h.1, hlen, List.length_cons]
    omega

theorem length_flatten_of_forall {words : List Bytes} {size : Nat} (h : ∀ w ∈ words, w.length = size) :
    words.flatten.length = words.length * size := by
  induction words with
  | nil => simp
  | cons w words ih =>
    obtain ⟨hw, hwords⟩ := List.forall_mem_cons.mp h
    rw [List.flatten_cons, List.length_append, hw, ih hwords, List.length_cons, Nat.succ_mul]
    omega

/-- There are fifteen round keys of sixteen bytes. -/
theorem roundKeys_lengths (key : Octets 32) :
    (roundKeys key).length = 15 ∧ ∀ k ∈ roundKeys key, k.length = 16 := by
  have hwords : Words (Bytes.chunks 4 key.toBytes) := Bytes.chunks_lengths (by decide) key.length_toBytes
  obtain ⟨hlen, hall⟩ := expandFrom_lengths hwords roundFactors
  refine Bytes.chunks_lengths (by decide) ?_
  rw [List.length_take, length_flatten_of_forall hall, hlen]
  rfl

theorem length_runRounds (block : Bytes) {keys : List Bytes} (hne : keys ≠ []) (h : ∀ k ∈ keys, k.length = 16) :
    (runRounds block keys).length = 16 := by
  induction keys generalizing block with
  | nil => exact absurd rfl hne
  | cons key keys ih =>
    obtain ⟨hkey, hkeys⟩ := List.forall_mem_cons.mp h
    cases keys with
    | nil =>
      rw [runRounds, Bytes.length_xor, hkey]
      rfl
    | cons next keys => exact ih _ (by simp) hkeys

/-- **A cipher block has sixteen bytes.** -/
theorem length_encryptWith (key : Octets 32) (block : Bytes) : (encryptWith (roundKeys key) block).length = 16 := by
  obtain ⟨hlen, hall⟩ := roundKeys_lengths key
  match hkeys : roundKeys key with
  | [] => rw [hkeys] at hlen; exact absurd hlen (by decide)
  | [_] => rw [hkeys] at hlen; exact absurd hlen (by simp)
  | first :: next :: keys =>
    rw [hkeys] at hall
    exact length_runRounds _ (by simp) (List.forall_mem_cons.mp hall).2

end Aes

namespace Gcm

theorem length_keyStream (key : Octets 32) (nonce : Octets 12) (size : Nat) :
    size ≤ (keyStream key nonce size).length := by
  have hlen : (keyStream key nonce size).length = (size + 15) / 16 * 16 := by
    unfold keyStream
    rw [List.length_flatMap]
    simp only [Aes.length_encryptWith, List.map_const', List.length_range,
      List.sum_replicate_nat]
  omega

theorem length_tag (key : Octets 32) (nonce : Octets 12) (ciphertext : Bytes) :
    (tag key nonce ciphertext).length = tagLength := by
  rw [tag, Bytes.length_xor, Aes.encrypt, Aes.length_encryptWith, Element.toBytes, Bytes.length_ofNat]
  rfl

/-- The bytes of a sealed text before its tag. -/
def ciphertext (key : Octets 32) (nonce : Octets 12) (plaintext : Bytes) : Bytes :=
  Bytes.xor plaintext (keyStream key nonce plaintext.length)

theorem length_ciphertext (key : Octets 32) (nonce : Octets 12) (plaintext : Bytes) :
    (ciphertext key nonce plaintext).length = plaintext.length := by
  have hstream := length_keyStream key nonce plaintext.length
  rw [ciphertext, Bytes.length_xor]
  omega

theorem encrypt_eq (key : Octets 32) (nonce : Octets 12) (plaintext : Bytes) : encrypt key nonce plaintext =
    ciphertext key nonce plaintext ++ tag key nonce (ciphertext key nonce plaintext) := rfl

/-- A sealed text is longer than the plain one by its tag. -/
theorem length_encrypt (key : Octets 32) (nonce : Octets 12) (plaintext : Bytes) :
    (encrypt key nonce plaintext).length = plaintext.length + tagLength := by
  rw [encrypt_eq, List.length_append, length_ciphertext, length_tag]

/-- The tag is the last sixteen bytes, and it has to be that of the bytes before it. -/
theorem decrypt?_append (key : Octets 32) (nonce : Octets 12) (body : Bytes) {mac : Bytes}
    (h : mac.length = tagLength) :
    decrypt? key nonce (body ++ mac) =
      if mac = tag key nonce body then some (Bytes.xor body (keyStream key nonce body.length)) else none := by
  have hsize : (body ++ mac).length - tagLength = body.length := by
    rw [List.length_append, h]
    omega
  unfold decrypt?
  simp only [hsize, List.take_left, List.drop_left]

/-- A key opens what was sealed under another exactly if it gives the same tag. -/
theorem decrypt?_encrypt_eq (key other : Octets 32) (nonce : Octets 12) (plaintext : Bytes) :
    decrypt? other nonce (encrypt key nonce plaintext) =
      if tag other nonce (ciphertext key nonce plaintext) = tag key nonce (ciphertext key nonce plaintext) then
        some (Bytes.xor (ciphertext key nonce plaintext) (keyStream other nonce plaintext.length))
      else none := by
  -- the tag is cut off where it was put
  rw [encrypt_eq, decrypt?_append other nonce _ (length_tag key nonce _), length_ciphertext]
  simp only [eq_comm]

/-- **What was sealed is opened.** -/
theorem decrypt?_encrypt (key : Octets 32) (nonce : Octets 12) (plaintext : Bytes) :
    decrypt? key nonce (encrypt key nonce plaintext) = some plaintext := by
  rw [decrypt?_encrypt_eq, if_pos rfl, ciphertext,
    Bytes.xor_xor_cancel _ _ (length_keyStream key nonce plaintext.length)]

end Gcm

end Crypto

end Bookmarks
