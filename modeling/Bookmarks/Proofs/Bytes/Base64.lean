import Bookmarks.Bytes.Base64

/-! # Reading back base64

Every group of three bytes is four numbers of six bits, and **a letter stands for its
number**; so bytes are read back from their text group by group.  Reading asks for the
padding and for zeros in the bits that carry nothing, so bytes have one text only.
-/
namespace Bookmarks.Bytes.Base64

theorem value?_letter {n : Nat} (h : n < 64) : value? (letter n) = some n := by
  have hall : ∀ n < 64, value? (letter n) = some n := by decide
  exact hall n h

theorem letter_ne_padding {n : Nat} (h : n < 64) : letter n ≠ '=' := by
  have hall : ∀ n < 64, letter n ≠ '=' := by decide
  exact hall n h

/-- A byte put together from its parts. -/
theorem ofNat_eq (b : UInt8) {n : Nat} (h : n = b.toNat) : UInt8.ofNat n = b := by
  rw [h, UInt8.ofNat_toNat]

/-- **Bytes are read back from their text.** -/
theorem decodeChars?_encodeChars (bytes : Bytes) : decodeChars? (encodeChars bytes) = some bytes := by
  -- by the groups that are written: the six-bit numbers of a group make up its bytes again
  induction bytes using encodeChars.induct with
  | case1 => rfl
  | case2 a =>
    have ha := a.toNat_lt
    have hfirst : UInt8.ofNat (a.toNat / 4 * 4 + a.toNat % 4 * 16 / 16) = a := ofNat_eq a (by omega)
    simp only [encodeChars, decodeChars?]
    rw [value?_letter (by omega), value?_letter (by omega)]
    simp only [Option.bind_eq_bind, Option.bind_some, hfirst]
    simp
  | case3 a b =>
    have ha := a.toNat_lt
    have hb := b.toNat_lt
    have hfirst : UInt8.ofNat (a.toNat / 4 * 4 + (a.toNat % 4 * 16 + b.toNat / 16) / 16) = a := ofNat_eq a (by omega)
    have hsecond : UInt8.ofNat ((a.toNat % 4 * 16 + b.toNat / 16) % 16 * 16 + b.toNat % 16 * 4 / 4) = b :=
      ofNat_eq b (by omega)
    have hpad : letter (b.toNat % 16 * 4) ≠ '=' := letter_ne_padding (by omega)
    simp only [encodeChars, decodeChars?]
    rw [value?_letter (by omega), value?_letter (by omega), value?_letter (by omega)]
    simp only [Option.bind_eq_bind, Option.bind_some, hfirst, hsecond]
    simp [hpad]
  | case4 a b c rest ih =>
    have ha := a.toNat_lt
    have hb := b.toNat_lt
    have hc := c.toNat_lt
    have hfirst : UInt8.ofNat (a.toNat / 4 * 4 + (a.toNat % 4 * 16 + b.toNat / 16) / 16) = a := ofNat_eq a (by omega)
    have hsecond : UInt8.ofNat ((a.toNat % 4 * 16 + b.toNat / 16) % 16 * 16 +
        (b.toNat % 16 * 4 + c.toNat / 64) / 4) = b := ofNat_eq b (by omega)
    have hthird : UInt8.ofNat ((b.toNat % 16 * 4 + c.toNat / 64) % 4 * 64 + c.toNat % 64) = c := ofNat_eq c (by omega)
    have hpad : letter (b.toNat % 16 * 4 + c.toNat / 64) ≠ '=' := letter_ne_padding (by omega)
    have hpad' : letter (c.toNat % 64) ≠ '=' := letter_ne_padding (by omega)
    simp only [encodeChars, decodeChars?]
    rw [value?_letter (by omega), value?_letter (by omega), value?_letter (by omega), value?_letter (by omega), ih]
    simp only [Option.bind_eq_bind, Option.bind_some, hfirst, hsecond, hthird]
    simp [hpad, hpad']

/-- A text is made of letters and padding. -/
theorem encodeChars_forall {P : Char → Prop} (hletter : ∀ n < 64, P (letter n)) (hpad : P '=') (bytes : Bytes) :
    ∀ c ∈ encodeChars bytes, P c := by
  induction bytes using encodeChars.induct with
  | case1 => nofun
  | case2 a =>
    have ha := a.toNat_lt
    simp only [encodeChars, List.forall_mem_cons]
    exact ⟨hletter _ (by omega), hletter _ (by omega), hpad, hpad, nofun⟩
  | case3 a b =>
    have ha := a.toNat_lt
    have hb := b.toNat_lt
    simp only [encodeChars, List.forall_mem_cons]
    exact ⟨hletter _ (by omega), hletter _ (by omega), hletter _ (by omega), hpad, nofun⟩
  | case4 a b c rest ih =>
    have ha := a.toNat_lt
    have hb := b.toNat_lt
    have hc := c.toNat_lt
    simp only [encodeChars, List.forall_mem_cons]
    exact ⟨hletter _ (by omega), hletter _ (by omega), hletter _ (by omega), hletter _ (by omega), ih⟩

theorem encodeChars_ne_nil {bytes : Bytes} (h : bytes ≠ []) : encodeChars bytes ≠ [] := by
  match bytes, h with
  | [_], _ => simp [encodeChars]
  | [_, _], _ => simp [encodeChars]
  | _ :: _ :: _ :: _, _ => simp [encodeChars]

/-! ## Only what is written is read -/

theorem toNat_bounds {lo hi c : Char} (h : (decide (lo ≤ c) && decide (c ≤ hi)) = true) :
    lo.toNat ≤ c.toNat ∧ c.toNat ≤ hi.toNat := by
  obtain ⟨hlo, hhi⟩ := Bool.and_eq_true_iff.mp h
  exact ⟨of_decide_eq_true hlo, of_decide_eq_true hhi⟩

/-- **A number is that of one letter**, and below sixty-four. -/
theorem letter_of_value? {c : Char} {n : Nat} (h : value? c = some n) : n < 64 ∧ letter n = c := by
  have hchar : ∀ k, k = c.toNat → Char.ofNat k = c := by
    rintro _ rfl
    exact Char.ofNat_toNat c
  unfold value? at h
  split at h
  · next hrange =>
    have hbounds : 65 ≤ c.toNat ∧ c.toNat ≤ 90 := toNat_bounds hrange
    cases h
    refine ⟨by omega, ?_⟩
    rw [letter, if_pos (by omega)]
    exact hchar _ (by omega)
  split at h
  · next hrange =>
    have hbounds : 97 ≤ c.toNat ∧ c.toNat ≤ 122 := toNat_bounds hrange
    cases h
    refine ⟨by omega, ?_⟩
    rw [letter, if_neg (by omega), if_pos (by omega)]
    exact hchar _ (by omega)
  split at h
  · next hrange =>
    have hbounds : 48 ≤ c.toNat ∧ c.toNat ≤ 57 := toNat_bounds hrange
    cases h
    refine ⟨by omega, ?_⟩
    rw [letter, if_neg (by omega), if_neg (by omega), if_pos (by omega)]
    exact hchar _ (by omega)
  split at h
  · next hplus =>
    cases h
    exact ⟨by decide, hplus.symm⟩
  split at h
  · next hslash =>
    cases h
    exact ⟨by decide, hslash.symm⟩
  · cases h

/-- What a group of four letters can be: one byte, two bytes, or three with more to come. -/
theorem decodeChars?_group {a b c d : Char} {rest : List Char} {bytes : Bytes}
    (h : decodeChars? (a :: b :: c :: d :: rest) = some bytes) :
    ∃ va vb, value? a = some va ∧ value? b = some vb ∧
      ((c = '=' ∧ d = '=' ∧ rest = [] ∧ vb % 16 = 0 ∧ bytes = [UInt8.ofNat (va * 4 + vb / 16)]) ∨
      ∃ vc, value? c = some vc ∧
        ((d = '=' ∧ rest = [] ∧ vc % 4 = 0 ∧
          bytes = [UInt8.ofNat (va * 4 + vb / 16), UInt8.ofNat (vb % 16 * 16 + vc / 4)]) ∨
        ∃ vd tail, value? d = some vd ∧ decodeChars? rest = some tail ∧
          bytes = UInt8.ofNat (va * 4 + vb / 16) :: UInt8.ofNat (vb % 16 * 16 + vc / 4) ::
            UInt8.ofNat (vc % 4 * 64 + vd) :: tail)) := by
  simp only [decodeChars?, Option.bind_eq_bind, Option.bind_eq_some_iff] at h
  obtain ⟨va, ha, vb, hb, h⟩ := h
  refine ⟨va, vb, ha, hb, ?_⟩
  split at h
  · next hpad =>
    simp only [Bool.and_eq_true, decide_eq_true_eq, List.isEmpty_iff] at hpad
    obtain ⟨⟨hc, hd⟩, hrest⟩ := hpad
    split at h
    · next hzero => exact Or.inl ⟨hc, hd, hrest, hzero, (Option.some.inj h).symm⟩
    · cases h
  obtain ⟨vc, hc, h⟩ := Option.bind_eq_some_iff.mp h
  refine Or.inr ⟨vc, hc, ?_⟩
  split at h
  · next hpad =>
    simp only [Bool.and_eq_true, decide_eq_true_eq, List.isEmpty_iff] at hpad
    split at h
    · next hzero => exact Or.inl ⟨hpad.1, hpad.2, hzero, (Option.some.inj h).symm⟩
    · cases h
  obtain ⟨vd, hd, h⟩ := Option.bind_eq_some_iff.mp h
  obtain ⟨tail, htail, h⟩ := Option.bind_eq_some_iff.mp h
  exact Or.inr ⟨vd, tail, hd, htail, (Option.some.inj h).symm⟩

/-- **A text that is read is the one that is written.** -/
theorem eq_encodeChars_of_decodeChars? {s : List Char} {bytes : Bytes} (h : decodeChars? s = some bytes) :
    s = encodeChars bytes := by
  -- by the groups that are read: the bytes of a group hold each of its numbers
  induction s using decodeChars?.induct generalizing bytes with
  | case1 =>
    cases h
    rfl
  | case2 a b c d rest ih =>
    obtain ⟨va, vb, ha, hb, hgroup⟩ := decodeChars?_group h
    obtain ⟨hva, rfl⟩ := letter_of_value? ha
    obtain ⟨hvb, rfl⟩ := letter_of_value? hb
    have hfirst : (UInt8.ofNat (va * 4 + vb / 16)).toNat = va * 4 + vb / 16 :=
      UInt8.toNat_ofNat_of_lt (by change _ < 256; omega)
    rcases hgroup with ⟨rfl, rfl, rfl, hzero, rfl⟩ | ⟨vc, hc, hgroup⟩
    · rw [encodeChars, hfirst]
      have h1 : (va * 4 + vb / 16) / 4 = va := by omega
      have h2 : (va * 4 + vb / 16) % 4 * 16 = vb := by omega
      rw [h1, h2]
    obtain ⟨hvc, rfl⟩ := letter_of_value? hc
    have hsecond : (UInt8.ofNat (vb % 16 * 16 + vc / 4)).toNat = vb % 16 * 16 + vc / 4 :=
      UInt8.toNat_ofNat_of_lt (by change _ < 256; omega)
    have h1 : (va * 4 + vb / 16) / 4 = va := by omega
    have h2 : (va * 4 + vb / 16) % 4 * 16 + (vb % 16 * 16 + vc / 4) / 16 = vb := by omega
    rcases hgroup with ⟨rfl, rfl, hzero, rfl⟩ | ⟨vd, tail, hd, htail, rfl⟩
    · have h3 : (vb % 16 * 16 + vc / 4) % 16 * 4 = vc := by omega
      rw [encodeChars, hfirst, hsecond, h1, h2, h3]
    obtain ⟨hvd, rfl⟩ := letter_of_value? hd
    have hthird : (UInt8.ofNat (vc % 4 * 64 + vd)).toNat = vc % 4 * 64 + vd :=
      UInt8.toNat_ofNat_of_lt (by change _ < 256; omega)
    have h3 : (vb % 16 * 16 + vc / 4) % 16 * 4 + (vc % 4 * 64 + vd) / 64 = vc := by omega
    have h4 : (vc % 4 * 64 + vd) % 64 = vd := by omega
    rw [encodeChars, hfirst, hsecond, hthird, h1, h2, h3, h4, ← ih htail]
  | case3 s hnil hgroup =>
    unfold decodeChars? at h
    split at h
    · exact absurd rfl hnil
    · exact absurd rfl (hgroup _ _ _ _ _)
    · cases h

theorem decodeChars?_eq_some_iff {s : List Char} {bytes : Bytes} :
    decodeChars? s = some bytes ↔ s = encodeChars bytes := by
  refine ⟨eq_encodeChars_of_decodeChars?, ?_⟩
  rintro rfl
  exact decodeChars?_encodeChars bytes

/-- **Bytes have one text**, and no other text is read. -/
theorem decode?_eq_some_iff {s : String} {bytes : Bytes} : decode? s = some bytes ↔ s = encode bytes := by
  rw [decode?, decodeChars?_eq_some_iff, encode, ← String.toList_inj, String.toList_ofList]

/-- The bits that carry nothing have to be zero. -/
example : decode? "AQ==" = some [1] ∧ decode? "AR==" = none := by decide

end Bookmarks.Bytes.Base64
