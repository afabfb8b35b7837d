import Bookmarks.Json.Writer

/-! # A compact text is one line

The compact text of a value has no control character in it, whatever strings and keys
the value holds (`inline_compactChars`): a string escapes them, and no number needs one.
A line break is a control character, so the text is a single line.
-/
namespace Bookmarks

/-- None of the characters is a control character; in particular none breaks a line. -/
def Inline (cs : List Char) : Prop := ∀ c ∈ cs, 0x20 ≤ c.toNat

instance (cs : List Char) : Decidable (Inline cs) := List.decidableBAll _ cs

section Inline
variable {c : Char} {cs ds : List Char}

@[simp] theorem inline_nil : Inline [] := nofun

@[simp] theorem inline_cons : Inline (c :: cs) ↔ 0x20 ≤ c.toNat ∧ Inline cs := List.forall_mem_cons

@[simp] theorem inline_append : Inline (cs ++ ds) ↔ Inline cs ∧ Inline ds := List.forall_mem_append

theorem Inline.of_subset (h : Inline ds) (hsub : cs ⊆ ds) : Inline cs :=
  fun c hc => h c (hsub hc)

theorem inline_replicate (n : Nat) (h : 0x20 ≤ c.toNat) : Inline (List.replicate n c) := by
  intro d hd
  rw [List.eq_of_mem_replicate hd]
  exact h

theorem Inline.not_mem_lineFeed (h : Inline cs) : '\n' ∉ cs :=
  fun hmem => absurd (h '\n' hmem) (by decide)

theorem Inline.not_mem_carriageReturn (h : Inline cs) : '\r' ∉ cs :=
  fun hmem => absurd (h '\r' hmem) (by decide)

end Inline

/-! ## Numbers -/

theorem inline_toDigits (n : Nat) : Inline (Nat.toDigits 10 n) := by
  intro c hc
  have hdigit : c.isDigit := Nat.isDigit_of_mem_toDigits (by omega) (by omega) hc
  have hlow : 48 ≤ c.toNat := by
    simp only [Char.isDigit, Bool.and_eq_true, decide_eq_true_eq, ge_iff_le, UInt32.le_iff_toNat_le] at hdigit
    exact hdigit.1
  omega

namespace Decimal

/-- A number is laid out with its own digits, zeros, a point, and an exponent with its
sign. -/
theorem Format.inline_layout (f : Format) {ds : List Char} (h : Inline ds) (point : Int) :
    Inline (f.layout ds point) := by
  unfold Format.layout
  split
  · split
    · exact inline_append.mpr ⟨inline_append.mpr ⟨by decide, inline_replicate _ (by decide)⟩, h⟩
    · refine inline_append.mpr ⟨?_, inline_cons.mpr ⟨by decide, ?_⟩⟩
      · have hpadded : Inline (ds ++ List.replicate (point.toNat + 1 - ds.length) '0') :=
          inline_append.mpr ⟨h, inline_replicate _ (by decide)⟩
        exact hpadded.of_subset (List.take_subset _ _)
      · split
        · decide
        · exact h.of_subset (List.drop_subset _ _)
  · refine inline_append.mpr ⟨?_, inline_cons.mpr ⟨by decide, inline_cons.mpr ⟨?_, inline_toDigits _⟩⟩⟩
    · split
      · obtain ⟨hfirst, hrest⟩ := inline_cons.mp h
        exact inline_cons.mpr ⟨hfirst, inline_cons.mpr ⟨by decide, hrest⟩⟩
      · exact h
    · split <;> decide

theorem Binary64.inline_text (x : Binary64) : Inline x.text.toList := by
  have hbody := standardFormat.inline_layout (inline_toDigits (shortest x.magnitude).digits)
    ((shortest x.magnitude).exponent + (Nat.toDigits 10 (shortest x.magnitude).digits).length - 1)
  simp only [Binary64.text, String.toList_ofList]
  split
  · exact inline_cons.mpr ⟨by decide, hbody⟩
  · exact hbody

end Decimal

namespace Json

theorem inline_numberChars (n : Number) : Inline (numberChars n) := by
  rcases n with (n | n) | x
  · exact inline_toDigits n
  · exact inline_cons.mpr ⟨by decide, inline_toDigits (n + 1)⟩
  · exact x.inline_text

/-! ## Strings -/

theorem inline_controlDigits : ∀ n < 0x20, Inline (controlDigits n) := by decide

/-- Only a character that is no control character stands for itself. -/
theorem inline_escapeChar (c : Char) : Inline (escapeChar c) := by
  unfold escapeChar
  iterate 7
    split
    · decide
  split
  · next hcontrol => exact inline_append.mpr ⟨by decide, inline_controlDigits _ hcontrol⟩
  · next hcontrol => exact inline_cons.mpr ⟨Nat.le_of_not_lt hcontrol, inline_nil⟩

theorem inline_stringChars (s : String) : Inline (stringChars s) := by
  refine inline_append.mpr ⟨inline_cons.mpr ⟨by decide, ?_⟩, by decide⟩
  intro c hc
  obtain ⟨d, -, hd⟩ := List.mem_flatMap.mp hc
  exact inline_escapeChar d c hd

/-! ## Values -/

theorem inline_separated {cs : List Char} (last : Bool) (h : Inline cs) :
    Inline (if last then [] else ',' :: cs) := by
  cases last with
  | true => exact inline_nil
  | false => exact inline_cons.mpr ⟨by decide, h⟩

mutual

/-- **The compact text of a value is inline**, whatever strings are in the value. -/
theorem inline_compactChars : ∀ j : Json, Inline (compactChars j)
  | .null => by decide
  | .bool b => by cases b <;> decide
  | .number n => inline_numberChars n
  | .string s => inline_stringChars s
  | .array items => by
    have hitems := inline_compactItems items
    exact inline_append.mpr ⟨inline_cons.mpr ⟨by decide, hitems⟩, by decide⟩
  | .object members => by
    have hmembers := inline_compactMembers members
    exact inline_append.mpr ⟨inline_cons.mpr ⟨by decide, hmembers⟩, by decide⟩

theorem inline_compactItems : ∀ items : List Json, Inline (compactItems items)
  | [] => inline_nil
  | x :: items => by
    have hitem := inline_compactChars x
    have hitems := inline_compactItems items
    exact inline_append.mpr ⟨hitem, inline_separated _ hitems⟩

theorem inline_compactMembers : ∀ members : List (String × Json), Inline (compactMembers members)
  | [] => inline_nil
  | (k, v) :: members => by
    have hvalue := inline_compactChars v
    have hmembers := inline_compactMembers members
    exact inline_append.mpr ⟨inline_append.mpr ⟨inline_stringChars k, inline_cons.mpr ⟨by decide, hvalue⟩⟩,
      inline_separated _ hmembers⟩

end

theorem inline_compact (j : Json) : Inline j.compact.toList := by
  rw [compact, String.toList_ofList]
  exact inline_compactChars j

end Json

end Bookmarks
