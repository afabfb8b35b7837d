/-! # Blank characters

A title, an address and a token are read without the white space around them.
White space is the Unicode property `White_Space`: twenty-five characters, of
which only six are ASCII.  `trim` removes the longest blank run at either end,
and `IsTrimmed` says of a text that it has none.
-/
namespace Bookmarks.Text

/-- The code points with the property `White_Space`, as closed ranges. -/
def blankRanges : List (Nat × Nat) :=
  [(0x09, 0x0D), (0x20, 0x20), (0x85, 0x85), (0xA0, 0xA0), (0x1680, 0x1680),
   (0x2000, 0x200A), (0x2028, 0x2029), (0x202F, 0x202F), (0x205F, 0x205F),
   (0x3000, 0x3000)]

/-- Whether a character is white space. -/
def isBlank (c : Char) : Bool :=
  blankRanges.any fun r => r.1 ≤ c.toNat && c.toNat ≤ r.2

/-- The characters without the blank runs at either end. -/
def trimChars (cs : List Char) : List Char :=
  ((cs.dropWhile isBlank).reverse.dropWhile isBlank).reverse

/-- The text without the white space around it. -/
def trim (s : String) : String :=
  String.ofList (trimChars s.toList)

/-- Whether a text is empty or white space only. -/
def isBlankText (s : String) : Bool :=
  s.toList.all isBlank

/-- A text that neither starts nor ends with a blank character. -/
def IsTrimmed (s : String) : Prop :=
  trim s = s

instance (s : String) : Decidable (IsTrimmed s) :=
  inferInstanceAs (Decidable (trim s = s))

@[simp] theorem toList_trim (s : String) : (trim s).toList = trimChars s.toList :=
  String.toList_ofList

/-- Dropping a blank front leaves nothing exactly when every character is blank. -/
theorem dropBlank_eq_nil_iff (cs : List Char) :
    cs.dropWhile isBlank = [] ↔ ∀ c ∈ cs, isBlank c := by
  induction cs with
  | nil => simp
  | cons c cs ih => by_cases h : isBlank c <;> simp [h, ih]

/-- Trimming leaves nothing exactly when every character is blank. -/
theorem trimChars_eq_nil_iff (cs : List Char) : trimChars cs = [] ↔ ∀ c ∈ cs, isBlank c := by
  unfold trimChars
  rw [List.reverse_eq_nil_iff, dropBlank_eq_nil_iff]
  simp only [List.mem_reverse]
  induction cs with
  | nil => simp
  | cons c cs ih =>
    by_cases h : isBlank c
    · simp [h, ih]
    · simp [h]

/-- A text trims to nothing exactly when it is blank. -/
theorem trim_eq_empty_iff (s : String) : trim s = "" ↔ isBlankText s = true := by
  rw [← String.toList_inj, toList_trim, isBlankText, List.all_eq_true]
  exact trimChars_eq_nil_iff s.toList

end Bookmarks.Text
