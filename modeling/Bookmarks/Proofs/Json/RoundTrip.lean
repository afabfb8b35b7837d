import Bookmarks.Json.Codec
import Bookmarks.Proofs.Json.Leaves
import Mathlib.Data.List.DropRight

/-! # Reading back a text

The two layouts of a value differ in nothing but the white space between its parts.
A `Layout` says what that white space is, and both are instances of it, so reading
back is proved once.

Each part is read back with the input behind it left over, by recursion on the value;
the numbers of a value have to be whole (`Integral`), since a double is written in
decimals, and a number that fits sixty-four bits is read as itself (`Whole`).  **The steps
a reader is allowed are enough**: twice the length of a text
covers a step for every value and one for every comma.
-/
namespace Bookmarks.Json

open Text Reader

/-! ## Layouts -/

/-- The white space between the parts of a text. -/
structure Layout where
  /-- Before an item, and before the end of an array or object, at a level. -/
  gap : Nat → List Char
  /-- After a colon. -/
  space : List Char
  gap_blank : ∀ level, ∀ c ∈ gap level, isSpace (some c)
  space_blank : ∀ c ∈ space, isSpace (some c)

namespace Layout

mutual

/-- The text of a value, the first line of which stands at `level`. -/
def chars (y : Layout) (level : Nat) : Json → List Char
  | .null => nullChars
  | .bool b => boolChars b
  | .number n => numberChars n
  | .string s => stringChars s
  | .array items =>
    if items.isEmpty then ['[', ']']
    else '[' :: y.itemChars (level + 1) items ++ y.gap level ++ [']']
  | .object members =>
    if members.isEmpty then ['\x7b', '\x7d']
    else '\x7b' :: y.memberChars (level + 1) members ++ y.gap level ++ ['\x7d']

/-- The items of an array with commas between them. -/
def itemChars (y : Layout) (level : Nat) : List Json → List Char
  | [] => []
  | x :: items =>
    y.gap level ++ y.chars level x ++ if items.isEmpty then [] else ',' :: y.itemChars level items

/-- The members of an object with commas between them. -/
def memberChars (y : Layout) (level : Nat) : List (String × Json) → List Char
  | [] => []
  | (k, v) :: members =>
    y.gap level ++ stringChars k ++ ':' :: y.space ++ y.chars level v ++
      if members.isEmpty then [] else ',' :: y.memberChars level members

end

/-- The layout without white space. -/
def compact : Layout where
  gap _ := []
  space := []
  gap_blank _ _ hc := nomatch hc
  space_blank _ hc := nomatch hc

theorem newline_blank (level : Nat) : ∀ c ∈ newline level, isSpace (some c) := by
  intro c hc
  rcases List.mem_cons.mp hc with rfl | hc
  · rfl
  · rw [List.eq_of_mem_replicate hc]
    rfl

/-- The layout with a line for every item. -/
def pretty : Layout where
  gap := newline
  space := [' ']
  gap_blank := newline_blank
  space_blank c hc := by
    rw [List.mem_singleton.mp hc]
    rfl

mutual

theorem chars_compact : ∀ (level : Nat) (j : Json), compact.chars level j = compactChars j
  | _, .null => rfl
  | _, .bool _ => rfl
  | _, .number _ => rfl
  | _, .string _ => rfl
  | level, .array items => by
    cases items with
    | nil => rfl
    | cons x items =>
      simp only [chars, compactChars, itemChars_compact (level + 1) (x :: items)]
      simp [compact]
  | level, .object members => by
    cases members with
    | nil => rfl
    | cons m members =>
      simp only [chars, compactChars, memberChars_compact (level + 1) (m :: members)]
      simp [compact]

theorem itemChars_compact : ∀ (level : Nat) (items : List Json),
    compact.itemChars level items = compactItems items
  | _, [] => rfl
  | level, x :: items => by
    simp only [itemChars, compactItems, chars_compact level x, itemChars_compact level items]
    simp [compact]

theorem memberChars_compact : ∀ (level : Nat) (members : List (String × Json)),
    compact.memberChars level members = compactMembers members
  | _, [] => rfl
  | level, (k, v) :: members => by
    simp only [memberChars, compactMembers, chars_compact level v, memberChars_compact level members]
    simp [compact]

end

mutual

theorem chars_pretty : ∀ (level : Nat) (j : Json), pretty.chars level j = prettyChars level j
  | _, .null => rfl
  | _, .bool _ => rfl
  | _, .number _ => rfl
  | _, .string _ => rfl
  | level, .array items => by
    simp only [chars, prettyChars, itemChars_pretty (level + 1) items]
    rfl
  | level, .object members => by
    simp only [chars, prettyChars, memberChars_pretty (level + 1) members]
    rfl

theorem itemChars_pretty : ∀ (level : Nat) (items : List Json),
    pretty.itemChars level items = prettyItems level items
  | _, [] => rfl
  | level, x :: items => by
    simp only [itemChars, prettyItems, chars_pretty level x, itemChars_pretty level items]
    rfl

theorem memberChars_pretty : ∀ (level : Nat) (members : List (String × Json)),
    pretty.memberChars level members = prettyMembers level members
  | _, [] => rfl
  | level, (k, v) :: members => by
    simp only [memberChars, prettyMembers, chars_pretty level v, memberChars_pretty level members]
    simp [pretty]

end

end Layout

/-! ## White space -/

theorem skipSpace_blank {blank : List Char} (h : ∀ c ∈ blank, isSpace (some c)) (input : List Symbol) :
    skipSpace (blank.map some ++ input) = skipSpace input := by
  refine List.dropWhile_append_of_pos ?_
  intro s hs
  obtain ⟨c, hc, rfl⟩ := List.mem_map.mp hs
  exact h c hc

theorem skipSpace_of_not {s : Symbol} (h : isSpace s = false) (input : List Symbol) :
    skipSpace (s :: input) = s :: input := by
  refine List.dropWhile_cons_of_neg ?_
  simp [h]

theorem skipSpace_skipSpace (input : List Symbol) : skipSpace (skipSpace input) = skipSpace input :=
  List.dropWhile_idempotent isSpace input

/-- White space before a value does not count. -/
theorem value_skipSpace (fuel : Nat) (input : List Symbol) : value fuel (skipSpace input) = value fuel input := by
  cases fuel with
  | zero => simp only [value]
  | succ fuel => simp only [value, skipSpace_skipSpace]

theorem items_skipSpace (fuel : Nat) (input : List Symbol) : items fuel (skipSpace input) = items fuel input := by
  cases fuel with
  | zero => simp only [items]
  | succ fuel => simp only [items, value_skipSpace]

theorem members_skipSpace (fuel : Nat) (input : List Symbol) :
    members fuel (skipSpace input) = members fuel input := by
  cases fuel with
  | zero => simp only [members]
  | succ fuel => simp only [members, skipSpace_skipSpace]

theorem value_blank {blank : List Char} (h : ∀ c ∈ blank, isSpace (some c)) (fuel : Nat) (input : List Symbol) :
    value fuel (blank.map some ++ input) = value fuel input := by
  rw [← value_skipSpace, skipSpace_blank h, value_skipSpace]

theorem items_blank {blank : List Char} (h : ∀ c ∈ blank, isSpace (some c)) (fuel : Nat) (input : List Symbol) :
    items fuel (blank.map some ++ input) = items fuel input := by
  rw [← items_skipSpace, skipSpace_blank h, items_skipSpace]

theorem members_blank {blank : List Char} (h : ∀ c ∈ blank, isSpace (some c)) (fuel : Nat) (input : List Symbol) :
    members fuel (blank.map some ++ input) = members fuel input := by
  rw [← members_skipSpace, skipSpace_blank h, members_skipSpace]

/-! ## One step of the reader -/

section Steps

variable {fuel : Nat} {input mid tail rest : List Symbol}

theorem value_null : value (fuel + 1) (nullChars.map some ++ rest) = some (.null, rest) := by
  simp only [value, nullChars, List.map_cons, List.cons_append]
  rfl

theorem value_bool (b : Bool) : value (fuel + 1) ((boolChars b).map some ++ rest) = some (.bool b, rest) := by
  cases b <;>
  · simp only [value]
    rfl

theorem stringChars_append (s : String) : (stringChars s).map some ++ rest =
    some '"' :: ((s.toList.flatMap escapeChar).map some ++ some '"' :: rest) := by
  simp [stringChars]

theorem value_string (s : String) :
    value (fuel + 1) ((stringChars s).map some ++ rest) = some (.string (some s), rest) := by
  rw [stringChars_append, value, skipSpace_of_not rfl]
  simp only [stringAfterQuote_escapeChars, Option.map_some]

/-- What starts a number starts nothing else. -/
theorem ne_of_startsNumber {c d : Char} (hc : c = '-' ∨ c.isDigit) (hd : d ≠ '-' ∧ d.isDigit = false) : c ≠ d := by
  rintro rfl
  rcases hc with rfl | hc
  · exact hd.1 rfl
  · exact absurd hc (by simp [hd.2])

/-- A number is read where no other value can start. -/
theorem value_number (n : Int) (hrest : Ends rest) :
    value (fuel + 1) ((integerChars n).map some ++ rest) = some (.number (readInteger n), rest) := by
  rw [← number_integerChars n hrest]
  obtain ⟨c, cs, hcs, hc⟩ := integerChars_eq_cons n
  rw [hcs, List.map_cons, List.cons_append]
  generalize cs.map some ++ rest = after
  have hne : ∀ d, d ≠ '-' ∧ d.isDigit = false → some c ≠ some d :=
    fun d hd h => ne_of_startsNumber hc hd (Option.some.inj h)
  have hspace : isSpace (some c) = false := by
    simp only [isSpace, Bool.or_eq_false_iff, beq_eq_false_iff_ne]
    exact ⟨⟨⟨hne _ (by decide), hne _ (by decide)⟩, hne _ (by decide)⟩, hne _ (by decide)⟩
  rw [value, skipSpace_of_not hspace]
  -- the reader goes by the first symbol; only the last alternative is left for this one
  split
  case h_7 => rfl
  all_goals exact absurd (List.cons.inj ‹_›).1 (hne _ (by decide))

/-- No value starts with the end of an array. -/
theorem value_bracket (h : skipSpace input = some ']' :: tail) : value fuel input = none := by
  cases fuel with
  | zero => simp only [value]
  | succ fuel =>
    simp only [value, h]
    rfl

theorem value_emptyArray : value (fuel + 1) (some '[' :: some ']' :: rest) = some (.array [], rest) := by
  simp only [value]
  rfl

theorem value_array {ds : List Document} (h : items fuel input = some (ds, rest)) :
    value (fuel + 1) (some '[' :: input) = some (.array ds, rest) := by
  rw [value, skipSpace_of_not rfl]
  split
  case h_2 input' heq =>
    obtain rfl : input = input' := (List.cons.inj heq).2
    split
    · next input' hclose =>
      -- an array that ends at once has no items to read
      cases fuel with
      | zero => simp only [items, reduceCtorEq] at h
      | succ fuel => simp only [items, value_bracket hclose, reduceCtorEq] at h
    · rw [items_skipSpace, h, Option.map_some]
  case h_7 _ hne _ _ _ _ => exact absurd rfl (hne _)
  all_goals exact absurd (List.cons.inj ‹_›).1 (by decide)

theorem items_last {d : Document} (h : value fuel input = some (d, mid)) (hmid : skipSpace mid = some ']' :: rest) :
    items (fuel + 1) input = some ([d], rest) := by
  simp only [items, h, hmid]

theorem items_more {d : Document} {ds : List Document} (h : value fuel input = some (d, some ',' :: tail))
    (htail : items fuel tail = some (ds, rest)) : items (fuel + 1) input = some (d :: ds, rest) := by
  simp only [items, h, skipSpace_of_not (show isSpace (some ',') = false from rfl), htail, Option.map_some]

theorem value_emptyObject : value (fuel + 1) (some '\x7b' :: some '\x7d' :: rest) = some (.object [], rest) := by
  simp only [value]
  rfl

theorem value_object {ds : List (Option String × Document)} (h : members fuel input = some (ds, rest)) :
    value (fuel + 1) (some '\x7b' :: input) = some (.object ds, rest) := by
  rw [value, skipSpace_of_not rfl]
  split
  case h_3 input' heq =>
    obtain rfl : input = input' := (List.cons.inj heq).2
    split
    · next input' hclose =>
      -- an object that ends at once has no key to read
      cases fuel with
      | zero => simp only [members, reduceCtorEq] at h
      | succ fuel =>
        rw [← members_skipSpace, hclose] at h
        exact absurd h (by simp [members, skipSpace_of_not (show isSpace (some '\x7d') = false from rfl)])
    · rw [members_skipSpace, h, Option.map_some]
  case h_7 _ _ hne _ _ _ => exact absurd rfl (hne _)
  all_goals exact absurd (List.cons.inj ‹_›).1 (by decide)

theorem members_last {k : String} {blank : List Char} (hblank : ∀ c ∈ blank, isSpace (some c)) {d : Document}
    (h : value fuel input = some (d, mid)) (hmid : skipSpace mid = some '\x7d' :: rest) :
    members (fuel + 1) ((stringChars k).map some ++ some ':' :: (blank.map some ++ input)) =
      some ([(some k, d)], rest) := by
  rw [stringChars_append, members, skipSpace_of_not rfl]
  simp only [stringAfterQuote_escapeChars, skipSpace_of_not (show isSpace (some ':') = false from rfl),
    value_blank hblank, h, hmid]

theorem members_more {k : String} {blank : List Char} (hblank : ∀ c ∈ blank, isSpace (some c)) {d : Document}
    {ds : List (Option String × Document)} (h : value fuel input = some (d, some ',' :: tail))
    (htail : members fuel tail = some (ds, rest)) :
    members (fuel + 1) ((stringChars k).map some ++ some ':' :: (blank.map some ++ input)) =
      some ((some k, d) :: ds, rest) := by
  rw [stringChars_append, members, skipSpace_of_not rfl]
  simp only [stringAfterQuote_escapeChars, skipSpace_of_not (show isSpace (some ':') = false from rfl),
    value_blank hblank, h, skipSpace_of_not (show isSpace (some ',') = false from rfl), htail, Option.map_some]

end Steps

/-! ## What a value is read as -/

mutual

/-- Whether no number of a value is a double. -/
def Integral : Json → Prop
  | .number (.integer _) => True
  | .number (.real _) => False
  | .array items => IntegralItems items
  | .object members => IntegralMembers members
  | .null => True
  | .bool _ => True
  | .string _ => True

/-- `Integral` for every item of an array. -/
def IntegralItems : List Json → Prop
  | [] => True
  | x :: items => x.Integral ∧ IntegralItems items

/-- `Integral` for the value of every member. -/
def IntegralMembers : List (String × Json) → Prop
  | [] => True
  | (_, v) :: members => v.Integral ∧ IntegralMembers members

end

mutual

/-- The document that the text of a value without doubles is read as. -/
def written : Json → Document
  | .null => .null
  | .bool b => .bool b
  | .number (.integer n) => .number (readInteger n)
  | .number (.real x) => .number (some (.real x))
  | .string s => .string (some s)
  | .array items => .array (writtenItems items)
  | .object members => .object (writtenMembers members)

/-- `written` for every item of an array. -/
def writtenItems : List Json → List Document
  | [] => []
  | x :: items => x.written :: writtenItems items

/-- `written` for the value of every member. -/
def writtenMembers : List (String × Json) → List (Option String × Document)
  | [] => []
  | (k, v) :: members => (some k, v.written) :: writtenMembers members

end

/-! ## Whole values -/

mutual

/-- Whether every number of a value is whole and fits. -/
def Whole : Json → Prop
  | .number (.integer n) => IsWhole n
  | .number (.real _) => False
  | .array items => WholeItems items
  | .object members => WholeMembers members
  | .null => True
  | .bool _ => True
  | .string _ => True

/-- `Whole` for every item of an array. -/
def WholeItems : List Json → Prop
  | [] => True
  | x :: items => x.Whole ∧ WholeItems items

/-- `Whole` for the value of every member. -/
def WholeMembers : List (String × Json) → Prop
  | [] => True
  | (_, v) :: members => v.Whole ∧ WholeMembers members

end

theorem wholeItems_iff {items : List Json} : WholeItems items ↔ ∀ x ∈ items, x.Whole := by
  induction items with
  | nil => simp [WholeItems]
  | cons x items ih => simp [WholeItems, ih]

theorem wholeMembers_iff {members : List (String × Json)} : WholeMembers members ↔ ∀ m ∈ members, m.2.Whole := by
  induction members with
  | nil => simp [WholeMembers]
  | cons m members ih => simp [WholeMembers, ih]

mutual

theorem Whole.integral : ∀ {j : Json}, j.Whole → j.Integral
  | .number (.integer _), _ => trivial
  | .array _, h => integralItems h
  | .object _, h => integralMembers h
  | .null, _ => trivial
  | .bool _, _ => trivial
  | .string _, _ => trivial

theorem integralItems : ∀ {items : List Json}, WholeItems items → IntegralItems items
  | [], _ => trivial
  | _ :: _, ⟨hx, hitems⟩ => ⟨hx.integral, integralItems hitems⟩

theorem integralMembers : ∀ {members : List (String × Json)}, WholeMembers members → IntegralMembers members
  | [], _ => trivial
  | _ :: _, ⟨hv, hmembers⟩ => ⟨hv.integral, integralMembers hmembers⟩

end

mutual

/-- A value whose numbers fit is read as itself. -/
theorem Whole.written_eq : ∀ {j : Json}, j.Whole → j.written = j.toDocument
  | .number (.integer _), h => congrArg Document.number (readInteger_of_isWhole h)
  | .array _, h => congrArg Document.array (writtenItems_eq h)
  | .object _, h => congrArg Document.object (writtenMembers_eq h)
  | .null, _ => rfl
  | .bool _, _ => rfl
  | .string _, _ => rfl

theorem writtenItems_eq : ∀ {items : List Json}, WholeItems items → writtenItems items = toDocuments items
  | [], _ => rfl
  | _ :: _, ⟨hx, hitems⟩ => congrArg₂ List.cons hx.written_eq (writtenItems_eq hitems)

theorem writtenMembers_eq : ∀ {members : List (String × Json)},
    WholeMembers members → writtenMembers members = toDocumentMembers members
  | [], _ => rfl
  | (k, _) :: _, ⟨hv, hmembers⟩ =>
    congrArg₂ List.cons (congrArg (Prod.mk (some k)) hv.written_eq) (writtenMembers_eq hmembers)

end

/-! ## A whole text -/

namespace Layout

variable (y : Layout)

theorem length_pos (level : Nat) {j : Json} (hj : j.Integral) : 0 < (y.chars level j).length := by
  cases j with
  | null => simp [chars, nullChars]
  | bool b => cases b <;> simp [chars, boolChars]
  | number n =>
    cases n with
    | integer n =>
      obtain ⟨c, cs, hcs, -⟩ := integerChars_eq_cons n
      simp [chars, numberChars, hcs]
    | real x => exact hj.elim
  | string s => simp [chars, stringChars]
  | array items => cases items <;> simp [chars]
  | object members => cases members <;> simp [chars]

/-- Between the last item and the end of an array there is nothing but white space. -/
theorem skipSpace_close (level : Nat) {c : Char} (hc : isSpace (some c) = false) (rest : List Symbol) :
    skipSpace ((y.gap level ++ [c]).map some ++ rest) = some c :: rest := by
  rw [List.map_append, List.append_assoc, skipSpace_blank (y.gap_blank level)]
  exact skipSpace_of_not hc rest

theorem ends_close (level : Nat) {c : Char} (hc : c = ']' ∨ c = '\x7d') (rest : List Symbol) :
    Ends ((y.gap level ++ [c]).map some ++ rest) := by
  cases hgap : y.gap level with
  | nil =>
    refine ends_cons (Or.inr (Or.inr ?_))
    exact hc.imp (congrArg some) (congrArg some)
  | cons d gap => exact ends_cons (Or.inl (y.gap_blank level d (by simp [hgap])))

theorem ends_comma (rest : List Symbol) : Ends (some ',' :: rest) :=
  ends_cons (Or.inr (Or.inl rfl))

mutual

/-- **A value is read back**, whatever its layout. -/
theorem value_chars : ∀ (j : Json) (level fuel : Nat) (rest : List Symbol), j.Integral →
    2 * (y.chars level j).length ≤ fuel → Ends rest →
    value fuel ((y.chars level j).map some ++ rest) = some (j.written, rest)
  | j, level, 0, rest, hj, hfuel, _ => by
    -- no text is empty, so some step is allowed
    have hpos := y.length_pos level hj
    omega
  | .null, _, fuel + 1, rest, _, _, _ => value_null
  | .bool b, _, fuel + 1, rest, _, _, _ => value_bool b
  | .number (.integer n), _, fuel + 1, rest, _, _, hrest => value_number n hrest
  | .string s, _, fuel + 1, rest, _, _, _ => value_string s
  | .array items, level, fuel + 1, rest, hj, hfuel, _ => by
    by_cases hitems : items = []
    · subst hitems
      exact value_emptyArray
    · have hchars : y.chars level (.array items) =
          '[' :: (y.itemChars (level + 1) items ++ (y.gap level ++ [']'])) := by
        simp [chars, hitems]
      rw [hchars] at hfuel ⊢
      rw [List.map_cons, List.map_append, List.cons_append, List.append_assoc]
      refine value_array (items_chars items (level + 1) fuel _ rest hitems hj ?_
        (y.ends_close level (Or.inl rfl) rest) (y.skipSpace_close level rfl rest))
      simp only [List.length_cons, List.length_append, List.length_nil] at hfuel
      omega
  | .object members, level, fuel + 1, rest, hj, hfuel, _ => by
    by_cases hmembers : members = []
    · subst hmembers
      exact value_emptyObject
    · have hchars : y.chars level (.object members) =
          '\x7b' :: (y.memberChars (level + 1) members ++ (y.gap level ++ ['\x7d'])) := by
        simp [chars, hmembers]
      rw [hchars] at hfuel ⊢
      rw [List.map_cons, List.map_append, List.cons_append, List.append_assoc]
      refine value_object (members_chars members (level + 1) fuel _ rest hmembers hj ?_
        (y.ends_close level (Or.inr rfl) rest) (y.skipSpace_close level rfl rest))
      simp only [List.length_cons, List.length_append, List.length_nil] at hfuel
      omega

/-- The items of an array are read back up to its end. -/
theorem items_chars : ∀ (items : List Json) (level fuel : Nat) (tail rest : List Symbol), items ≠ [] →
    IntegralItems items → 2 * (y.itemChars level items).length + 1 ≤ fuel → Ends tail →
    skipSpace tail = some ']' :: rest →
    Reader.items fuel ((y.itemChars level items).map some ++ tail) = some (writtenItems items, rest)
  | x :: items, level, fuel + 1, tail, rest, _, ⟨hx, hxs⟩, hfuel, htail, hclose => by
    by_cases hitems : items = []
    · subst hitems
      have hchars : y.itemChars level [x] = y.gap level ++ y.chars level x := by
        simp [itemChars]
      rw [hchars] at hfuel ⊢
      rw [List.map_append, List.append_assoc, items_blank (y.gap_blank level)]
      rw [List.length_append] at hfuel
      exact items_last (value_chars x level fuel tail hx (by omega) htail) hclose
    · have hchars : y.itemChars level (x :: items) =
          y.gap level ++ (y.chars level x ++ ',' :: y.itemChars level items) := by
        simp [itemChars, hitems]
      rw [hchars] at hfuel ⊢
      rw [List.map_append, List.append_assoc, items_blank (y.gap_blank level), List.map_append, List.append_assoc]
      simp only [List.length_append, List.length_cons] at hfuel
      exact items_more (value_chars x level fuel _ hx (by omega) (ends_comma _))
        (items_chars items level fuel tail rest hitems hxs (by omega) htail hclose)

/-- The members of an object are read back up to its end. -/
theorem members_chars : ∀ (members : List (String × Json)) (level fuel : Nat) (tail rest : List Symbol),
    members ≠ [] → IntegralMembers members → 2 * (y.memberChars level members).length + 1 ≤ fuel → Ends tail →
    skipSpace tail = some '\x7d' :: rest →
    Reader.members fuel ((y.memberChars level members).map some ++ tail) = some (writtenMembers members, rest)
  | (k, v) :: members, level, fuel + 1, tail, rest, _, ⟨hv, hms⟩, hfuel, htail, hclose => by
    by_cases hmembers : members = []
    · subst hmembers
      have hchars : y.memberChars level [(k, v)] =
          y.gap level ++ (stringChars k ++ ':' :: (y.space ++ y.chars level v)) := by
        simp [memberChars]
      rw [hchars] at hfuel ⊢
      simp only [List.length_append, List.length_cons] at hfuel
      rw [List.map_append, List.append_assoc, members_blank (y.gap_blank level), List.map_append, List.append_assoc,
        List.map_cons, List.cons_append, List.map_append, List.append_assoc]
      exact members_last y.space_blank (value_chars v level fuel tail hv (by omega) htail) hclose
    · have hchars : y.memberChars level ((k, v) :: members) =
          y.gap level ++ (stringChars k ++ ':' :: (y.space ++ (y.chars level v ++
            ',' :: y.memberChars level members))) := by
        simp [memberChars, hmembers]
      rw [hchars] at hfuel ⊢
      simp only [List.length_append, List.length_cons] at hfuel
      rw [List.map_append, List.append_assoc, members_blank (y.gap_blank level), List.map_append, List.append_assoc,
        List.map_cons, List.cons_append, List.map_append, List.append_assoc, List.map_append, List.append_assoc]
      exact members_more y.space_blank (value_chars v level fuel _ hv (by omega) (ends_comma _))
        (members_chars members level fuel tail rest hmembers hms (by omega) htail hclose)

end

/-- The steps allowed for a text are enough to read it. -/
theorem ofSymbols?_chars {j : Json} (hj : j.Integral) :
    Document.ofSymbols? ((y.chars 0 j).map some) = some j.written := by
  have hfuel : 2 * (y.chars 0 j).length ≤ fuelFor ((y.chars 0 j).map some) := by
    rw [fuelFor, List.length_map]
    omega
  have hvalue := y.value_chars j 0 _ [] hj hfuel ends_nil
  rw [List.append_nil] at hvalue
  unfold Document.ofSymbols?
  rw [hvalue]
  rfl

end Layout

/-- A value without doubles is read from its text without white space as what the reader
makes of its numbers. -/
theorem ofText?_compact_of_integral {j : Json} (hj : j.Integral) : Document.ofText? j.compact = some j.written := by
  rw [Document.ofText?, symbols, compact, String.toList_ofList, ← Layout.chars_compact 0]
  exact Layout.compact.ofSymbols?_chars hj

/-- **A value is read back from its text** without white space. -/
theorem ofText?_compact {j : Json} (hj : j.Whole) : Document.ofText? j.compact = some j.toDocument := by
  rw [ofText?_compact_of_integral hj.integral, hj.written_eq]

/-- A value is read back from its text over several lines. -/
theorem ofText?_pretty {j : Json} (hj : j.Whole) : Document.ofText? j.pretty = some j.toDocument := by
  rw [Document.ofText?, symbols, pretty, String.toList_ofList, ← Layout.chars_pretty 0, ← hj.written_eq]
  exact Layout.pretty.ofSymbols?_chars hj.integral

end Bookmarks.Json
