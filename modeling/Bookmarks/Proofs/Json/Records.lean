import Bookmarks.Proofs.Json.RoundTrip
import Mathlib.Data.List.Nodup

/-! # Reading back records and lists

A record that was written as an object is read field by field.  As long as **no key
stands twice**, what a field is read from is the value of the first member with its
name (`Json.lookup`), wherever that member stands; a field that was left out takes
what its absence means.

`Codec.Keeps` says of a value that its codec reads it back, and that its numbers are
whole, so that each of its texts is read back as well.
-/
namespace Bookmarks

theorem ok_of_map {ε α β : Type} {f : α → β} {x : Except ε α} {b : β} (h : x.map f = .ok b) :
    ∃ a, x = .ok a ∧ f a = b := by
  cases x with
  | error e => exact absurd h (by simp [Except.map])
  | ok a => exact ⟨a, rfl, Except.ok.inj h⟩

theorem ok_of_bind {ε α β : Type} {f : α → Except ε β} {x : Except ε α} {b : β} (h : x >>= f = .ok b) :
    ∃ a, x = .ok a ∧ f a = .ok b := by
  cases x with
  | error e => cases h
  | ok a => exact ⟨a, rfl, h⟩

namespace Json

theorem lookup_append (key : String) (members members' : List (String × Json)) :
    lookup key (members ++ members') = (lookup key members).or (lookup key members') := by
  induction members with
  | nil => rfl
  | cons m members ih =>
    obtain ⟨k, v⟩ := m
    simp only [List.cons_append, lookup]
    split
    · rfl
    · exact ih

theorem lookup_eq_none_iff {key : String} {members : List (String × Json)} :
    lookup key members = none ↔ key ∉ members.map Prod.fst := by
  induction members with
  | nil => simp [lookup]
  | cons m members ih =>
    obtain ⟨k, v⟩ := m
    by_cases h : k = key
    · simp [lookup, h]
    · simp [lookup, h, ih, Ne.symm h]

end Json

theorem Stop.both_eq_ok {α β : Type} {f : Except Stop (α → β)} {x : Except Stop α} {b : β}
    (h : Stop.both f x = .ok b) : ∃ g a, f = .ok g ∧ x = .ok a ∧ g a = b := by
  cases f with
  | error s => cases x <;> exact absurd h (by simp [Stop.both])
  | ok g =>
    cases x with
    | error s => exact absurd h (by simp [Stop.both])
    | ok a => exact ⟨g, a, rfl, rfl, Except.ok.inj h⟩

namespace Record

open Json

variable {α β : Type} {name : String} {members : List (String × Json)} {v : Json}
  {read : Document → Except Fault α} {absence : Absence α}

/-! ## One field -/

theorem occurrencesFrom_of_lookup_none (h : lookup name members = none) (position : Nat) :
    occurrencesFrom name position (toDocumentMembers members) = [] := by
  induction members generalizing position with
  | nil => rfl
  | cons m members ih =>
    obtain ⟨k, v⟩ := m
    simp only [lookup] at h
    split at h
    · exact absurd h (by simp)
    · next hk =>
      simp only [toDocumentMembers, occurrencesFrom, Option.some.injEq, hk, if_false]
      exact ih h (position + 1)

/-- A key that stands only once has one occurrence. -/
theorem occurrencesFrom_of_lookup (hkeys : (members.map Prod.fst).Nodup) (h : lookup name members = some v)
    (position : Nat) :
    ∃ at_, occurrencesFrom name position (toDocumentMembers members) = [(at_, v.toDocument)] := by
  -- behind the member that is found there is no other of its name
  induction members generalizing position with
  | nil => cases h
  | cons m members ih =>
    obtain ⟨k, w⟩ := m
    obtain ⟨hk, hkeys⟩ := List.nodup_cons.mp hkeys
    simp only [lookup] at h
    simp only [toDocumentMembers, occurrencesFrom, Option.some.injEq]
    split at h
    · next heq =>
      obtain rfl : w = v := Option.some.inj h
      subst heq
      rw [if_pos rfl, occurrencesFrom_of_lookup_none (lookup_eq_none_iff.mpr hk)]
      exact ⟨position, rfl⟩
    · next hne =>
      rw [if_neg hne]
      exact ih hkeys h (position + 1)

/-- A field that is there is read from the value of its member. -/
theorem fieldOfMembers_of_lookup {a : α} (hkeys : (members.map Prod.fst).Nodup)
    (h : lookup name members = some v) (ha : read v.toDocument = .ok a) :
    fieldOfMembers name read absence (toDocumentMembers members) = .ok a := by
  obtain ⟨at_, hat⟩ := occurrencesFrom_of_lookup hkeys h 0
  unfold fieldOfMembers
  rw [hat]
  simp only [ha]

/-- A field that is not there takes what its absence means. -/
theorem fieldOfMembers_of_absent {a : α} (h : lookup name members = none) (ha : absence.inObject = some a) :
    fieldOfMembers name read absence (toDocumentMembers members) = .ok a := by
  unfold fieldOfMembers
  rw [occurrencesFrom_of_lookup_none h]
  simp only [ha]

/-- A field that is left out when there is nothing to write is read back. -/
theorem fieldOfMembers_of_optional {a : Option α} {encode : α → Json} (hkeys : (members.map Prod.fst).Nodup)
    (h : lookup name members = a.map encode)
    (ha : ∀ x ∈ a, Document.readOption read (encode x).toDocument = .ok (some x)) :
    fieldOfMembers name (Document.readOption read) (.means none) (toDocumentMembers members) = .ok a := by
  cases a with
  | none => exact fieldOfMembers_of_absent h rfl
  | some x => exact fieldOfMembers_of_lookup hkeys h (ha x rfl)

/-! ## All fields -/

theorem ofMembers_make (a : α) (ms : Members) : (make a).ofMembers ms = .ok a := rfl

theorem ofMembers_field {r : Record (α → β)} {f : α → β} {a : α} {ms : Members} (hf : r.ofMembers ms = .ok f)
    (ha : fieldOfMembers name read absence ms = .ok a) : (r.field name read absence).ofMembers ms = .ok (f a) := by
  simp only [field, hf, ha, Stop.both]

/-- A key that was written stands for a text. -/
theorem firstUnreadableKey_toDocumentMembers (members : List (String × Json)) :
    firstUnreadableKey (toDocumentMembers members) = none := by
  rw [firstUnreadableKey, List.findIdx?_eq_none_iff]
  intro m hm
  induction members with
  | nil => cases hm
  | cons n members ih =>
    rcases List.mem_cons.mp hm with rfl | hm
    · rfl
    · exact ih hm

/-- A record is read from an object as its fields are. -/
theorem read_object_eq (r : Record α) (members : List (String × Json)) (recordName : String) :
    r.read recordName (Json.object members).toDocument =
      (r.ofMembers (toDocumentMembers members)).mapError Stop.fault := by
  simp only [Record.read, Json.toDocument, firstUnreadableKey_toDocumentMembers]
  cases r.ofMembers (toDocumentMembers members) <;> rfl

/-- A record is read from an object once its fields are. -/
theorem read_object {r : Record α} {a : α} (h : r.ofMembers (toDocumentMembers members) = .ok a)
    (recordName : String) : r.read recordName (Json.object members).toDocument = .ok a := by
  rw [read_object_eq, h]
  rfl

/-! ## One fault -/

/-- What is read from a member that is there, faulty or not. -/
theorem fieldOfMembers_eq (hkeys : (members.map Prod.fst).Nodup) (h : lookup name members = some v) :
    (fieldOfMembers name read absence (toDocumentMembers members)).mapError Stop.fault = read v.toDocument := by
  obtain ⟨at_, hat⟩ := occurrencesFrom_of_lookup hkeys h 0
  unfold fieldOfMembers
  rw [hat]
  cases hread : read v.toDocument with
  | ok a => simp only [hread, Except.mapError]
  | error fault => simp only [hread, Except.mapError]

/-- Where all fields but the last are read, the last decides. -/
theorem ofMembers_field_eq {r : Record (α → β)} {f : α → β} {ms : Members} (hf : r.ofMembers ms = .ok f) :
    ((r.field name read absence).ofMembers ms).mapError Stop.fault =
      ((fieldOfMembers name read absence ms).mapError Stop.fault).map f := by
  simp only [field, hf]
  cases fieldOfMembers name read absence ms <;> rfl

/-- Where the last field is read, the others decide. -/
theorem ofMembers_field_eq_of_last {r : Record (α → β)} {a : α} {ms : Members}
    (ha : fieldOfMembers name read absence ms = .ok a) :
    ((r.field name read absence).ofMembers ms).mapError Stop.fault =
      ((r.ofMembers ms).mapError Stop.fault).map fun f => f a := by
  simp only [field, ha]
  cases r.ofMembers ms <;> rfl

/-! ## What is read at all -/

/-- Whatever a record is read from, what is read has a property. -/
structure Yields (r : Record α) (P : α → Prop) : Prop where
  ofMembers : ∀ ms a, r.ofMembers ms = .ok a → P a
  ofItems : ∀ short index items a, r.ofItems short index items = .ok a → P a

theorem yields_make {P : α → Prop} {a : α} (h : P a) : (make a).Yields P where
  ofMembers _ b hb := by
    obtain rfl : a = b := Except.ok.inj hb
    exact h
  ofItems _ _ _ b hb := by
    obtain rfl : a = b := Except.ok.inj hb
    exact h

/-- A record has a property of what the constructor makes of its fields, if the
field has one that this follows from, be it read or absent. -/
theorem Yields.field {r : Record (α → β)} {P : β → Prop} {Q : α → Prop}
    (hr : r.Yields fun f => ∀ a, Q a → P (f a)) (hread : ∀ d a, read d = .ok a → Q a)
    (hobject : ∀ a ∈ absence.inObject, Q a) (harray : ∀ a ∈ absence.inArray, Q a) :
    (r.field name read absence).Yields P where
  ofMembers ms b hb := by
    obtain ⟨f, a, hf, ha, rfl⟩ := Stop.both_eq_ok hb
    refine hr.ofMembers ms f hf a ?_
    unfold fieldOfMembers at ha
    split at ha
    · split at ha
      · next a' habs =>
        obtain rfl : a' = a := Except.ok.inj ha
        exact hobject a' habs
      · exact absurd ha (by simp)
    · split at ha
      · exact absurd ha (by simp)
      · next a' hd _ =>
        obtain rfl : a' = a := Except.ok.inj ha
        exact hread _ a' hd
      · exact absurd ha (by simp)
  ofItems short index items b hb := by
    obtain ⟨f, a, hf, ha, rfl⟩ := Stop.both_eq_ok hb
    refine hr.ofItems short index items f hf a ?_
    unfold fieldOfItems at ha
    split at ha
    · split at ha
      · next a' hd =>
        obtain rfl : a' = a := Except.ok.inj ha
        exact hread _ a' hd
      · exact absurd ha (by simp)
    · split at ha
      · next a' habs =>
        obtain rfl : a' = a := Except.ok.inj ha
        exact harray a' habs
      · exact absurd ha (by simp)

/-- A field that does not matter for the property may be anything. -/
theorem Yields.field_any {r : Record (α → β)} {P : β → Prop} (hr : r.Yields fun f => ∀ a, P (f a)) :
    (r.field name read absence).Yields P := by
  refine Yields.field (Q := fun _ => True) ⟨?_, ?_⟩ ?_ ?_ ?_
  · exact fun ms f hf a _ => hr.ofMembers ms f hf a
  · exact fun short index items f hf a _ => hr.ofItems short index items f hf a
  all_goals intros; trivial

theorem Yields.of_read {r : Record α} {P : α → Prop} (h : r.Yields P) {recordName : String} {d : Document} {a : α}
    (ha : r.read recordName d = .ok a) : P a := by
  unfold Record.read at ha
  split at ha
  · split at ha
    · next b hb _ =>
      obtain rfl : b = a := Except.ok.inj ha
      exact h.ofMembers _ b hb
    · exact absurd ha (by simp)
    · exact absurd ha (by simp)
    · exact absurd ha (by simp)
  · split at ha
    · next b hb =>
      split at ha
      · exact absurd ha (by simp)
      · obtain rfl : b = a := Except.ok.inj ha
        exact h.ofItems _ _ _ b hb
    · exact absurd ha (by simp)
  · exact absurd ha (by simp)

end Record

/-! ## Codecs -/

theorem Document.readItems_toDocuments {α : Type} {read : Document → Except Fault α} {encode : α → Json}
    {as : List α} (h : ∀ a ∈ as, read (encode a).toDocument = .ok a) :
    readItems read (Json.toDocuments (as.map encode)) = .ok as := by
  induction as with
  | nil => rfl
  | cons a as ih =>
    obtain ⟨ha, has⟩ := List.forall_mem_cons.mp h
    simp only [List.map_cons, Json.toDocuments, readItems, ha, ih has]
    rfl

/-- What holds of every item that is read holds of the items of a list. -/
theorem Document.readList_yields {α : Type} {read : Document → Except Fault α} {Q : α → Prop}
    (hread : ∀ d a, read d = .ok a → Q a) {d : Document} {as : List α} (h : readList read d = .ok as) :
    ∀ a ∈ as, Q a := by
  unfold readList at h
  split at h
  · next items =>
    induction items generalizing as with
    | nil =>
      obtain rfl : [] = as := Except.ok.inj h
      simp
    | cons d items ih =>
      unfold readItems at h
      split at h
      · exact absurd h (by simp)
      · next a ha =>
        obtain ⟨as', has, rfl⟩ := ok_of_map h
        exact List.forall_mem_cons.mpr ⟨hread d a ha, ih has⟩
  · exact absurd h (by simp)

/-- What is read as a number of sixty-four bits is one. -/
theorem Document.readInt64_yields {d : Document} {n : Int} (h : readInt64 d = .ok n) :
    -(2 ^ 63) ≤ n ∧ n < 2 ^ 63 := by
  unfold readInt64 at h
  split at h
  · split at h
    · next hn =>
      obtain rfl := Except.ok.inj h
      exact hn
    · exact absurd h (by simp)
  · exact absurd h (by simp)

theorem Document.readOption_yields {α : Type} {read : Document → Except Fault α} {Q : α → Prop}
    (hread : ∀ d a, read d = .ok a → Q a) {d : Document} {a : Option α} (h : readOption read d = .ok a) :
    ∀ x ∈ a, Q x := by
  unfold readOption at h
  split at h
  · obtain rfl : none = a := Except.ok.inj h
    simp
  · obtain ⟨x, hx, rfl⟩ := ok_of_map h
    rintro y ⟨⟩
    exact hread _ x hx

namespace Codec

variable {α : Type} {c : Codec α} {a : α}

/-- What is read from a text is read from the document that it stands for. -/
theorem read_of_ofSymbols {input : List Text.Symbol} (h : c.ofSymbols input = .ok a) : ∃ d, c.read d = .ok a := by
  unfold ofSymbols at h
  split at h
  · cases h
  · next d _ =>
    split at h
    · next b hread =>
      obtain rfl : b = a := Except.ok.inj h
      exact ⟨d, hread⟩
    · cases h

/-- The codec reads back what it makes of a value, and the numbers in it are whole. -/
structure Keeps (c : Codec α) (a : α) : Prop where
  whole : (c.encode a).Whole
  read : c.read (c.encode a).toDocument = .ok a

theorem Keeps.ofText_compact (h : c.Keeps a) : c.ofText (c.compact a) = .ok a := by
  have hdoc := Json.ofText?_compact h.whole
  unfold Document.ofText? at hdoc
  simp only [ofText, ofSymbols, compact, hdoc, h.read]

theorem Keeps.ofText_pretty (h : c.Keeps a) : c.ofText (c.pretty a) = .ok a := by
  have hdoc := Json.ofText?_pretty h.whole
  unfold Document.ofText? at hdoc
  simp only [ofText, ofSymbols, pretty, hdoc, h.read]

/-- A list is kept if its items are. -/
theorem Keeps.list {as : List α} (h : ∀ a ∈ as, c.Keeps a) : c.list.Keeps as where
  whole := by
    refine Json.wholeItems_iff.mpr fun x hx => ?_
    obtain ⟨a, ha, rfl⟩ := List.mem_map.mp hx
    exact (h a ha).whole
  read := Document.readItems_toDocuments fun a ha => (h a ha).read

end Codec

end Bookmarks
