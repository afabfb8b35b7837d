import Bookmarks.Proofs.Collection.Codec

/-! # What a written collection is read as

A collection is written with all its numbers, also with those that cannot be stored.  A
number that does not fit sixty-four bits with a sign is not taken for a rank or a time
when it is read, so then the text is refused as a whole.  Hence **a collection is read
back from its text as it was, or not at all** (`ofText_compact_eq`), whatever its numbers
are.
-/
namespace Bookmarks

open Json Record

namespace Json

theorem integralItems_iff {items : List Json} : IntegralItems items ↔ ∀ x ∈ items, x.Integral := by
  induction items with
  | nil => simp [IntegralItems]
  | cons x items ih => simp [IntegralItems, ih]

theorem integralMembers_iff {members : List (String × Json)} :
    IntegralMembers members ↔ ∀ m ∈ members, m.2.Integral := by
  induction members with
  | nil => simp [IntegralMembers]
  | cons m members ih => simp [IntegralMembers, ih]

end Json

/-! ## Numbers, fields and lists -/

/-- A whole number is read as one of sixty-four bits only if it is one. -/
theorem isRank_of_readInt64_written {n m : Int} (h : Document.readInt64 (Json.ofInt n).written = .ok m) : IsRank n := by
  simp only [Json.ofInt, written] at h
  unfold Document.readInt64 at h
  split at h
  · next k hk =>
    obtain rfl : k = n := Reader.readInteger_eq_integer (Document.number.inj hk)
    split at h
    · next hfits => exact ⟨hfits.1, Int.le_sub_one_of_lt hfits.2⟩
    · cases h
  · cases h

theorem isRank_of_readOption_written {n : Int} {o : Option Int}
    (h : Document.readOption Document.readInt64 (Json.ofInt n).written = .ok o) : IsRank n := by
  obtain ⟨m, hm, -⟩ := ok_of_map h
  exact isRank_of_readInt64_written hm

namespace Record

variable {α β : Type} {name : String} {members : List (String × Json)} {v : Json}
  {read : Document → Except Fault α} {absence : Absence α}

/-- A key that was written has an occurrence. -/
theorem occurrencesFrom_writtenMembers (h : lookup name members = some v) (position : Nat) :
    ∃ at_ further, occurrencesFrom name position (writtenMembers members) = (at_, v.written) :: further := by
  induction members generalizing position with
  | nil => cases h
  | cons m members ih =>
    obtain ⟨k, w⟩ := m
    simp only [lookup] at h
    simp only [writtenMembers, occurrencesFrom, Option.some.injEq]
    by_cases hk : k = name
    · rw [if_pos hk] at h ⊢
      obtain rfl : w = v := Option.some.inj h
      exact ⟨position, _, rfl⟩
    · rw [if_neg hk] at h ⊢
      exact ih h (position + 1)

/-- A field that was written and is read has had its value read. -/
theorem read_of_fieldOfMembers {a : α} (h : lookup name members = some v)
    (ha : fieldOfMembers name read absence (writtenMembers members) = .ok a) : ∃ b, read v.written = .ok b := by
  obtain ⟨at_, further, hocc⟩ := occurrencesFrom_writtenMembers h 0
  unfold fieldOfMembers at ha
  rw [hocc] at ha
  cases hread : read v.written with
  | ok b => exact ⟨b, rfl⟩
  | error fault =>
    simp only [hread] at ha
    cases ha

theorem ofMembers_of_read {r : Record α} (recordName : String) {ms : Members} {a : α}
    (h : r.read recordName (.object ms) = .ok a) : r.ofMembers ms = .ok a := by
  simp only [Record.read] at h
  split at h
  · next b hb _ =>
    obtain rfl : b = a := Except.ok.inj h
    exact hb
  all_goals cases h

end Record

/-- A list that is read has had every item read. -/
theorem Document.read_of_readItems {α : Type} {read : Document → Except Fault α} {encode : α → Json} {as bs : List α}
    (h : readItems read (writtenItems (as.map encode)) = .ok bs) : ∀ a ∈ as, ∃ b, read (encode a).written = .ok b := by
  induction as generalizing bs with
  | nil => nofun
  | cons a as ih =>
    simp only [List.map_cons, writtenItems, readItems] at h
    cases hread : read (encode a).written with
    | error fault =>
      rw [hread] at h
      cases h
    | ok b =>
      rw [hread] at h
      obtain ⟨bs', hbs, -⟩ := ok_of_map h
      exact List.forall_mem_cons.mpr ⟨⟨b, hread⟩, ih hbs⟩

/-! ## Links and collections -/

theorem Link.integral_encode (l : Link) : (codec.encode l).Integral := by
  have hmap : ∀ {α : Type} {f : α → Json} (o : Option α), (∀ a, (f a).Integral) → ∀ j ∈ o.map f, j.Integral := by
    intro α f o hf j hj
    obtain ⟨a, -, rfl⟩ := Option.map_eq_some_iff.mp hj
    exact hf a
  refine integralMembers_iff.mpr ?_
  simp only [List.forall_mem_append, List.forall_mem_cons, List.not_mem_nil, false_implies, implies_true, and_true]
  exact ⟨⟨⟨⟨⟨⟨⟨⟨trivial, trivial, trivial⟩, forall_optionalMember _ (hmap _ fun _ => trivial)⟩, trivial⟩,
    forall_optionalMember _ (hmap _ fun _ => trivial)⟩, trivial⟩, forall_optionalMember _ (hmap _ fun _ => trivial)⟩,
    forall_optionalMember _ (hmap _ fun _ => trivial)⟩, trivial⟩

/-- **A link that is read from what was written of another can be stored**: three of its
fields are numbers, and each of them was read. -/
theorem Link.storable_of_read_written {l m : Link} (h : codec.read (codec.encode l).written = .ok m) : l.Storable := by
  have hmembers : record.ofMembers (writtenMembers l.members) = .ok m := ofMembers_of_read "Link" h
  obtain ⟨f, createdAt, hf, hcreatedAt, -⟩ := Stop.both_eq_ok hmembers
  obtain ⟨g, pinnedOrder, hg, hpinnedOrder, -⟩ := Stop.both_eq_ok hf
  obtain ⟨-, order, -, horder, -⟩ := Stop.both_eq_ok hg
  refine ⟨fun n hn => ?_, fun n hn => ?_, ?_⟩
  · have hlookup : lookup "order" l.members = some (.ofInt n) := by
      simp [members, lookup_append, lookup_optionalMember, lookup, show l.order = some n from hn]
    obtain ⟨o, ho⟩ := read_of_fieldOfMembers hlookup horder
    exact isRank_of_readOption_written ho
  · have hlookup : lookup "pinnedOrder" l.members = some (.ofInt n) := by
      simp [members, lookup_append, lookup_optionalMember, lookup, show l.pinnedOrder = some n from hn]
    obtain ⟨o, ho⟩ := read_of_fieldOfMembers hlookup hpinnedOrder
    exact isRank_of_readOption_written ho
  · have hlookup : lookup "createdAt" l.members = some (.ofInt l.createdAt) := by
      simp [members, lookup_append, lookup_optionalMember, lookup]
    obtain ⟨n, hn⟩ := read_of_fieldOfMembers hlookup hcreatedAt
    exact isRank_of_readInt64_written hn

namespace Collection

theorem integral_encode (c : Collection) : (codec.encode c).Integral := by
  have hlinks : (Link.codec.list.encode c.links).Integral := by
    refine integralItems_iff.mpr fun j hj => ?_
    obtain ⟨l, -, rfl⟩ := List.mem_map.mp hj
    exact l.integral_encode
  have hcategories : (Category.codec.list.encode c.categories).Integral := by
    refine integralItems_iff.mpr fun j hj => ?_
    obtain ⟨d, -, rfl⟩ := List.mem_map.mp hj
    exact (Category.codec_keeps d).whole.integral
  exact ⟨hlinks, hcategories, trivial⟩

theorem storable_of_read_written {c c' : Collection} (h : codec.read (codec.encode c).written = .ok c') :
    c.Storable := by
  have hmembers : record.ofMembers (writtenMembers c.members) = .ok c' := ofMembers_of_read "DataSnapshot" h
  obtain ⟨f, categories, hf, -, -⟩ := Stop.both_eq_ok hmembers
  obtain ⟨-, links, -, hlinks, -⟩ := Stop.both_eq_ok hf
  obtain ⟨read, hread⟩ := read_of_fieldOfMembers (v := Link.codec.list.encode c.links) rfl hlinks
  intro l hl
  obtain ⟨m, hm⟩ := Document.read_of_readItems hread l hl
  exact Link.storable_of_read_written hm

/-- **A collection is read back from its text as it was, or not at all.** -/
theorem ofText_compact_eq {c c' : Collection} (h : codec.ofText (codec.compact c) = .ok c') : c' = c := by
  have hstorable : c.Storable := by
    have hdoc := ofText?_compact_of_integral c.integral_encode
    unfold Document.ofText? at hdoc
    simp only [Codec.ofText, Codec.ofSymbols, Codec.compact, hdoc] at h
    split at h
    · next read hread => exact storable_of_read_written hread
    · cases h
  rw [(codec_keeps hstorable).ofText_compact] at h
  exact (Except.ok.inj h).symm

end Collection

end Bookmarks
