import Bookmarks.Proofs.Json.Records

/-! # Reading back a value in memory

In memory the members of an object stand in the order of their keys and not in that of
their declaration.  A reader is *steady* if it reads the same from a value put into that
form, whatever the value is, as long as **no object in it has two members of one key**
(`Json.Unambiguous`).

What reads a leaf is steady because a leaf has no members; what reads a list or a record
is steady if what reads its parts is, because a record finds its fields by their names.
-/
namespace Bookmarks

namespace Json

variable {key : String} {members : List (String × Json)}

/-! ## Members in the order of their keys -/

theorem lookup_insertMember (key k : String) (v : Json) (members : List (String × Json)) :
    lookup key (insertMember k v members) = if k = key then some v else lookup key members := by
  induction members with
  | nil => rfl
  | cons m members ih =>
    obtain ⟨k', v'⟩ := m
    unfold insertMember
    by_cases hlt : k < k'
    · rw [if_pos hlt]
      rfl
    · rw [if_neg hlt]
      by_cases heq : k = k'
      · subst heq
        rw [if_pos rfl]
        by_cases hkey : k = key <;> simp [lookup, hkey]
      · rw [if_neg heq]
        by_cases hkey : k = key
        · have hne : k' ≠ key := fun h => heq (hkey.trans h.symm)
          rw [lookup, if_neg hne, ih, if_pos hkey, if_pos hkey]
        · simp only [lookup, ih, if_neg hkey]

/-- Of several members of one key the last one counts. -/
theorem lookup_sortMembers (key : String) (members : List (String × Json)) :
    lookup key (sortMembers members) = lookup key members.reverse := by
  have hfold : ∀ (members sorted : List (String × Json)),
      lookup key (members.foldl (fun sorted m => insertMember m.1 m.2 sorted) sorted) =
        (lookup key members.reverse).or (lookup key sorted) := by
    intro members
    induction members with
    | nil =>
      intro sorted
      rfl
    | cons m members ih =>
      intro sorted
      obtain ⟨k, v⟩ := m
      rw [List.foldl_cons, ih, lookup_insertMember, List.reverse_cons, lookup_append, Option.or_assoc]
      congr 1
      by_cases hkey : k = key <;> simp [lookup, hkey]
  rw [sortMembers, hfold]
  exact Option.or_none

theorem lookup_reverse (h : (members.map Prod.fst).Nodup) : lookup key members.reverse = lookup key members := by
  induction members with
  | nil => rfl
  | cons m members ih =>
    obtain ⟨k, v⟩ := m
    obtain ⟨hk, h⟩ := List.nodup_cons.mp h
    rw [List.reverse_cons, lookup_append, ih h]
    by_cases hkey : k = key
    · rw [lookup_eq_none_iff.mpr (hkey ▸ hk)]
      simp [lookup, hkey]
    · simp [lookup, hkey]

theorem fst_insertMember {k : String} {v : Json} {m : String × Json} (h : m ∈ insertMember k v members) :
    m.1 = k ∨ m ∈ members := by
  induction members with
  | nil => exact Or.inl (congrArg Prod.fst (List.mem_singleton.mp h))
  | cons m' members ih =>
    obtain ⟨k', v'⟩ := m'
    unfold insertMember at h
    split at h
    · exact (List.mem_cons.mp h).imp_left (congrArg Prod.fst)
    · split at h
      · exact (List.mem_cons.mp h).imp (congrArg Prod.fst) (List.mem_cons_of_mem _)
      · rcases List.mem_cons.mp h with rfl | h
        · exact Or.inr List.mem_cons_self
        · exact (ih h).imp_right (List.mem_cons_of_mem _)

theorem pairwise_insertMember {k : String} {v : Json} (h : members.Pairwise fun m m' => m.1 < m'.1) :
    (insertMember k v members).Pairwise fun m m' => m.1 < m'.1 := by
  induction members with
  | nil => exact List.pairwise_singleton _ _
  | cons m members ih =>
    obtain ⟨k', v'⟩ := m
    obtain ⟨hhead, htail⟩ := List.pairwise_cons.mp h
    unfold insertMember
    split
    · next hlt =>
      refine List.pairwise_cons.mpr ⟨fun m hm => ?_, h⟩
      rcases List.mem_cons.mp hm with rfl | hm
      · exact hlt
      · exact String.lt_trans hlt (hhead m hm)
    · split
      · next heq =>
        subst heq
        exact List.pairwise_cons.mpr ⟨hhead, htail⟩
      · next hnlt hne =>
        refine List.pairwise_cons.mpr ⟨fun m hm => ?_, ih htail⟩
        rcases fst_insertMember hm with hk | hm
        · have hlt : k' < k := by grind
          exact hk ▸ hlt
        · exact hhead m hm

/-- The keys ascend, so that no key stands twice. -/
theorem pairwise_sortMembers (members : List (String × Json)) :
    (sortMembers members).Pairwise fun m m' => m.1 < m'.1 := by
  have hfold : ∀ (members sorted : List (String × Json)), sorted.Pairwise (fun m m' => m.1 < m'.1) →
      (members.foldl (fun sorted m => insertMember m.1 m.2 sorted) sorted).Pairwise fun m m' => m.1 < m'.1 := by
    intro members
    induction members with
    | nil => exact fun _ h => h
    | cons m members ih => exact fun sorted h => ih _ (pairwise_insertMember h)
  exact hfold members [] List.Pairwise.nil

theorem nodup_keys_sortMembers (members : List (String × Json)) : ((sortMembers members).map Prod.fst).Nodup := by
  refine List.pairwise_map.mpr ((pairwise_sortMembers members).imp ?_)
  intro m m' hlt heq
  rw [heq] at hlt
  exact String.lt_irrefl _ hlt

theorem lookup_sortedMembers (key : String) (members : List (String × Json)) :
    lookup key (sortedMembers members) = (lookup key members).map sorted := by
  induction members with
  | nil => rfl
  | cons m members ih =>
    obtain ⟨k, v⟩ := m
    by_cases hkey : k = key <;> simp [sortedMembers, lookup, hkey, ih]

theorem keys_sortedMembers (members : List (String × Json)) :
    (sortedMembers members).map Prod.fst = members.map Prod.fst := by
  induction members with
  | nil => rfl
  | cons m members ih =>
    obtain ⟨k, v⟩ := m
    simp [sortedMembers, ih]

/-- Members that hold the values of others, put into their form in memory, under the same
keys; each key stands once. -/
structure Rearranged (members members' : List (String × Json)) : Prop where
  nodup : (members.map Prod.fst).Nodup
  nodup' : (members'.map Prod.fst).Nodup
  lookup_eq : ∀ name, lookup name members' = (lookup name members).map sorted

/-- The members of an object in memory are those that were written. -/
theorem rearranged_sortMembers (h : (members.map Prod.fst).Nodup) :
    Rearranged members (sortMembers (sortedMembers members)) where
  nodup := h
  nodup' := nodup_keys_sortMembers _
  lookup_eq name := by
    rw [lookup_sortMembers, lookup_reverse (by rwa [keys_sortedMembers]), lookup_sortedMembers]

/-! ## Values without ambiguity -/

mutual

/-- Whether every object in a value has each key once. -/
def Unambiguous : Json → Prop
  | .array items => UnambiguousItems items
  | .object members => (members.map Prod.fst).Nodup ∧ UnambiguousMembers members
  | .null => True
  | .bool _ => True
  | .number _ => True
  | .string _ => True

/-- `Unambiguous` for every item of an array. -/
def UnambiguousItems : List Json → Prop
  | [] => True
  | x :: items => x.Unambiguous ∧ UnambiguousItems items

/-- `Unambiguous` for the value of every member. -/
def UnambiguousMembers : List (String × Json) → Prop
  | [] => True
  | (_, v) :: members => v.Unambiguous ∧ UnambiguousMembers members

end

theorem unambiguousItems_iff {items : List Json} : UnambiguousItems items ↔ ∀ x ∈ items, x.Unambiguous := by
  induction items with
  | nil => simp [UnambiguousItems]
  | cons x items ih => simp [UnambiguousItems, ih]

theorem unambiguousMembers_iff : UnambiguousMembers members ↔ ∀ m ∈ members, m.2.Unambiguous := by
  induction members with
  | nil => simp [UnambiguousMembers]
  | cons m members ih => simp [UnambiguousMembers, ih]

theorem mem_of_lookup {v : Json} (h : lookup key members = some v) : (key, v) ∈ members := by
  induction members with
  | nil => cases h
  | cons m members ih =>
    obtain ⟨k, w⟩ := m
    simp only [lookup] at h
    split at h
    · next hk =>
      obtain rfl := Option.some.inj h
      exact hk ▸ List.mem_cons_self
    · exact List.mem_cons_of_mem _ (ih h)

theorem getElem?_sortedItems (items : List Json) (i : Nat) : (sortedItems items)[i]? = items[i]?.map sorted := by
  induction items generalizing i with
  | nil => rfl
  | cons x items ih => cases i <;> simp [sortedItems, ih]

theorem getElem?_toDocuments (items : List Json) (i : Nat) :
    (toDocuments items)[i]? = items[i]?.map toDocument := by
  induction items generalizing i with
  | nil => rfl
  | cons x items ih => cases i <;> simp [toDocuments, ih]

theorem length_toDocuments (items : List Json) : (toDocuments items).length = items.length := by
  induction items with
  | nil => rfl
  | cons x items ih => simp [toDocuments, ih]

theorem length_sortedItems (items : List Json) : (sortedItems items).length = items.length := by
  induction items with
  | nil => rfl
  | cons x items ih => simp [sortedItems, ih]

end Json

/-! ## Steady readers -/

variable {α β : Type}

namespace Document

open Json

/-- What is read from a value is read from its form in memory, too. -/
def Steady (read : Document → Except Fault α) : Prop :=
  ∀ (j : Json) (a : α), j.Unambiguous → read j.toDocument = .ok a → read j.sorted.toDocument = .ok a

/-- What reads neither arrays nor objects is steady. -/
theorem steady_of_leaf {read : Document → Except Fault α} (harray : ∀ items a, read (.array items) ≠ .ok a)
    (hobject : ∀ members a, read (.object members) ≠ .ok a) : Steady read := by
  intro j a _ h
  cases j with
  | array items => exact absurd h (harray _ a)
  | object members => exact absurd h (hobject _ a)
  | null => exact h
  | bool b => exact h
  | number n => exact h
  | string s => exact h

theorem steady_readString : Steady readString := steady_of_leaf nofun nofun

theorem steady_readBool : Steady readBool := steady_of_leaf nofun nofun

theorem steady_readInt64 : Steady readInt64 := steady_of_leaf nofun nofun

theorem steady_readUInt32 : Steady readUInt32 := steady_of_leaf nofun nofun

variable {read : Document → Except Fault α}

theorem Steady.readOption (h : Steady read) : Steady (readOption read) := by
  intro j a hj ha
  cases j with
  | null => exact ha
  | bool b => exact ha
  | number n => exact ha
  | string s => exact ha
  | array items =>
    obtain ⟨x, hx, rfl⟩ := ok_of_map ha
    have hsorted := h (.array items) x hj hx
    show (read (Json.sorted (.array items)).toDocument).map some = .ok (some x)
    rw [hsorted]
    rfl
  | object members =>
    obtain ⟨x, hx, rfl⟩ := ok_of_map ha
    have hsorted := h (.object members) x hj hx
    show (read (Json.sorted (.object members)).toDocument).map some = .ok (some x)
    rw [hsorted]
    rfl

theorem Steady.readItems (h : Steady read) {items : List Json} {as : List α} (hitems : UnambiguousItems items)
    (has : readItems read (toDocuments items) = .ok as) : readItems read (toDocuments (sortedItems items)) = .ok as := by
  induction items generalizing as with
  | nil => exact has
  | cons x items ih =>
    obtain ⟨hx, hitems⟩ := hitems
    simp only [toDocuments, sortedItems, Document.readItems] at has ⊢
    split at has
    · cases has
    · next a ha =>
      obtain ⟨as', has', rfl⟩ := ok_of_map has
      simp only [h x a hx ha, ih hitems has']
      rfl

theorem Steady.readList (h : Steady read) : Steady (readList read) := by
  intro j as hj has
  cases j with
  | array items => exact h.readItems hj has
  | object members => cases has
  | null => cases has
  | bool b => cases has
  | number n => cases has
  | string s => cases has

end Document

namespace Record

open Json Document

variable {r : Record α} {name : String} {readField : Document → Except Fault α} {absence : Absence α}
  {members members' : List (String × Json)}

/-- Where no key stands twice, a field is read from the member of its name, or is absent. -/
theorem fieldOfMembers_eq_ok_iff {a : α} (hkeys : (members.map Prod.fst).Nodup) :
    fieldOfMembers name readField absence (toDocumentMembers members) = .ok a ↔
      (lookup name members = none ∧ absence.inObject = some a) ∨
        ∃ v, lookup name members = some v ∧ readField v.toDocument = .ok a := by
  constructor
  · intro h
    unfold fieldOfMembers at h
    cases hlookup : lookup name members with
    | none =>
      rw [occurrencesFrom_of_lookup_none hlookup] at h
      dsimp only at h
      split at h
      · next b hb =>
        obtain rfl := Except.ok.inj h
        exact Or.inl ⟨rfl, hb⟩
      · cases h
    | some v =>
      obtain ⟨at_, hat⟩ := occurrencesFrom_of_lookup hkeys hlookup 0
      rw [hat] at h
      dsimp only at h
      split at h
      · cases h
      · next b hread _ =>
        obtain rfl := Except.ok.inj h
        exact Or.inr ⟨v, rfl, hread⟩
      · cases h
  · rintro (⟨hlookup, ha⟩ | ⟨v, hlookup, ha⟩)
    · exact fieldOfMembers_of_absent hlookup ha
    · exact fieldOfMembers_of_lookup hkeys hlookup ha

/-- Both forms of a record, read from values and from their forms in memory. -/
structure Steady (r : Record α) : Prop where
  ofMembers : ∀ members members' a, Rearranged members members' → UnambiguousMembers members →
    r.ofMembers (toDocumentMembers members) = .ok a → r.ofMembers (toDocumentMembers members') = .ok a
  ofItems : ∀ short index items a, UnambiguousItems items →
    r.ofItems short index (toDocuments items) = .ok a →
    r.ofItems short index (toDocuments (sortedItems items)) = .ok a

theorem steady_make (a : α) : (make a).Steady where
  ofMembers _ _ _ _ _ h := h
  ofItems _ _ _ _ _ h := h

theorem Steady.field {r : Record (α → β)} (hr : r.Steady) (hread : Document.Steady readField) :
    (r.field name readField absence).Steady where
  ofMembers members members' b hms hun hb := by
    obtain ⟨f, a, hf, ha, rfl⟩ := Stop.both_eq_ok hb
    refine ofMembers_field (hr.ofMembers members members' f hms hun hf) ?_
    rw [fieldOfMembers_eq_ok_iff hms.nodup', hms.lookup_eq]
    rcases (fieldOfMembers_eq_ok_iff hms.nodup).mp ha with ⟨hnone, habsent⟩ | ⟨v, hsome, hv⟩
    · exact Or.inl ⟨by rw [hnone]; rfl, habsent⟩
    · have hunv : v.Unambiguous := unambiguousMembers_iff.mp hun _ (mem_of_lookup hsome)
      exact Or.inr ⟨v.sorted, by rw [hsome]; rfl, hread v a hunv hv⟩
  ofItems short index items b hun hb := by
    obtain ⟨f, a, hf, ha, rfl⟩ := Stop.both_eq_ok hb
    have hfield : fieldOfItems readField absence short (index + r.size) (toDocuments (sortedItems items)) = .ok a := by
      unfold fieldOfItems at ha ⊢
      rw [getElem?_toDocuments] at ha ⊢
      rw [getElem?_sortedItems]
      cases hitem : items[index + r.size]? with
      | none =>
        rw [hitem] at ha
        exact ha
      | some v =>
        rw [hitem] at ha
        simp only [Option.map_some] at ha ⊢
        split at ha
        · next b hv =>
          obtain rfl := Except.ok.inj ha
          rw [hread v b (unambiguousItems_iff.mp hun v (List.mem_of_getElem? hitem)) hv]
        · cases ha
    simp only [Record.field, hr.ofItems short index items f hun hf, hfield, Stop.both]

/-- **A record is read in whatever order its members stand.** -/
theorem Steady.read (hr : r.Steady) (recordName : String) : Document.Steady (r.read recordName) := by
  intro j a hj ha
  cases j with
  | object members =>
    obtain ⟨hkeys, hun⟩ := hj
    refine read_object ?_ recordName
    simp only [toDocument, Record.read, firstUnreadableKey_toDocumentMembers] at ha
    split at ha
    · next b hb _ =>
      obtain rfl := Except.ok.inj ha
      exact hr.ofMembers members _ b (rearranged_sortMembers hkeys) hun hb
    · cases ha
    · cases ha
    · next h => cases h
  | array items =>
    simp only [toDocument, sorted, Record.read, length_toDocuments, length_sortedItems] at ha ⊢
    split at ha
    · next b hb =>
      rw [hr.ofItems _ 0 items b hj hb]
      exact ha
    · cases ha
  | null => cases ha
  | bool b => cases ha
  | number n => cases ha
  | string s => cases ha

end Record

/-! ## Texts that may be absent -/

theorem Document.readOption_ofString? (s : Option String) :
    readOption readString (Json.ofString? s).toDocument = .ok s := by
  cases s <;> rfl

theorem Json.whole_ofString? (s : Option String) : (Json.ofString? s).Whole := by
  cases s <;> trivial

theorem Json.unambiguous_ofString? (s : Option String) : (Json.ofString? s).Unambiguous := by
  cases s <;> trivial

/-! ## Written forms -/

namespace Codec

variable {c : Codec α} {a : α}

/-- A value is given back by each of its written forms. -/
structure ReadsBack (c : Codec α) (a : α) : Prop where
  compact : c.ofText (c.compact a) = .ok a
  pretty : c.ofText (c.pretty a) = .ok a
  value : c.ofValue (c.toValue a) = .ok a

/-- A value that is kept is read back from its form in memory by a steady codec. -/
theorem Keeps.readsBack (h : c.Keeps a) (hsteady : Document.Steady c.read) (hun : (c.encode a).Unambiguous) :
    c.ReadsBack a where
  compact := h.ofText_compact
  pretty := h.ofText_pretty
  value := hsteady (c.encode a) a hun h.read

theorem unambiguous_list {as : List α} (h : ∀ a ∈ as, (c.encode a).Unambiguous) :
    (c.list.encode as).Unambiguous := by
  refine Json.unambiguousItems_iff.mpr fun x hx => ?_
  obtain ⟨a, ha, rfl⟩ := List.mem_map.mp hx
  exact h a ha

end Codec

end Bookmarks
