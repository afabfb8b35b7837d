import Bookmarks.Collection.Basic
import Bookmarks.Proofs.Link.Codec

/-! # Reading back a collection

A collection can be stored if its links can.  Such a collection is read back from
each of its texts, and only such collections are read.
-/
namespace Bookmarks

open Json Record

namespace Category

/-- The members that a category is written with. -/
def members (c : Category) : List (String × Json) :=
  [("id", .string c.id), ("name", .string c.name), ("icon", .string c.icon)]

theorem record_ofMembers (c : Category) : record.ofMembers (toDocumentMembers c.members) = .ok c := by
  have hkeys : (c.members.map Prod.fst).Nodup := by simp [members]
  show record.ofMembers _ = .ok (Category.mk c.id c.name c.icon)
  exact ofMembers_field (ofMembers_field (ofMembers_field (ofMembers_make _ _)
    (fieldOfMembers_of_lookup hkeys rfl rfl)) (fieldOfMembers_of_lookup hkeys rfl rfl))
    (fieldOfMembers_of_lookup hkeys rfl rfl)

/-- **A category is read back**: it holds nothing but texts. -/
theorem codec_keeps (c : Category) : codec.Keeps c where
  whole := by simp [codec, toJson, Whole, WholeMembers]
  read := read_object (record_ofMembers c) "Category"

theorem steady_read : Document.Steady codec.read := by
  have hrecord : record.Steady :=
    (((steady_make Category.mk).field Document.steady_readString).field Document.steady_readString).field
      Document.steady_readString
  exact hrecord.read "Category"

theorem unambiguous_encode (c : Category) : (codec.encode c).Unambiguous := by
  simp [codec, toJson, Unambiguous, UnambiguousMembers]

theorem codec_readsBack (c : Category) : codec.ReadsBack c :=
  (codec_keeps c).readsBack steady_read (unambiguous_encode c)

end Category

namespace Collection

/-- A collection whose links can be stored. -/
def Storable (c : Collection) : Prop :=
  ∀ l ∈ c.links, l.Storable

/-- The members that a collection is written with. -/
def members (c : Collection) : List (String × Json) :=
  [("links", Link.codec.list.encode c.links), ("categories", Category.codec.list.encode c.categories)]

/-- **A collection that can be stored is read back.** -/
theorem codec_keeps {c : Collection} (hc : c.Storable) : codec.Keeps c := by
  have hlinks : Link.codec.list.Keeps c.links := Link.codec_list_keeps hc
  have hcategories : Category.codec.list.Keeps c.categories := Codec.Keeps.list fun d _ => Category.codec_keeps d
  have hkeys : (c.members.map Prod.fst).Nodup := by simp [members]
  have hrecord : record.ofMembers (toDocumentMembers c.members) = .ok (Collection.mk c.links c.categories) :=
    ofMembers_field (ofMembers_field (ofMembers_make _ _)
      (fieldOfMembers_of_lookup hkeys rfl hlinks.read)) (fieldOfMembers_of_lookup hkeys rfl hcategories.read)
  refine ⟨wholeMembers_iff.mpr ?_, read_object hrecord "DataSnapshot"⟩
  simp only [List.forall_mem_cons, List.not_mem_nil, false_implies, implies_true, and_true]
  exact ⟨hlinks.whole, hcategories.whole⟩

theorem codec_readsBack {c : Collection} (hc : c.Storable) : codec.ReadsBack c := by
  have hrecord : record.Steady :=
    ((steady_make Collection.mk).field Link.steady_read.readList).field Category.steady_read.readList
  refine (codec_keeps hc).readsBack (hrecord.read "DataSnapshot") ?_
  refine ⟨by simp, unambiguousMembers_iff.mpr ?_⟩
  simp only [List.forall_mem_cons, List.not_mem_nil, false_implies, implies_true, and_true]
  exact ⟨Codec.unambiguous_list fun l _ => Link.unambiguous_encode l,
    Codec.unambiguous_list fun d _ => Category.unambiguous_encode d⟩

/-- **A collection that was read can be stored.** -/
theorem storable_of_read {d : Document} {c : Collection} (h : codec.read d = .ok c) : c.Storable := by
  have hnone : ∀ ls ∈ some ([] : List Link), ∀ l ∈ ls, l.Storable := by simp
  have hrecord : record.Yields Storable := by
    refine Yields.field_any (Yields.field (yields_make ?_) (fun _ _ => Link.storable_of_readList) hnone hnone)
    exact fun links h _ => h
  exact hrecord.of_read h

theorem storable_of_ofText {text : String} {c : Collection} (h : codec.ofText text = .ok c) : c.Storable := by
  obtain ⟨d, hread⟩ := Codec.read_of_ofSymbols h
  exact storable_of_read hread

end Collection

end Bookmarks
