import Bookmarks.Link.Basic
import Bookmarks.Proofs.Json.Values

/-! # Reading back a link

A link that can be stored is read back from what is written of it, and **what is
read as a link can be stored**: its ranks and its time are numbers of sixty-four bits
because nothing else is taken for one.
-/
namespace Bookmarks.Link

open Json Record

/-- What holds of the value of a field that may be left out holds of its member. -/
theorem forall_optionalMember {P : Json → Prop} {v : Option Json} (name : String) (h : ∀ j ∈ v, P j) :
    ∀ m ∈ optionalMember name v, P m.2 := by
  cases v with
  | none => nofun
  | some j => exact List.forall_mem_singleton.mpr (h j rfl)

theorem lookup_optionalMember (key name : String) (v : Option Json) :
    lookup key (optionalMember name v) = if name = key then v else none := by
  cases v <;> simp [optionalMember, lookup]

/-- The members that a link is written with. -/
def members (l : Link) : List (String × Json) :=
  [("id", .string l.id), ("url", .string l.url), ("title", .string l.title)] ++
  optionalMember "description" (l.description.map .string) ++
  [("categoryId", .string l.categoryId)] ++
  optionalMember "icon" (l.icon.map .string) ++
  [("pinned", .bool l.pinned)] ++
  optionalMember "order" (l.order.map .ofInt) ++
  optionalMember "pinnedOrder" (l.pinnedOrder.map .ofInt) ++
  [("createdAt", .ofInt l.createdAt)]

theorem keys_optionalMember (name : String) (v : Option Json) :
    ((optionalMember name v).map Prod.fst).Sublist [name] := by
  cases v with
  | none => exact List.nil_sublist _
  | some v => exact List.Sublist.refl _

/-- The keys are among the names of the fields, in their order. -/
theorem keys_members (l : Link) : (l.members.map Prod.fst).Sublist
    ["id", "url", "title", "description", "categoryId", "icon", "pinned", "order", "pinnedOrder", "createdAt"] := by
  simp only [members, List.map_append]
  have hsub := (((((((List.Sublist.refl ["id", "url", "title"]).append
    (keys_optionalMember "description" (l.description.map .string))).append
    (List.Sublist.refl ["categoryId"])).append (keys_optionalMember "icon" (l.icon.map .string))).append
    (List.Sublist.refl ["pinned"])).append (keys_optionalMember "order" (l.order.map .ofInt))).append
    (keys_optionalMember "pinnedOrder" (l.pinnedOrder.map .ofInt))).append (List.Sublist.refl ["createdAt"])
  exact hsub

theorem nodup_keys_members (l : Link) : (l.members.map Prod.fst).Nodup :=
  (keys_members l).nodup (by decide)

theorem readInt64_ofInt {n : Int} (hn : IsRank n) : Document.readInt64 (Json.ofInt n).toDocument = .ok n := by
  obtain ⟨hmin, hmax⟩ := hn
  have hfits : -(2 ^ 63 : Int) ≤ n ∧ n < 2 ^ 63 := ⟨hmin, Int.lt_of_le_sub_one hmax⟩
  exact if_pos hfits

theorem readOption_ofInt {n : Int} (hn : IsRank n) :
    Document.readOption Document.readInt64 (Json.ofInt n).toDocument = .ok (some n) := by
  have hread := readInt64_ofInt hn
  simp only [Json.ofInt, Json.toDocument] at hread
  simp only [Json.ofInt, Json.toDocument, Document.readOption, hread]
  rfl

/-- A link is read back from any members that hold what its own do. -/
theorem record_ofMembers {l : Link} (hl : l.Storable) {ms : List (String × Json)} (hkeys : (ms.map Prod.fst).Nodup)
    (hms : ∀ name, lookup name ms = lookup name l.members) :
    record.ofMembers (toDocumentMembers ms) = .ok l := by
  obtain ⟨horder, hpinnedOrder, hcreatedAt⟩ := hl
  have hfind : ∀ name v, lookup name l.members = v → lookup name ms = v :=
    fun name v hv => (hms name).trans hv
  show record.ofMembers _ = .ok (Link.mk l.id l.url l.title l.description l.categoryId l.icon l.pinned l.order
    l.pinnedOrder l.createdAt)
  refine ofMembers_field (ofMembers_field (ofMembers_field (ofMembers_field (ofMembers_field (ofMembers_field
    (ofMembers_field (ofMembers_field (ofMembers_field (ofMembers_field (ofMembers_make _ _) ?id) ?url) ?title)
    ?description) ?categoryId) ?icon) ?pinned) ?order) ?pinnedOrder) ?createdAt
  case id => exact fieldOfMembers_of_lookup hkeys (hfind _ (some (.string l.id)) rfl) rfl
  case url => exact fieldOfMembers_of_lookup hkeys (hfind _ (some (.string l.url)) rfl) rfl
  case title => exact fieldOfMembers_of_lookup hkeys (hfind _ (some (.string l.title)) rfl) rfl
  case description =>
    refine fieldOfMembers_of_optional hkeys (hfind _ (l.description.map .string) ?_) fun _ _ => rfl
    simp [members, lookup_append, lookup_optionalMember, lookup]
  case categoryId =>
    refine fieldOfMembers_of_lookup hkeys (hfind _ (some (.string l.categoryId)) ?_) rfl
    simp [members, lookup_append, lookup_optionalMember, lookup]
  case icon =>
    refine fieldOfMembers_of_optional hkeys (hfind _ (l.icon.map .string) ?_) fun _ _ => rfl
    simp [members, lookup_append, lookup_optionalMember, lookup]
  case pinned =>
    refine fieldOfMembers_of_lookup hkeys (hfind _ (some (.bool l.pinned)) ?_) rfl
    simp [members, lookup_append, lookup_optionalMember, lookup]
  case order =>
    refine fieldOfMembers_of_optional hkeys (hfind _ (l.order.map .ofInt) ?_)
      fun n hn => readOption_ofInt (horder n hn)
    simp [members, lookup_append, lookup_optionalMember, lookup]
  case pinnedOrder =>
    refine fieldOfMembers_of_optional hkeys (hfind _ (l.pinnedOrder.map .ofInt) ?_)
      fun n hn => readOption_ofInt (hpinnedOrder n hn)
    simp [members, lookup_append, lookup_optionalMember, lookup]
  case createdAt =>
    refine fieldOfMembers_of_lookup hkeys (hfind _ (some (.ofInt l.createdAt)) ?_) (readInt64_ofInt hcreatedAt)
    simp [members, lookup_append, lookup_optionalMember, lookup]

theorem isWhole_of_isRank {n : Int} (hn : IsRank n) : Reader.IsWhole n := by
  obtain ⟨hmin, hmax⟩ := hn
  unfold minRank at hmin
  unfold maxRank at hmax
  exact ⟨hmin, by omega⟩

/-- The members of a link hold texts, truth values and ranks. -/
theorem whole_members {l : Link} (hl : l.Storable) : ∀ m ∈ l.members, m.2.Whole := by
  obtain ⟨horder, hpinnedOrder, hcreatedAt⟩ := hl
  have htext : ∀ (s : Option String), ∀ j ∈ s.map Json.string, j.Whole := by
    intro s j hj
    obtain ⟨t, -, rfl⟩ := Option.map_eq_some_iff.mp hj
    exact trivial
  have hrank : ∀ (r : Option Int), (∀ n ∈ r, IsRank n) → ∀ j ∈ r.map Json.ofInt, j.Whole := by
    intro r hr j hj
    obtain ⟨n, hn, rfl⟩ := Option.map_eq_some_iff.mp hj
    exact isWhole_of_isRank (hr n hn)
  simp only [members, List.forall_mem_append, List.forall_mem_cons, List.not_mem_nil, false_implies, implies_true,
    and_true]
  exact ⟨⟨⟨⟨⟨⟨⟨⟨trivial, trivial, trivial⟩, forall_optionalMember _ (htext _)⟩, trivial⟩, forall_optionalMember _ (htext _)⟩, trivial⟩,
    forall_optionalMember _ (hrank _ horder)⟩, forall_optionalMember _ (hrank _ hpinnedOrder)⟩, isWhole_of_isRank hcreatedAt⟩

/-- **A link that can be stored is read back.** -/
theorem codec_keeps {l : Link} (hl : l.Storable) : codec.Keeps l where
  whole := wholeMembers_iff.mpr (whole_members hl)
  read := read_object (record_ofMembers hl (nodup_keys_members l) fun _ => rfl) "Link"

theorem steady_read : Document.Steady codec.read := by
  open Document in
  have hrecord : record.Steady :=
    ((((((((((steady_make Link.mk).field steady_readString).field steady_readString).field steady_readString).field
      steady_readString.readOption).field steady_readString).field steady_readString.readOption).field
      steady_readBool).field steady_readInt64.readOption).field steady_readInt64.readOption).field steady_readInt64
  exact hrecord.read "Link"

/-- The members of a link hold leaves, and each of its keys stands once. -/
theorem unambiguous_encode (l : Link) : (codec.encode l).Unambiguous := by
  have hmap : ∀ {α : Type} {f : α → Json} (o : Option α), (∀ a, (f a).Unambiguous) → ∀ j ∈ o.map f, j.Unambiguous := by
    intro α f o hf j hj
    obtain ⟨a, -, rfl⟩ := Option.map_eq_some_iff.mp hj
    exact hf a
  refine ⟨nodup_keys_members l, unambiguousMembers_iff.mpr ?_⟩
  simp only [List.forall_mem_append, List.forall_mem_cons, List.not_mem_nil, false_implies, implies_true, and_true]
  exact ⟨⟨⟨⟨⟨⟨⟨⟨trivial, trivial, trivial⟩, forall_optionalMember _ (hmap _ fun _ => trivial)⟩, trivial⟩,
    forall_optionalMember _ (hmap _ fun _ => trivial)⟩, trivial⟩, forall_optionalMember _ (hmap _ fun _ => trivial)⟩,
    forall_optionalMember _ (hmap _ fun _ => trivial)⟩, trivial⟩

theorem codec_readsBack {l : Link} (hl : l.Storable) : codec.ReadsBack l :=
  (codec_keeps hl).readsBack steady_read (unambiguous_encode l)

/-- **A link that was read can be stored.** -/
theorem storable_of_read {d : Document} {l : Link} (h : codec.read d = .ok l) : l.Storable := by
  have hint : ∀ d n, Document.readInt64 d = .ok n → IsRank n := fun d n hn => by
    obtain ⟨hmin, hmax⟩ := Document.readInt64_yields hn
    exact ⟨hmin, Int.le_sub_one_of_lt hmax⟩
  have hnone : ∀ o ∈ some (none : Option Int), ∀ n ∈ o, IsRank n := by simp
  have hzero : ∀ n ∈ some (0 : Int), IsRank n := by decide
  have hrecord : record.Yields Storable := by
    refine Yields.field (Yields.field (Yields.field ?texts
      (fun d o => Document.readOption_yields hint) hnone hnone)
      (fun d o => Document.readOption_yields hint) hnone hnone) hint hzero hzero
    case texts =>
      refine Yields.field_any (Yields.field_any (Yields.field_any (Yields.field_any (Yields.field_any
        (Yields.field_any (Yields.field_any (yields_make ?_)))))))
      exact fun _ _ _ _ _ _ _ order horder pinnedOrder hpinnedOrder createdAt hcreatedAt =>
        ⟨horder, hpinnedOrder, hcreatedAt⟩
  exact hrecord.of_read h

theorem codec_list_keeps {links : List Link} (h : ∀ l ∈ links, l.Storable) : codec.list.Keeps links :=
  Codec.Keeps.list fun l hl => codec_keeps (h l hl)

theorem storable_of_readList {d : Document} {links : List Link} (h : codec.list.read d = .ok links) :
    ∀ l ∈ links, l.Storable :=
  Document.readList_yields (fun _ _ => storable_of_read) h

end Bookmarks.Link
