import Bookmarks.Proofs.Collection.Storable
import Bookmarks.Proofs.Link.Edit
import Bookmarks.Proofs.Shelf.Again

/-! # Commands given twice

A command that has led to a collection is given again there.  Ids and times are drawn
anew, so the collection that it leads to now is compared with the one it led to before up
to those (`SameUpToGenerated`).

**It is the same one exactly if the command is `Repeatable`**: a category is given the
form it has, a link is as an update asks for, or no link is brought in.  Every other
command does something again, or finds nothing left to do it to.
-/
namespace Bookmarks

/-! ## The same but for what was generated -/

/-- Two links are the same, or they came under ids that were not there before and differ
in nothing but the id and the time. -/
def Link.SameBut (taken : List String) (l m : Link) : Prop :=
  l = m ∨ l.id ∉ taken ∧ m.id ∉ taken ∧ { l with id := m.id, createdAt := m.createdAt } = m

/-- Two categories are the same, or they came under ids that were not there before and
differ in nothing but the id. -/
def Category.SameBut (taken : List String) (c d : Category) : Prop :=
  c = d ∨ c.id ∉ taken ∧ d.id ∉ taken ∧ { c with id := d.id } = d

theorem map_eq_of_forall₂ {α β : Type} {R : α → α → Prop} {f : α → β} {xs ys : List α} (h : List.Forall₂ R xs ys)
    (hf : ∀ x ∈ xs, ∀ y, R x y → f x = f y) : xs.map f = ys.map f := by
  induction h with
  | nil => rfl
  | cons hxy _ ih =>
    obtain ⟨hx, hxs⟩ := List.forall_mem_cons.mp hf
    rw [List.map_cons, List.map_cons, hx _ hxy, ih hxs]

namespace Collection

variable {original next c d : Collection} {supply : Supply} {command : Command} {reply : Reply}

/-- Two collections that an original one has led to are the same, up to the ids and the
times that were generated on the way. -/
structure SameUpToGenerated (original c d : Collection) : Prop where
  links : List.Forall₂ (Link.SameBut (original.links.map (·.id))) c.links d.links
  categories : List.Forall₂ (Category.SameBut (original.categories.map (·.id))) c.categories d.categories

theorem sameUpToGenerated_self (original c : Collection) : SameUpToGenerated original c c :=
  ⟨List.forall₂_same.mpr fun _ _ => Or.inl rfl, List.forall₂_same.mpr fun _ _ => Or.inl rfl⟩

theorem SameUpToGenerated.pinnedCount_eq (h : SameUpToGenerated original c d) :
    Shelf.pinnedCount c.links = Shelf.pinnedCount d.links := by
  have hpinned : c.links.map (·.pinned) = d.links.map (·.pinned) := by
    refine map_eq_of_forall₂ h.links fun l _ m hlm => ?_
    rcases hlm with rfl | ⟨-, -, heq⟩
    · rfl
    · rw [← heq]
  rw [Shelf.pinnedCount_eq_countP, Shelf.pinnedCount_eq_countP, hpinned]

/-- Where no id was generated the links are the same. -/
theorem SameUpToGenerated.links_eq (h : SameUpToGenerated original c d)
    (hids : (c.links.map (·.id)).Perm (original.links.map (·.id))) : c.links = d.links := by
  have hsame : c.links.map id = d.links.map id := by
    refine map_eq_of_forall₂ h.links fun l hl m hlm => ?_
    rcases hlm with rfl | ⟨hnew, -, -⟩
    · rfl
    · exact absurd (hids.mem_iff.mp (List.mem_map_of_mem hl)) hnew
  rwa [List.map_id, List.map_id] at hsame

/-! ## What happens the second time -/

/-- What a command leads to leaves the command nothing to do. -/
def Repeatable (next : Collection) : Command → Prop
  | .updateLink u => ∃ l, next.links.find? (·.id == u.id) = some l ∧ Shelf.AsAsked u (edit next.categories u) l
  | .updateCategory _ => True
  | .importData links _ => links.filterMap sanitize = []
  | _ => False

theorem edit_settles (categories : List Category) (u : Update) : Shelf.Settles (edit categories u) where
  id l m he := by
    obtain ⟨url, title, rfl⟩ := edit_eq_ok he
    rfl
  place := edit_keepsPlace categories u
  again _ _ := edit_of_edited
  rankFree bound := by
    refine ⟨fun l k _ he => ?_, fun l pinned r _ he => ?_⟩
    · obtain ⟨url, title, hurl, htitle, heq⟩ := edit_eq_ok_iff.mp he
      exact edit_eq_ok_iff.mpr ⟨url, title, hurl, htitle, congrArg (fun l => { l with order := some (k : Int) }) heq⟩
    · obtain ⟨url, title, hurl, htitle, heq⟩ := edit_eq_ok_iff.mp he
      exact edit_eq_ok_iff.mpr
        ⟨url, title, hurl, htitle, congrArg (fun l => { l with pinned := pinned, pinnedOrder := r }) heq⟩

/-! ### Categories taken in again -/

/-- A category that is taken in already, or that another one stands for. -/
def Admission.Covers (categories : List Category) (c : Category) : Prop :=
  Category.isKnown categories c.id = true ∨ ∃ same ∈ categories, same.name = c.name

theorem Admission.Covers.append {categories : List Category} {c : Category} (h : Covers categories c)
    (more : List Category) : Covers (categories ++ more) c := by
  rcases h with hknown | ⟨same, hsame, hname⟩
  · exact Or.inl (Category.isKnown_append_left hknown more)
  · exact Or.inr ⟨same, List.mem_append_left _ hsame, hname⟩

/-- Taking a category in covers it, and adds to the categories unless it is covered. -/
theorem Admission.categories_takeIn (a : Admission) (c : Category) :
    (∃ more, (a.takeIn c).categories = a.categories ++ more) ∧ Covers (a.takeIn c).categories c ∧
      (Covers a.categories c → (a.takeIn c).categories = a.categories) := by
  unfold Admission.takeIn
  by_cases hknown : Category.isKnown a.categories c.id
  · rw [if_pos hknown]
    exact ⟨⟨[], (List.append_nil _).symm⟩, Or.inl hknown, fun _ => rfl⟩
  · rw [if_neg hknown]
    cases hsame : a.categories.find? (·.name == c.name) with
    | some same =>
      have hname : same.name = c.name := by simpa using List.find?_some hsame
      exact ⟨⟨[], (List.append_nil _).symm⟩, Or.inr ⟨same, List.mem_of_find?_eq_some hsame, hname⟩, fun _ => rfl⟩
    | none =>
      refine ⟨⟨[c], rfl⟩, Or.inr ⟨c, List.mem_append_right _ List.mem_cons_self, rfl⟩, fun hcovers => ?_⟩
      rcases hcovers with h | ⟨same, hmem, hname⟩
      · exact absurd h hknown
      · exact absurd (by simpa using hname) (List.find?_eq_none.mp hsame same hmem)

theorem Admission.foldl_takeIn_covers (incoming : List Category) (a : Admission) :
    (∃ more, (incoming.foldl takeIn a).categories = a.categories ++ more) ∧
      ∀ c ∈ incoming, Covers (incoming.foldl takeIn a).categories c := by
  induction incoming generalizing a with
  | nil => exact ⟨⟨[], (List.append_nil _).symm⟩, nofun⟩
  | cons c incoming ih =>
    obtain ⟨⟨more, hmore⟩, hcovers, -⟩ := a.categories_takeIn c
    obtain ⟨⟨more', hmore'⟩, hall⟩ := ih (a.takeIn c)
    rw [List.foldl_cons]
    refine ⟨⟨more ++ more', by rw [hmore', hmore, List.append_assoc]⟩, List.forall_mem_cons.mpr ⟨?_, hall⟩⟩
    rw [hmore']
    exact hcovers.append more'

theorem Admission.foldl_takeIn_of_covers {incoming : List Category} (a : Admission)
    (h : ∀ c ∈ incoming, Covers a.categories c) : (incoming.foldl takeIn a).categories = a.categories := by
  induction incoming generalizing a with
  | nil => rfl
  | cons c incoming ih =>
    obtain ⟨hc, hincoming⟩ := List.forall_mem_cons.mp h
    have hsame := (a.categories_takeIn c).2.2 hc
    rw [List.foldl_cons, ih _ (hsame ▸ hincoming), hsame]

/-- **Categories that were taken in are not taken in again.** -/
theorem Admission.categories_takeInAll_again (existing incoming : List Category) :
    (takeInAll (takeInAll existing incoming).categories incoming).categories =
      (takeInAll existing incoming).categories := by
  have hheaded := takeInAll_headed existing incoming
  have hcovers := (foldl_takeIn_covers incoming ⟨Category.withCommonFirst existing, [], 0⟩).2
  unfold takeInAll at hheaded ⊢
  rw [hheaded.withCommonFirst_eq]
  exact foldl_takeIn_of_covers _ hcovers

/-- Taking categories in leaves the categories of all links there. -/
theorem InOrder.knownIn_takeInAll (h : c.InOrder) (categories : List Category) :
    Shelf.KnownIn (Admission.takeInAll c.categories categories).categories c.links := by
  intro l hl
  obtain ⟨⟨more, hmore⟩, -⟩ :=
    Admission.foldl_takeIn_covers categories ⟨Category.withCommonFirst c.categories, [], 0⟩
  rw [h.headed.withCommonFirst_eq] at hmore
  unfold Admission.takeInAll
  rw [h.headed.withCommonFirst_eq, hmore]
  exact Category.isKnown_append_left (h.known l hl) more

/-- A merge of no links changes the categories at most. -/
theorem InOrder.merge_nil (h : c.InOrder) (fresh : Nat → String) (categories : List Category) :
    (c.merge fresh [] categories).collection = ⟨c.links, (Admission.takeInAll c.categories categories).categories⟩ := by
  have hincoming : c.incoming fresh [] categories = [] := List.eq_nil_of_length_eq_zero (length_incoming _ _ _ _)
  have hlinks : (c.merge fresh [] categories).collection.links = c.links := by
    show Shelf.sort (Shelf.compactPins (Shelf.adoptOrphans (Admission.takeInAll c.categories categories).categories
      (Shelf.compactPins c.links ++ c.incoming fresh [] categories))) = c.links
    rw [hincoming, List.append_nil, h.arranged.counted.compactPins_eq,
      (h.knownIn_takeInAll categories).adoptOrphans_eq, h.arranged.sort_compactPins_eq]
  exact congrArg (Collection.mk · (Admission.takeInAll c.categories categories).categories) hlinks

theorem InOrder.merge_nil_again (h : c.InOrder) (fresh fresh' : Nat → String) (categories : List Category) :
    ((c.merge fresh [] categories).collection.merge fresh' [] categories).collection =
      (c.merge fresh [] categories).collection := by
  have hnext : (c.merge fresh [] categories).collection.InOrder := merge_inOrder _ _ _ _
  rw [hnext.merge_nil, h.merge_nil]
  dsimp only
  rw [Admission.categories_takeInAll_again]

/-! ### The second time -/

/-- A command without a next collection is a new order that is the one there is. -/
theorem perform_none (hp : c.perform supply command = .ok ⟨none, reply⟩) :
    (∃ activeId overId categoryId, command = .reorderLinks activeId overId categoryId ∧
      Shelf.reorder c.links activeId overId (Scope.ofCategory categoryId) = c.links) ∨
    ∃ activeId overId, command = .reorderPinned activeId overId ∧
      Shelf.reorder c.links activeId overId .pinned = c.links := by
  have hlink : ∀ (r : Reply) (links : Except LinkError Shelf), c.linkEffect r links ≠ .ok ⟨none, reply⟩ := by
    intro r links h
    cases links <;> cases h
  cases command with
  | addLink draft => exact absurd hp (hlink _ _)
  | updateLink u => exact absurd hp (hlink _ _)
  | deleteLink id => exact absurd hp (hlink _ _)
  | togglePin id => exact absurd hp (hlink _ _)
  | reorderLinks activeId overId categoryId =>
    exact Or.inl ⟨activeId, overId, categoryId, rfl, orderEffect_none (Except.ok.inj hp)⟩
  | reorderPinned activeId overId => exact Or.inr ⟨activeId, overId, rfl, orderEffect_none (Except.ok.inj hp)⟩
  | addCategory name icon =>
    simp only [Collection.perform] at hp
    split at hp <;> cases hp
  | updateCategory category =>
    simp only [Collection.perform] at hp
    split at hp
    · cases hp
    · split at hp <;> cases hp
  | deleteCategory id =>
    simp only [Collection.perform] at hp
    split at hp <;> cases hp
  | importData links categories => cases hp

/-- **A repeatable command leads to where it has led before.** -/
theorem InOrder.perform_again (h : original.InOrder)
    (hp : original.perform supply command = .ok ⟨some next, reply⟩) (hr : next.Repeatable command)
    (supply' : Supply) : ∃ reply', next.perform supply' command = .ok ⟨some next, reply'⟩ := by
  cases command with
  | updateLink u =>
    obtain ⟨l, hl, hasked⟩ := hr
    have hu : Shelf.update next.links u (edit next.categories u) = .ok next.links :=
      ((edit_settles next.categories u).update_eq_self_iff hl).mpr hasked
    refine ⟨.done, ?_⟩
    simp only [Collection.perform, hu]
    rfl
  | updateCategory category =>
    cases perform_change hp with
    | @updateCategory _ categories hm hname =>
      obtain ⟨old, hold⟩ := Sequence.find?_of_modifyFirst? hm
      have hself : Sequence.modifyFirst? (·.id == category.id) (fun _ => category) categories = some categories :=
        Sequence.modifyFirst?_eq_self (Sequence.find?_modifyFirst? hm hold (beq_self_eq_true category.id)) rfl
      refine ⟨.done, ?_⟩
      simp only [Collection.perform, hself, hname, Bool.false_eq_true, if_false]
  | importData links categories =>
    cases perform_change hp with
    | importData _ _ =>
      have hkept : links.filterMap sanitize = [] := hr
      have hagain := h.merge_nil_again supply.id supply'.id categories
      rw [hkept]
      refine ⟨((original.merge supply.id [] categories).collection.importEffect supply'.id links categories).reply, ?_⟩
      simp only [Collection.perform, importEffect, hkept, hagain]
  | addLink _ => exact hr.elim
  | deleteLink _ => exact hr.elim
  | togglePin _ => exact hr.elim
  | reorderLinks _ _ _ => exact hr.elim
  | reorderPinned _ _ => exact hr.elim
  | addCategory _ _ => exact hr.elim
  | deleteCategory _ => exact hr.elim

/-- **A command that is not repeatable fails or leads elsewhere**: there is another link, a
link or a pin less, another order, or another category; or the category to delete is
gone. -/
theorem repeatable_of_same (hp : original.perform supply command = .ok ⟨some next, reply⟩) {supply' : Supply}
    {effect : Effect} (hp' : next.perform supply' command = .ok effect)
    (hsame : SameUpToGenerated original next (effect.next.getD next)) : next.Repeatable command := by
  obtain ⟨_ | again, reply'⟩ := effect
  · -- the order was another one the first time, so it is another one again
    rcases perform_none hp' with ⟨activeId, overId, categoryId, rfl, heq⟩ | ⟨activeId, overId, rfl, heq⟩
    · obtain ⟨rfl, hne⟩ := orderEffect_next (Except.ok.inj hp)
      exact absurd heq (Shelf.reorder_reorder_ne hne)
    · obtain ⟨rfl, hne⟩ := orderEffect_next (Except.ok.inj hp)
      exact absurd heq (Shelf.reorder_reorder_ne hne)
  · have hsame : SameUpToGenerated original next again := hsame
    have hlength := hsame.links.length_eq
    cases perform_change hp' with
    | addLink _ =>
      rw [withLinks, Shelf.length_insert] at hlength
      omega
    | @updateLink u again hu' =>
      cases perform_change hp with
      | @updateLink _ links hu =>
        have hids := Shelf.ids_update (edit_settles original.categories _).id hu
        obtain rfl : links = again := hsame.links_eq hids
        obtain ⟨l, -, -, hl, -⟩ := Shelf.update_eq_ok hu'
        exact ⟨l, hl, ((edit_settles _ _).update_eq_self_iff hl).mp hu'⟩
    | deleteLink hd =>
      have hfewer := Shelf.length_remove? hd
      rw [hlength] at hfewer
      exact absurd hfewer (Nat.succ_ne_self _)
    | togglePin ht => exact absurd hsame.pinnedCount_eq.symm (Shelf.pinnedCount_togglePin?_ne ht)
    | reorderLinks activeId overId categoryId =>
      obtain ⟨rfl, hne⟩ := orderEffect_next (Except.ok.inj hp)
      have heq := hsame.links_eq (Shelf.ids_reorder _ _ _ _)
      exact absurd heq.symm (Shelf.reorder_reorder_ne hne)
    | reorderPinned activeId overId =>
      obtain ⟨rfl, hne⟩ := orderEffect_next (Except.ok.inj hp)
      have heq := hsame.links_eq (Shelf.ids_reorder _ _ _ _)
      exact absurd heq.symm (Shelf.reorder_reorder_ne hne)
    | addCategory _ _ =>
      have hmore := hsame.categories.length_eq
      rw [List.length_append] at hmore
      exact absurd hmore (Nat.ne_of_lt (Nat.lt_succ_self _))
    | updateCategory _ _ => trivial
    | @deleteCategory id hcommon hknown =>
      cases perform_change hp with
      | deleteCategory _ _ =>
        rcases Category.isKnown_withCommonFirst.mp hknown with heq | hleft
        · exact absurd heq hcommon
        · obtain ⟨d, hd, hid⟩ := Category.isKnown_iff.mp hleft
          have hne : d.id ≠ id := by simpa using (List.mem_filter.mp hd).2
          exact absurd hid hne
    | importData links categories =>
      rw [length_links_merge] at hlength
      exact List.eq_nil_of_length_eq_zero (by omega)

/-- Where the ids of the links are distinct, an update can always be given again. -/
theorem repeatable_updateLink {u : Update} (hids : (original.links.map (·.id)).Nodup)
    (hp : original.perform supply (.updateLink u) = .ok ⟨some next, reply⟩) : next.Repeatable (.updateLink u) := by
  cases perform_change hp with
  | @updateLink _ links hu =>
    have hsettles := edit_settles original.categories u
    obtain ⟨l, -, -, hl, -⟩ := Shelf.update_eq_ok hu
    obtain ⟨m, hm⟩ : ∃ m, links.find? (·.id == u.id) = some m := by
      have hmem : u.id ∈ links.map (·.id) := by
        rw [(Shelf.ids_update hsettles.id hu).mem_iff, ← Shelf.id_of_find? hl]
        exact List.mem_map_of_mem (List.mem_of_find?_eq_some hl)
      obtain ⟨m, hm, hid⟩ := List.mem_map.mp hmem
      refine Option.isSome_iff_exists.mp (List.find?_isSome.mpr ⟨m, hm, ?_⟩)
      exact beq_iff_eq.mpr hid
    exact ⟨m, hm, hsettles.asAsked_of_update hids hu hm⟩

end Collection

end Bookmarks
