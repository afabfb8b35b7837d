import Bookmarks.Collection.Command
import Bookmarks.Proofs.Shelf.Operations

/-! # What commands change

`Change` lists, command by command, the collections that a command can lead to and
under which conditions.  **A command that leads anywhere leads there**
(`perform_change`), so what holds of all changes holds of all commands, and nothing else
has to look into `Collection.perform`.
-/
namespace Bookmarks

/-! ## Edits and drafts -/

/-- The title after an update that may replace it. -/
def Update.acceptedTitle (u : Update) (l : Link) : Except InvalidLink String :=
  match u.title with
  | some title => acceptTitle title
  | none => .ok l.title

/-- An edit is two checks, and what it makes of a link that passes them. -/
theorem Collection.edit_eq_ok_iff {categories : List Category} {u : Update} {l m : Link} :
    Collection.edit categories u l = .ok m ↔ ∃ url title,
      acceptUrl (u.url.getD l.url) = .ok url ∧ u.acceptedTitle l = .ok title ∧ m = { l with
        url := url, title := title
        description := Update.replaced u.description l.description
        icon := Update.replaced u.icon l.icon
        categoryId := match u.categoryId with
          | some id => Category.resolve categories (some id)
          | none => l.categoryId } := by
  have hedit : Collection.edit categories u l =
      (acceptUrl (u.url.getD l.url)).bind fun url => (u.acceptedTitle l).bind fun title => .ok { l with
        url := url, title := title
        description := Update.replaced u.description l.description
        icon := Update.replaced u.icon l.icon
        categoryId := match u.categoryId with
          | some id => Category.resolve categories (some id)
          | none => l.categoryId } := by
    unfold Collection.edit Update.acceptedTitle
    cases u.title <;> rfl
  rw [hedit]
  constructor
  · intro h
    cases hurl : acceptUrl (u.url.getD l.url) with
    | error e => rw [hurl] at h; cases h
    | ok url =>
      cases htitle : u.acceptedTitle l with
      | error e => rw [hurl, htitle] at h; cases h
      | ok title =>
        rw [hurl, htitle] at h
        exact ⟨url, title, rfl, rfl, (Except.ok.inj h).symm⟩
  · rintro ⟨url, title, hurl, htitle, rfl⟩
    rw [hurl, htitle]
    rfl

/-- What an edit makes of a link: everything but these fields stays. -/
theorem Collection.edit_eq_ok {categories : List Category} {u : Update} {l m : Link}
    (h : Collection.edit categories u l = .ok m) : ∃ url title, m = { l with
      url := url, title := title
      description := Update.replaced u.description l.description
      icon := Update.replaced u.icon l.icon
      categoryId := match u.categoryId with
        | some id => Category.resolve categories (some id)
        | none => l.categoryId } := by
  obtain ⟨url, title, -, -, hm⟩ := edit_eq_ok_iff.mp h
  exact ⟨url, title, hm⟩

/-- A draft becomes a link by two checks. -/
theorem Draft.toLink_eq_ok_iff {d : Draft} {id categoryId : String} {now : Int} {l : Link} :
    d.toLink id now categoryId = .ok l ↔ ∃ url title,
      acceptUrl d.url = .ok url ∧ acceptTitle d.title = .ok title ∧ l = {
        id := id, url := url, title := title
        description := d.description.bind nonEmpty
        categoryId := categoryId
        icon := d.icon.bind nonEmpty
        pinned := d.pinned
        order := none, pinnedOrder := none, createdAt := now } := by
  unfold Draft.toLink
  constructor
  · intro h
    cases hurl : acceptUrl d.url with
    | error e => rw [hurl] at h; cases h
    | ok url =>
      rw [hurl] at h
      cases htitle : acceptTitle d.title with
      | error e => rw [htitle] at h; cases h
      | ok title =>
        rw [htitle] at h
        exact ⟨url, title, rfl, rfl, (Except.ok.inj h).symm⟩
  · rintro ⟨url, title, hurl, htitle, rfl⟩
    rw [hurl, htitle]
    rfl

/-- What a draft becomes. -/
theorem Draft.toLink_eq_ok {d : Draft} {id categoryId : String} {now : Int} {l : Link}
    (h : d.toLink id now categoryId = .ok l) : ∃ url title, l = {
      id := id, url := url, title := title
      description := d.description.bind nonEmpty
      categoryId := categoryId
      icon := d.icon.bind nonEmpty
      pinned := d.pinned
      order := none, pinnedOrder := none, createdAt := now } := by
  obtain ⟨url, title, -, -, hl⟩ := toLink_eq_ok_iff.mp h
  exact ⟨url, title, hl⟩

namespace Collection
variable {c next : Collection} {supply : Supply}

/-- A link from elsewhere comes in by two checks. -/
theorem sanitize_eq_some_iff {l m : Link} : sanitize l = some m ↔ ∃ url title,
    acceptUrl l.url = .ok url ∧ acceptTitle l.title = .ok title ∧ m = { l with url, title } := by
  unfold sanitize
  constructor
  · intro h
    split at h
    · next url title hurl htitle => exact ⟨url, title, hurl, htitle, (Option.some.inj h).symm⟩
    · cases h
  · rintro ⟨url, title, hurl, htitle, rfl⟩
    rw [hurl, htitle]

theorem sanitize_eq_some {l m : Link} (h : sanitize l = some m) : ∃ url title, m = { l with url, title } := by
  obtain ⟨url, title, -, -, hm⟩ := sanitize_eq_some_iff.mp h
  exact ⟨url, title, hm⟩

/-! ## Changes -/

/-- The collection that a command leads to from another one. -/
inductive Change (supply : Supply) (c : Collection) : Command → Collection → Prop where
  | addLink {draft : Draft} {l : Link}
    (h : draft.toLink (supply.id 0) supply.now (Category.resolve c.categories draft.categoryId) = .ok l) :
    Change supply c (.addLink draft) (c.withLinks (Shelf.insert c.links l))
  | updateLink {u : Update} {links : Shelf} (h : Shelf.update c.links u (edit c.categories u) = .ok links) :
    Change supply c (.updateLink u) (c.withLinks links)
  | deleteLink {id : String} {links : Shelf} (h : Shelf.remove? c.links id = some links) :
    Change supply c (.deleteLink id) (c.withLinks links)
  | togglePin {id : String} {links : Shelf} (h : Shelf.togglePin? c.links id = some links) :
    Change supply c (.togglePin id) (c.withLinks links)
  | reorderLinks (activeId overId categoryId : String) :
    Change supply c (.reorderLinks activeId overId categoryId)
      (c.withLinks (Shelf.reorder c.links activeId overId (Scope.ofCategory categoryId)))
  | reorderPinned (activeId overId : String) :
    Change supply c (.reorderPinned activeId overId) (c.withLinks (Shelf.reorder c.links activeId overId .pinned))
  | addCategory {name : String} (icon : String) (h : Text.trim name ≠ "") :
    Change supply c (.addCategory name icon)
      { c with categories := c.categories ++ [⟨supply.id 0, Text.trim name, icon⟩] }
  | updateCategory {category : Category} {categories : List Category}
    (h : Sequence.modifyFirst? (·.id == category.id) (fun _ => category) c.categories = some categories)
    (hname : Text.isBlankText category.name = false) :
    Change supply c (.updateCategory category) { c with categories }
  | deleteCategory {id : String} (hcommon : id ≠ Category.commonId) (h : Category.isKnown c.categories id = true) :
    Change supply c (.deleteCategory id)
      ⟨c.links.map (moveOut id), Category.withCommonFirst (c.categories.filter (·.id != id))⟩
  | importData (links : List Link) (categories : List Category) :
    Change supply c (.importData links categories)
      (c.merge supply.id (links.filterMap sanitize) categories).collection

/-- What a command on links leads to, if it leads anywhere. -/
theorem linkEffect_eq_ok {reply reply' : Reply} {r : Except LinkError Shelf}
    (h : c.linkEffect reply r = .ok ⟨some next, reply'⟩) : ∃ links, r = .ok links ∧ next = c.withLinks links := by
  cases r with
  | error e => cases h
  | ok links =>
    have heq := Except.ok.inj h
    rw [Effect.mk.injEq, Option.some.injEq] at heq
    exact ⟨links, rfl, heq.1.symm⟩

theorem orderEffect_next {links : Shelf} {reply : Reply} (h : c.orderEffect links = ⟨some next, reply⟩) :
    next = c.withLinks links ∧ links ≠ c.links := by
  unfold orderEffect at h
  split at h
  · cases h
  · next hne =>
    rw [Effect.mk.injEq, Option.some.injEq] at h
    exact ⟨h.1.symm, hne⟩

theorem orderEffect_none {links : Shelf} {reply : Reply} (h : c.orderEffect links = ⟨none, reply⟩) :
    links = c.links := by
  unfold orderEffect at h
  split at h
  · assumption
  · cases h

theorem deleteCategory_eq_ok {id : String} (h : c.deleteCategory id = .ok next) :
    id ≠ Category.commonId ∧ Category.isKnown c.categories id = true ∧
      next = ⟨c.links.map (moveOut id), Category.withCommonFirst (c.categories.filter (·.id != id))⟩ := by
  unfold Collection.deleteCategory at h
  by_cases hcommon : id = Category.commonId
  · rw [if_pos hcommon] at h
    cases h
  · rw [if_neg hcommon] at h
    cases hknown : Category.isKnown c.categories id with
    | false =>
      rw [hknown] at h
      cases h
    | true =>
      rw [hknown] at h
      exact ⟨hcommon, rfl, (Except.ok.inj h).symm⟩

/-- **A command that leads anywhere makes the change it stands for.** -/
theorem perform_change {command : Command} {reply : Reply} (hp : c.perform supply command = .ok ⟨some next, reply⟩) :
    Change supply c command next := by
  cases command with
  | addLink draft =>
    obtain ⟨links, ha, rfl⟩ := linkEffect_eq_ok hp
    obtain ⟨l, hl, rfl⟩ := Shelf.add_eq_ok ha
    exact .addLink hl
  | updateLink u =>
    obtain ⟨links, hu, rfl⟩ := linkEffect_eq_ok hp
    exact .updateLink hu
  | deleteLink id =>
    obtain ⟨links, hd, rfl⟩ := linkEffect_eq_ok hp
    exact .deleteLink (Shelf.delete_eq_ok hd)
  | togglePin id =>
    obtain ⟨links, ht, rfl⟩ := linkEffect_eq_ok hp
    exact .togglePin (Shelf.togglePin_eq_ok ht)
  | reorderLinks activeId overId categoryId =>
    rw [(orderEffect_next (Except.ok.inj hp)).1]
    exact .reorderLinks activeId overId categoryId
  | reorderPinned activeId overId =>
    rw [(orderEffect_next (Except.ok.inj hp)).1]
    exact .reorderPinned activeId overId
  | addCategory name icon =>
    simp only [Collection.perform] at hp
    by_cases hname : Text.trim name = ""
    · rw [if_pos hname] at hp
      cases hp
    · rw [if_neg hname] at hp
      cases hp
      exact .addCategory icon hname
  | updateCategory category =>
    simp only [Collection.perform] at hp
    split at hp
    · cases hp
    · next categories hm =>
      cases hname : Text.isBlankText category.name with
      | true =>
        rw [hname] at hp
        cases hp
      | false =>
        rw [hname] at hp
        cases hp
        exact .updateCategory hm hname
  | deleteCategory id =>
    simp only [Collection.perform] at hp
    split at hp
    · next deleted hd =>
      cases hp
      obtain ⟨hcommon, hknown, rfl⟩ := deleteCategory_eq_ok hd
      exact .deleteCategory hcommon hknown
    · cases hp
  | importData links categories =>
    cases hp
    exact .importData links categories

end Collection

end Bookmarks
