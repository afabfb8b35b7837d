import Bookmarks.Proofs.Collection.Categories
import Bookmarks.Proofs.Store.Invariant

/-! # Names of categories at all times

A new category is not taken in without a name, and an edit cannot take the name of one away.
**An import does not look at the names**: a blank one comes in like any other, if it and its id
are new.  So every category has a name at all times exactly if no import brings in one without
(`categories_named_throughout_iff`), given that those have one that are stored.
-/
namespace Bookmarks

/-- A category with a character in its name that is not white space. -/
def Category.IsNamed (k : Category) : Prop := ∃ ch ∈ k.name.toList, Text.isBlank ch = false

theorem Category.isNamed_iff {k : Category} : k.IsNamed ↔ Text.isBlankText k.name = false := by
  simp only [IsNamed, Text.isBlankText, List.all_eq_false, Bool.not_eq_true]

instance (k : Category) : Decidable k.IsNamed :=
  decidable_of_iff _ Category.isNamed_iff.symm

namespace Collection

variable {c next : Collection} {supply : Supply} {command : Command} {reply : Reply}

/-- A command that brings in no category without a name from elsewhere. -/
def ImportsNames (c : Collection) (command : Command) : Prop :=
  ∀ links categories, command = .importData links categories →
    ∀ k ∈ Category.newAmong (Category.withCommonFirst c.categories) categories, k.IsNamed

/-- The categories that a command brings in have names, if it is not rejected: imported ones if
they come with them, and all others in any case. -/
theorem isNamed_of_new (himport : c.ImportsNames command) (hp : c.perform supply command = .ok ⟨some next, reply⟩) :
    ∀ k ∈ command.newCategories supply c, k.IsNamed := by
  cases perform_change hp with
  | @addCategory name icon hname =>
    refine List.forall_mem_singleton.mpr (Category.isNamed_iff.mpr (Bool.eq_false_iff.mpr fun hblank => hname ?_))
    rw [← Text.trim_trim]
    exact (Text.trim_eq_empty_iff _).mpr hblank
  | updateCategory _ hname => exact List.forall_mem_singleton.mpr (Category.isNamed_iff.mpr hname)
  | importData links categories => exact himport links categories rfl
  | _ => exact List.forall_mem_nil _

theorem named_kept : Kept (fun c => ∀ k ∈ c.categories, k.IsNamed) (fun _ c command => c.ImportsNames command) where
  seed := by decide
  repair hc k hk := by
    have hfirst : ∀ d ∈ Category.defaults, d.IsNamed := by decide
    exact (mem_categories_repair hk).elim (hfirst k) (hc k)
  perform hc himport hp k hk := by
    rcases mem_categories_perform hp hk with rfl | hold | hnew
    · decide
    · exact hc k hold
    · exact isNamed_of_new himport hp k hnew

end Collection

namespace Store.Session

/-- An import is never rejected, and whatever it brings in is in memory from then on, also if
nothing can be written. -/
theorem categories_step_import (s : Session) (supply : Supply) (links : List Link) (categories : List Category)
    (refusesReads refusesWrites : Bool) :
    (s.step ⟨.command supply (.importData links categories), refusesReads, refusesWrites⟩).store.categories =
      Category.withCommonFirst s.store.categories ++
        Category.newAmong (Category.withCommonFirst s.store.categories) categories := by
  simp only [step, serve, noted_store, Store.categories]
  rw [collection_run rfl]
  exact Collection.categories_merge _ _ _ _

/-- **Whether every category has a name throughout.**  It has one after every request exactly
if no import brings in a category without a name, that is one whose id and whose blank name are
both new by then.  No other command can: it does not matter what names new categories and edits
are given.  It is assumed that the categories have names that are stored at first, and that
somebody else puts there. -/
theorem categories_named_throughout_iff (storage : Storage) (events : List Event)
    (hstored : ∀ text ∈ storage.stored Storage.dataKey, ∀ c, Collection.codec.ofText text = .ok c →
      ∀ k ∈ c.categories, k.IsNamed)
    (hputs : ∀ e ∈ events, ∀ text, e.request = .put Storage.dataKey (some text) →
      ∀ c, Collection.codec.ofText text = .ok c → ∀ k ∈ c.categories, k.IsNamed) :
    (∀ n, ∀ k ∈ ((opened storage).after (events.take n)).store.categories, k.IsNamed) ↔
      ∀ n e supply links categories, events[n]? = some e → e.request = .command supply (.importData links categories) →
        let present := ((opened storage).after (events.take n)).store.categories
        ∀ k ∈ Category.newAmong (Category.withCommonFirst present) categories, k.IsNamed := by
  constructor
  · rintro h n ⟨_, refusesReads, refusesWrites⟩ supply links categories he rfl present k hk
    have hafter := h (n + 1)
    rw [after_take_succ he, categories_step_import] at hafter
    exact hafter k (List.mem_append_right _ hk)
  · intro h n
    refine ((Has.opened Collection.named_kept hstored).throughout Collection.named_kept
      (accepts_of_commands hputs ?_) n).memory
    rintro n e supply _ he hrequest links categories rfl
    exact h n e supply links categories he hrequest

/-- A category with a name is imported, another one is given a blank name in vain, and then the
first collection is put in place of the stored one and loaded. -/
theorem categories_named_after_import :
    let supply : Supply := ⟨fun _ => "5b1e7c02-93d4-4f6a-8c1d-000000000000", 7, Supply.cut 16 [], Supply.cut 12 []⟩
    let requests : List Request := [
      .command supply (.importData [] [⟨"x", " X", ""⟩]),
      .command supply (.updateCategory ⟨"dev", "\u3000", ""⟩),
      .put Storage.dataKey (some (Collection.codec.compact Collection.seed)), .load]
    let events := requests.map fun request => Event.mk request false false
    ∀ n, ∀ k ∈ ((opened Storage.empty).after (events.take n)).store.categories, k.IsNamed := by
  intro supply requests events
  refine (categories_named_throughout_iff Storage.empty events nofun ?_).mpr ?_
  · intro e he text hput c hread
    have htext : text = Collection.codec.compact Collection.seed := by
      simp only [events, requests, List.map_cons, List.map_nil, List.mem_cons, List.not_mem_nil, or_false] at he
      rcases he with rfl | rfl | rfl | rfl
      · cases hput
      · cases hput
      · exact (Option.some.inj (Request.put.inj hput).2).symm
      · cases hput
    subst htext
    rw [Collection.ofText_compact_eq hread]
    exact Collection.named_kept.seed
  · intro n e supply' links categories he hrequest
    match n with
    | 0 =>
      obtain rfl := Option.some.inj he
      cases hrequest
      decide
    | 1 | 2 | 3 =>
      obtain rfl := Option.some.inj he
      cases hrequest
    | n + 4 => cases he

/-- A category with a blank name is imported, and it is there. -/
theorem not_every_category_named :
    ¬ ∀ (storage : Storage) (events : List Event),
      (∀ text ∈ storage.stored Storage.dataKey, ∀ c, Collection.codec.ofText text = .ok c →
        ∀ k ∈ c.categories, k.IsNamed) →
      (∀ e ∈ events, ∀ text, e.request = .put Storage.dataKey (some text) →
        ∀ c, Collection.codec.ofText text = .ok c → ∀ k ∈ c.categories, k.IsNamed) →
      ∀ k ∈ ((opened storage).after events).store.categories, k.IsNamed := by
  intro h
  let supply : Supply := ⟨fun _ => "5b1e7c02-93d4-4f6a-8c1d-000000000000", 7, Supply.cut 16 [], Supply.cut 12 []⟩
  let events : List Event := [⟨.command supply (.importData [] [⟨"x", " ", ""⟩]), false, false⟩]
  have hputs : ∀ e ∈ events, ∀ text, e.request = .put Storage.dataKey (some text) →
      ∀ c, Collection.codec.ofText text = .ok c → ∀ k ∈ c.categories, k.IsNamed := by
    intro e he text hput
    obtain rfl := List.mem_singleton.mp he
    cases hput
  have hnamed := h Storage.empty events nofun hputs ⟨"x", " ", ""⟩ (by decide)
  revert hnamed
  decide

end Store.Session

end Bookmarks
