import Bookmarks.Proofs.Shelf.Reordered
import Bookmarks.Proofs.Store.Retry

/-! # Reordering a store

A store is put in another order by moving one link of a scope to the place of another link
of the same scope.  **Only a move that changes the links is kept**: it is in memory from then
on, and one attempt is made to write it.  Any other leaves the store as it is, and its
storage too.
-/
namespace Bookmarks

/-- The commands that move the link with one id to the place of the link with another id in a
scope. -/
def Command.Reorders (activeId overId : String) (scope : Scope) : Command → Prop
  | .reorderLinks active other categoryId =>
    active = activeId ∧ other = overId ∧ Scope.ofCategory categoryId = scope
  | .reorderPinned active other => active = activeId ∧ other = overId ∧ .pinned = scope
  | _ => False

namespace Store

variable {s : Store} {command : Command} {activeId overId : String} {scope : Scope}

theorem perform_of_reorders (h : command.Reorders activeId overId scope) (c : Collection) (supply : Supply) :
    c.perform supply command = .ok (c.orderEffect (Shelf.reorder c.links activeId overId scope)) := by
  cases command with
  | reorderLinks active other categoryId =>
    obtain ⟨rfl, rfl, rfl⟩ := h
    rfl
  | reorderPinned active other =>
    obtain ⟨rfl, rfl, rfl⟩ := h
    rfl
  | _ => exact h.elim

/-- A reordering is kept exactly if it changes the links. -/
theorem run_of_reorders (h : command.Reorders activeId overId scope) (supply : Supply) (storage : Storage) :
    let next := Shelf.reorder s.links activeId overId scope
    let outcome := s.run supply storage command
    (next = s.links → outcome = ⟨.ok .done, s, storage⟩) ∧
    (next ≠ s.links → outcome =
      ⟨if storage.refusesWrites then .error (.ofStorage .writeRefused) else .ok .done,
        ⟨s.collection.withLinks next, s.source, storage.refusesWrites⟩,
        attempted (s.collection.withLinks next) storage⟩) := by
  intro next outcome
  have hp := perform_of_reorders h s.collection supply
  constructor
  · intro hsame
    refine run_of_no_change (hp.trans (congrArg Except.ok ?_)) storage
    exact if_pos hsame
  · intro hchanged
    refine run_of_change (hp.trans (congrArg Except.ok ?_)) storage
    exact if_neg hchanged

theorem attempts_attempted (c : Collection) (storage : Storage) : (attempted c storage).attempts =
    ⟨Storage.dataKey, some (Collection.codec.compact c), !storage.refusesWrites⟩ :: storage.attempts := by
  unfold attempted Storage.write
  cases storage.refusesWrites <;> rfl

/-- Every pin of a collection that a session comes to has a rank. -/
theorem Session.Reachable.pinsRanked {s : Session} (h : s.Reachable) : Shelf.PinsRanked s.store.links :=
  h.inOrder.arranged.counted.pinsRanked

/-- **What reordering does.**  Of links with distinct ids, whose pins have ranks, two are in
a scope.  The links of the scope are shown afterwards as they were shown before, with the one
taken out and put back where the other one stood, and have the ranks `0, 1, …, n - 1` in this
order; the links outside the scope are what they were; and apart from the rank in the scope
nothing about the links has changed, which stand as they are compared.  Where the ids are
equal or one of them is not in the scope, the links are left as they are.

A store that is put in another order has the links afterwards and makes one attempt to write
them if they are not those of before; else it leaves itself and its storage alone. -/
theorem reordering_moves_one_link {links : Shelf} (hids : (links.map (·.id)).Nodup)
    (hranked : Shelf.PinsRanked links) (activeId overId : String) (scope : Scope) :
    let next := Shelf.reorder links activeId overId scope
    let shown := Shelf.presented scope links
    (∀ active ∈ links, ∀ other ∈ links, scope.contains active → scope.contains other →
      active.id = activeId → other.id = overId → activeId ≠ overId →
      Shelf.presented scope next =
        ((shown.erase active).insertIdx (shown.idxOf other) active).mapIdx scope.withRank ∧
      next.filter (fun l => !scope.contains l) = Shelf.sort (links.filter fun l => !scope.contains l) ∧
      (next.map (scope.withRank 0)).Perm (links.map (scope.withRank 0)) ∧
      next.Pairwise fun a b => (a.compare b).isLE) ∧
    (activeId = overId ∨ (∀ l ∈ links, scope.contains l → l.id ≠ activeId) ∨
        (∀ l ∈ links, scope.contains l → l.id ≠ overId) →
      next = links) ∧
    (∀ (s : Store) (supply : Supply) (storage : Storage) (command : Command),
      s.links = links → command.Reorders activeId overId scope →
      let outcome := s.run supply storage command
      (next = links → outcome.store = s ∧ outcome.storage = storage) ∧
      (next ≠ links → outcome.store = ⟨⟨next, s.categories⟩, s.source, storage.refusesWrites⟩ ∧
        outcome.storage.attempts =
          ⟨Storage.dataKey, some (Collection.codec.compact ⟨next, s.categories⟩), !storage.refusesWrites⟩ ::
            storage.attempts)) := by
  intro next shown
  refine ⟨?_, ?_, ?_⟩
  · rintro active ha other ho hac hoc rfl rfl hne
    have hactive : Shelf.Offers scope links active.id := ⟨active, ha, hac, rfl⟩
    have hother : Shelf.Offers scope links other.id := ⟨other, ho, hoc, rfl⟩
    exact ⟨Shelf.presented_reorder hids hranked ha hac ho hoc hne, Shelf.filter_outside_reorder hne hactive hother,
      Shelf.reorder_perm _ _ _ _, Shelf.reorder_shown hne hactive hother⟩
  · intro h
    refine Shelf.reorder_of_not_offers (h.imp_right (Or.imp ?_ ?_))
    · rintro h ⟨l, hl, hin, hid⟩
      exact h l hl hin hid
    · rintro h ⟨l, hl, hin, hid⟩
      exact h l hl hin hid
  · rintro s supply storage command rfl h outcome
    obtain ⟨hsame, hchanged⟩ := run_of_reorders (s := s) h supply storage
    constructor
    · intro heq
      rw [show outcome = _ from hsame heq]
      exact ⟨rfl, rfl⟩
    · intro hne
      rw [show outcome = _ from hchanged hne]
      exact ⟨rfl, attempts_attempted _ _⟩

/-- The third link of a new collection is moved before the second one. -/
theorem third_link_before_second :
    let s := (Session.opened Storage.empty).store
    let supply : Supply := ⟨fun _ => "5b1e7c02-93d4-4f6a-8c1d-000000000000", 7, Supply.cut 16 [], Supply.cut 12 []⟩
    let moved := (s.run supply Storage.empty (.reorderLinks "3" "2" "dev")).store
    (s.view "dev").map (·.id) = ["2", "3"] ∧ (moved.view "dev").map (fun l => (l.id, l.order)) =
      [("3", some 0), ("2", some 1)] := by
  intro s supply moved
  have hranked : Shelf.PinsRanked s.links := (Session.reachable_opened Storage.empty).pinsRanked
  obtain ⟨hmove, -, hrun⟩ := reordering_moves_one_link (by decide) hranked "3" "2" (.category "dev")
  obtain ⟨-, hkept⟩ := hrun s supply Storage.empty (.reorderLinks "3" "2" "dev") rfl ⟨rfl, rfl, by decide⟩
  obtain ⟨hstore, -⟩ := hkept (by decide)
  obtain ⟨hshown, -⟩ := hmove (s.links.get ⟨2, by decide⟩) (List.get_mem _ _) (s.links.get ⟨1, by decide⟩)
    (List.get_mem _ _) (by decide) (by decide) (by decide) (by decide) (by decide)
  have hlinks : moved.links = Shelf.reorder s.links "3" "2" (.category "dev") := by
    rw [show moved = _ from hstore, Store.links]
  have hview : moved.view "dev" = Shelf.presented (Scope.ofCategory "dev") moved.links := rfl
  have hscope : Scope.ofCategory "dev" = .category "dev" := by decide
  refine ⟨by decide, ?_⟩
  rw [hview, hlinks, hscope, hshown]
  decide

end Store

end Bookmarks
