import Bookmarks.Proofs.Shelf.Turned
import Bookmarks.Proofs.Store.Retry

/-! # Pinning and unpinning a link of a store

The pins of a store and what it shows for every category are followed through a link being
pinned or unpinned (`turning_moves_one_link`).  Whether the result can be written does not
matter to what is in memory.
-/
namespace Bookmarks.Store

variable {s : Store} {id : String}

/-- A link that is there is pinned or unpinned, and one attempt is made to write that. -/
theorem run_togglePin (hid : id ∈ s.links.map (·.id)) : ∃ next, Shelf.togglePin? s.links id = some next ∧
    ∀ supply storage, s.run supply storage (.togglePin id) =
      ⟨if storage.refusesWrites then .error (.ofStorage .writeRefused) else .ok .done,
        ⟨s.collection.withLinks next, s.source, storage.refusesWrites⟩,
        attempted (s.collection.withLinks next) storage⟩ := by
  obtain ⟨x, hx, rfl⟩ := List.mem_map.mp hid
  obtain ⟨l, hl⟩ : ∃ l, s.links.find? (·.id == x.id) = some l :=
    Option.isSome_iff_exists.mp (List.find?_isSome.mpr ⟨x, hx, beq_self_eq_true x.id⟩)
  obtain ⟨next, hnext⟩ := Shelf.togglePin?_of_find? hl
  have hlinks : Shelf.togglePin s.collection.links x.id = .ok next := by
    unfold Shelf.togglePin
    rw [show Shelf.togglePin? s.collection.links x.id = some next from hnext]
  refine ⟨next, hnext, fun supply storage => run_of_change ?_ storage⟩
  simp only [Collection.perform, hlinks]
  rfl

namespace Session

/-- **What pinning and unpinning do.**  The ids of the links are distinct, and one of the links
is pinned or unpinned.

If it was not pinned, it is shown behind the other pins, with the number of the pins as its
rank, and for no category any more; given once more, the command brings every link back as it
was.  If it was pinned, the other pins close up, and it is shown for its category before the
first link whose key is not smaller than its own, which is its order or else the time it was
created at.  In either way the other links are what they were but for their ranks among the
pins, and stand as they stood, in the list and whatever is shown of it; and the categories are
left alone. -/
theorem turning_moves_one_link {s : Session} (hs : s.Reachable) (hids : (s.store.links.map (·.id)).Nodup) {x : Link}
    (hx : x ∈ s.store.links) (supply : Supply) (refusesReads refusesWrites : Bool) :
    let outcome := s.store.run supply { s.storage with refusesReads, refusesWrites } (.togglePin x.id)
    let turned := outcome.store
    outcome.answer = (if refusesWrites then .error (.ofStorage .writeRefused) else .ok .done) ∧
    turned.categories = s.store.categories ∧
    (x.pinned = false →
      turned.pins = s.store.pins ++ [{ x with pinned := true, pinnedOrder := some (s.store.pins.length : Int) }] ∧
      (∀ c, turned.view c = (s.store.view c).filter (·.id != x.id)) ∧
      ∀ supply' storage', (turned.run supply' storage' (.togglePin x.id)).store.links.Perm s.store.links) ∧
    (x.pinned = true →
      turned.pins = (s.store.pins.filter (·.id != x.id)).mapIdx (fun k l => { l with pinnedOrder := some (k : Int) }) ∧
      ∀ c, turned.view c =
        if c = "all" ∨ x.categoryId = c then
          (s.store.view c).takeWhile (fun m => decide (m.orderKey < x.orderKey)) ++
            { x with pinned := false, pinnedOrder := none } ::
              (s.store.view c).dropWhile (fun m => decide (m.orderKey < x.orderKey))
        else s.store.view c) ∧
    (turned.links.filter (·.id != x.id)).map (fun l => { l with pinnedOrder := none }) =
      (s.store.links.filter (·.id != x.id)).map (fun l => { l with pinnedOrder := none }) := by
  intro outcome turned
  have harranged : Shelf.Arranged s.store.links := hs.inOrder.arranged
  obtain ⟨next, hnext, hrun⟩ := run_togglePin (List.mem_map_of_mem hx)
  have houtcome := hrun supply { s.storage with refusesReads, refusesWrites }
  have hturned : turned = ⟨s.store.collection.withLinks next, s.store.source, refusesWrites⟩ :=
    congrArg Outcome.store houtcome
  have hlinks : turned.links = next := by rw [hturned]; rfl
  have hcount : s.store.pins.length = Shelf.pinnedCount s.store.links := Shelf.length_pins s.store.links
  refine ⟨congrArg Outcome.answer houtcome, by rw [hturned]; rfl, fun hp => ⟨?_, fun c => ?_, ?_⟩,
    fun hp => ⟨?_, fun c => ?_⟩, ?_⟩
  · rw [Store.pins, hlinks, hcount]
    exact Shelf.pins_pinned harranged hids hx hp hnext
  · rw [Store.view, hlinks]
    exact Shelf.inCategory_pinned harranged hids hx hp hnext c
  · intro supply' storage'
    have hid : x.id ∈ turned.links.map (·.id) := by
      rw [hlinks]
      exact (Shelf.ids_togglePin? hnext).mem_iff.mpr (List.mem_map_of_mem hx)
    obtain ⟨back, hback, hrun'⟩ := run_togglePin hid
    rw [hrun' supply' storage']
    exact Shelf.togglePin?_twice harranged hids hx hnext hp (hlinks ▸ hback)
  · rw [Store.pins, hlinks]
    exact Shelf.pins_unpinned hids hx hp hnext harranged
  · rw [Store.view, hlinks]
    exact Shelf.inCategory_unpinned hids hx hp hnext harranged c
  · rw [hlinks]
    exact Shelf.map_unranked_toggled harranged hids hx hnext

/-- The second link of a new collection is pinned behind the first, and unpinned again. -/
theorem second_link_pinned_and_unpinned :
    let s := (opened Storage.empty).store
    let supply : Supply := ⟨fun _ => "5b1e7c02-93d4-4f6a-8c1d-000000000000", 7, Supply.cut 16 [], Supply.cut 12 []⟩
    let turned := (s.run supply Storage.empty (.togglePin "2")).store
    turned.pins.map (·.id) = ["1", "2"] ∧ (turned.view "dev").map (·.id) = ["3"] ∧
      (turned.run supply Storage.empty (.togglePin "2")).store.links.Perm s.links := by
  intro s supply turned
  obtain ⟨-, -, hpinned, -, -⟩ := turning_moves_one_link (reachable_opened Storage.empty) (by decide)
    (List.get_mem s.links ⟨1, by decide⟩) supply false false
  obtain ⟨hpins, hview, hback⟩ := hpinned (by decide)
  refine ⟨?_, ?_, hback supply Storage.empty⟩
  · rw [show turned.pins = _ from hpins]
    decide
  · rw [show turned.view "dev" = _ from hview "dev"]
    decide

end Session

end Bookmarks.Store
