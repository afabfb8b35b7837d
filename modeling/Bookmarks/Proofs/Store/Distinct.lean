import Bookmarks.Proofs.Collection.Distinct
import Bookmarks.Proofs.Store.Invariant

/-! # Distinct ids at all times

A store starts from what is stored, and may come back to it, so the ids have to be distinct in
memory and in the storage as well (`Session.Distinct`).  Repairs keep them distinct, and so do
the commands that draw fresh ids.

**The ids of the links and those of the categories are distinct at all times**
(`ids_distinct_at_all_times`), if they were so in the storage at first and no id is drawn
while it is taken.
-/
namespace Bookmarks

/-- A text under the key of the collection stands for one with distinct ids, if it stands for
any. -/
def Collection.DistinctIn (text : Option String) : Prop :=
  ∀ t ∈ text, ∀ c, Collection.codec.ofText t = .ok c → c.Distinct

theorem Collection.distinct_kept :
    Kept Collection.Distinct fun supply c command => command.DrawsFresh supply c where
  seed := seed_distinct
  repair h := h.repair
  perform h hfresh hp := h.perform hfresh hp

namespace Store

namespace Session

/-- The ids are distinct, in memory and in the storage. -/
structure Distinct (s : Session) : Prop where
  memory : s.store.collection.Distinct
  stored : Collection.DistinctIn (s.storage.stored Storage.dataKey)

/-- A request that draws no id while it is taken, and puts no text with repeated ids under
the key of the collection. -/
def Admits (s : Session) : Request → Prop
  | .command supply command => command.DrawsFresh supply s.store.collection
  | .put key text => key = Storage.dataKey → Collection.DistinctIn text
  | .load | .flush => True

variable {s : Session}

theorem distinct_iff_has : s.Distinct ↔ s.Has Collection.Distinct :=
  ⟨fun h => ⟨h.memory, h.stored⟩, fun h => ⟨h.memory, h.stored⟩⟩

theorem Admits.accepts {request : Request} (h : s.Admits request) :
    s.Accepts Collection.Distinct (fun supply c command => command.DrawsFresh supply c) request := by
  cases request <;> exact h

/-- Every request is admitted by the session that it comes to. -/
theorem Distinct.after (h : s.Distinct) {events : List Event}
    (hadmits : ∀ n e, events[n]? = some e → (s.after (events.take n)).Admits e.request) :
    (s.after events).Distinct :=
  distinct_iff_has.mpr ((distinct_iff_has.mp h).after Collection.distinct_kept fun n e he => (hadmits n e he).accepts)

/-- **No two links have the same id at any time, and no two categories.**  The storage held
no collection at first, or one with distinct ids, and nobody else puts one with repeated ids
there.  No command draws an id that is taken by then; but the ids that links and categories
are imported with may be any: empty, repeated, taken already, or drawn a moment before. -/
theorem ids_distinct_at_all_times (storage : Storage) (events : List Event)
    (hstored : ∀ text ∈ storage.stored Storage.dataKey, ∀ c, Collection.codec.ofText text = .ok c → c.Distinct)
    (hadmits : ∀ n e, events[n]? = some e → ((opened storage).after (events.take n)).Admits e.request) :
    let store := ((opened storage).after events).store
    (store.links.map (·.id)).Nodup ∧ (store.categories.map (·.id)).Nodup := by
  intro store
  have hopened : (opened storage).Distinct := distinct_iff_has.mpr (Has.opened Collection.distinct_kept hstored)
  have h : store.collection.Distinct := (hopened.after hadmits).memory
  exact ⟨h.links, h.categories⟩

/-- Links are imported under an id that is there already, without an id, under the id that is
drawn for the first of them, and twice under one id; so are two categories. -/
theorem ids_distinct_after_import :
    let drawn := ["d6d0a4d8-0000", "d6d0a4d8-0001", "d6d0a4d8-0002", "d6d0a4d8-0003"]
    let supply : Supply := ⟨fun k => drawn.getD k "", 11, Supply.cut 16 [], Supply.cut 12 []⟩
    let link (id : String) : Link := ⟨id, "https://a.example", "A", none, "dev", none, true, none, none, 0⟩
    let links := ["1", "", "d6d0a4d8-0000", "x", "x"].map link
    let events : List Event := [⟨.command supply (.importData links [⟨"y", "Y", ""⟩, ⟨"y", "Z", ""⟩]), false, true⟩]
    let store := ((opened Storage.empty).after events).store
    (store.links.map (·.id)).Nodup ∧ store.links.length = 10 := by
  intro drawn supply link links events store
  have hadmits : ∀ n e, events[n]? = some e → ((opened Storage.empty).after (events.take n)).Admits e.request := by
    rintro (_ | n) e he
    · obtain rfl := Option.some.inj he
      show Command.DrawsFresh supply _ _
      decide
    · cases he
  exact ⟨(ids_distinct_at_all_times Storage.empty events nofun hadmits).1, by decide⟩

end Session

end Store

end Bookmarks
