import Bookmarks.Proofs.Collection.Frame
import Bookmarks.Proofs.Store.Retry

/-! # What commands to the store leave alone

A command has its effect on the links in memory whether its write is accepted or refused,
and none if it is rejected or leads nowhere else.  Each way it leaves the links alone that
it is not about; so does a flush, which is about none.
-/
namespace Bookmarks.Store

variable {s : Store} {supply : Supply} {storage : Storage} {command : Command}

/-- **A command to a store in order brings in what it is to bring in, and leaves the other
links alone.** -/
theorem frame_run (h : s.collection.InOrder) (supply : Supply) (storage : Storage) (command : Command) :
    ∃ added, command.Brings supply s.collection added ∧
      Collection.Frame s.collection command (s.run supply storage command).store.collection added := by
  cases hp : s.collection.perform supply command with
  | error e =>
    rw [run_of_rejected hp]
    exact ⟨0, h.frame_rejected hp⟩
  | ok effect =>
    obtain ⟨_ | next, reply⟩ := effect
    · rw [run_of_no_change hp]
      exact ⟨0, Collection.frame_no_change hp⟩
    · rw [run_of_change hp]
      exact h.frame_change (Collection.perform_change hp)

/-- An import that succeeds answers how many links it has brought in. -/
theorem card_of_run_imported {added : Multiset Link} (hadded : command.Brings supply s.collection added)
    {summary : ImportSummary} (h : (s.run supply storage command).answer = .ok (.imported summary)) :
    added.card = summary.linksAdded := by
  cases hp : s.collection.perform supply command with
  | error e =>
    rw [run_of_rejected hp] at h
    cases h
  | ok effect =>
    refine Collection.card_of_imported hp ?_ hadded
    obtain ⟨_ | next, reply⟩ := effect
    · rw [run_of_no_change hp] at h
      exact Except.ok.inj h
    · rw [run_of_change hp] at h
      dsimp only at h
      split at h
      · cases h
      · exact Except.ok.inj h

namespace Session

/-- **No link comes or goes, and none changes, but as the command says.**  In any
reachable session, whatever the storage refuses while a command is served, the ids and times
of the links are those of before and of the links that the command brings in, without those
of the one that it takes out.  An import that succeeds has brought in as many as it answers.

The links that neither come nor go are paired with those of before, and what each of them
keeps is listed in `Spared`.  A flush leaves all of them as they are. -/
theorem other_links_are_spared {s : Session} (hs : s.Reachable) (supply : Supply) (command : Command)
    (refusesReads refusesWrites : Bool) :
    let storage : Storage := { s.storage with refusesReads, refusesWrites }
    let outcome := s.store.run supply storage command
    (∃ added : Multiset Link, command.Brings supply s.store.collection added ∧
      (∀ summary, outcome.answer = .ok (.imported summary) → added.card = summary.linksAdded) ∧
      (outcome.store.links : Multiset Link).map Collection.stamp +
          (Collection.atMost (command.removed? s.store.links)).map Collection.stamp =
        (s.store.links : Multiset Link).map Collection.stamp + added.map Collection.stamp ∧
      Collection.Frame s.store.collection command outcome.store.collection added) ∧
    (s.store.flush storage).store.links = s.store.links := by
  intro storage outcome
  refine ⟨?_, ?_⟩
  · obtain ⟨added, hadded, hframe⟩ := frame_run hs.inOrder supply storage command
    exact ⟨added, hadded, fun summary hanswer => card_of_run_imported hadded hanswer, hframe.map_stamp, hframe⟩
  · rw [flush_eq]
    rfl

/-- A link is deleted while the storage refuses to be written. -/
theorem one_link_less_after_refused_write :
    let supply : Supply := ⟨fun _ => "5b1e7c02-93d4-4f6a-8c1d-000000000000", 7, Supply.cut 16 [], Supply.cut 12 []⟩
    let s := opened Storage.empty
    let refused := s.store.run supply { s.storage with refusesReads := false, refusesWrites := true } (.deleteLink "1")
    refused.answer = .error (.ofStorage .writeRefused) ∧
    (refused.store.links : Multiset Link).map Collection.stamp + {("1", 0)} =
      (s.store.links : Multiset Link).map Collection.stamp := by
  intro supply s refused
  have hs : s.Reachable := reachable_opened Storage.empty
  obtain ⟨⟨added, hadded, -, hstamps, -⟩, -⟩ := other_links_are_spared hs supply (.deleteLink "1") false true
  have hnone : added = 0 := hadded
  refine ⟨by decide, ?_⟩
  rw [hnone, Multiset.map_zero, Multiset.add_zero] at hstamps
  exact hstamps

end Session

end Bookmarks.Store
