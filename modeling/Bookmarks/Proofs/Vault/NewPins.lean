import Bookmarks.Proofs.Shelf.NewPins
import Bookmarks.Proofs.Vault.Atomic

/-! # New pins of an unlocked vault

Unlocking takes the links as they were sealed and repairs nothing, so the pins of an unlocked
vault may have any ranks, or none.  A link that is pinned, or added as a pin, gets the number of
pins as its rank.  **Whether it is shown last among the pins depends on the ranks that were
there** (`new_pin_shown_last_iff`): it is if they are counted, as in every vault that was sealed
by the commands on its links, but not in general.
-/
namespace Bookmarks.Vault

open Bookmarks.Shelf

variable {cipher : Cipher} {supply : Supply} {storage : Storage} {password : String} {links : List Link}
  {reply : VaultReply}

/-- What a command that succeeds comes to. -/
theorem run_edit_of_ok {command : VaultCommand}
    (h : (run cipher supply (.unlocked password links) storage (.edit command)).answer = .ok reply) :
    ∃ next, command.perform supply links = .ok (next, reply) ∧
      (run cipher supply (.unlocked password links) storage (.edit command)).vault = .unlocked password next := by
  rw [run_edit_eq] at h ⊢
  cases hp : command.perform supply links with
  | error e =>
    rw [hp] at h
    cases h
  | ok done =>
    obtain ⟨next, performed⟩ := done
    rw [hp] at h
    dsimp only at h ⊢
    by_cases hplace : command.isReorder ∧ next = links
    · rw [if_pos hplace] at h ⊢
      cases h
      obtain ⟨-, rfl⟩ := hplace
      exact ⟨next, rfl, rfl⟩
    · rw [if_neg hplace] at h ⊢
      obtain ⟨rfl, hvault, -⟩ := writeToken_of_ok h
      exact ⟨next, rfl, hvault⟩

/-- **Where a new pin comes to stand.**  The vault is unlocked with any links.

A link that is not pinned is pinned; it is the first of its id, and stands between some links.  If
no pin has a rank greater than the number of pins, and none behind the link an equal one, where a
missing rank counts as the greatest, the pins are shown afterwards as they were before, followed
by this link.  Else it is not shown last, as long as it is told by its id.

A link is added as a pin; it stands between the pins that come first in the list and the rest.  If
no pin has a rank greater than the number of pins, and none in the rest an equal one, where a
missing rank counts as zero, the pins are shown afterwards as they were before, followed by this
link.  Else it is not shown last, as long as its id is fresh; the other pins are shown as before
even then.

Where the pins are counted, both conditions are met. -/
theorem new_pin_shown_last_iff (cipher : Cipher) (supply : Supply) (storage : Storage) (password : String)
    (links : List Link) :
    (∀ before l after, links = before ++ l :: after → (∀ m ∈ before, m.id ≠ l.id) → l.pinned = false →
      let outcome := run cipher supply (.unlocked password links) storage (.edit (.togglePin l.id))
      ∀ reply, outcome.answer = .ok reply → ∃ next, outcome.vault = .unlocked password next ∧
        (LastRank maxRank (pinnedCount links) before after → links.length ≤ rankCount →
          (pins next).map unranked = (pins links ++ [{ l with pinned := true }]).map unranked) ∧
        ((∀ m ∈ after, m.id ≠ l.id) → (pins next).getLast?.map (·.id) = some l.id →
          LastRank maxRank (pinnedCount links) before after)) ∧
    (∀ draft : Draft, draft.pinned = true →
      let outcome := run cipher supply (.unlocked password links) storage (.edit (.add draft))
      let first := links.takeWhile (·.pinned)
      let rest := links.dropWhile (·.pinned)
      ∀ reply, outcome.answer = .ok reply → ∃ next l, outcome.vault = .unlocked password next ∧
        reply = .created l.id ∧ l.id = supply.id 0 ∧ l.pinned = true ∧ next.Perm (l :: links) ∧
        (LastRank 0 (pinnedCount links) first rest → pins next = pins links ++ [l]) ∧
        ((∀ m ∈ links, m.id ≠ l.id) → (pins next).filter (·.id != l.id) = pins links ∧
          ((pins next).getLast?.map (·.id) = some l.id → LastRank 0 (pinnedCount links) first rest))) ∧
    (Counted links → ∀ missing before after, before ⊆ links → after ⊆ links →
      LastRank missing (pinnedCount links) before after) := by
  refine ⟨?_, ?_, fun h missing before after => h.lastRank missing⟩
  · rintro before l after rfl hfirst hp outcome reply hok
    obtain ⟨next, hperform, hvault⟩ := run_edit_of_ok hok
    obtain ⟨toggled, htoggle, heq⟩ := ok_of_map hperform
    obtain rfl : toggled = next := congrArg Prod.fst heq
    have htoggled : togglePin? (before ++ l :: after) l.id = some toggled := togglePin_eq_ok htoggle
    refine ⟨toggled, hvault, fun hlast hlen => ?_, fun hids hlast => ?_⟩
    · exact pins_togglePin?_of_lastRank hfirst hp htoggled hlen hlast
    · exact lastRank_of_togglePin? hfirst hp htoggled hids hlast
  · intro draft hp outcome first rest reply hok
    obtain ⟨next, hperform, hvault⟩ := run_edit_of_ok hok
    obtain ⟨added, hadd, heq⟩ := ok_of_map hperform
    obtain rfl : added = next := congrArg Prod.fst heq
    obtain rfl : .created (supply.id 0) = reply := congrArg Prod.snd heq
    obtain ⟨m, hm, rfl⟩ := add_eq_ok hadd
    obtain ⟨url, title, hm⟩ := Draft.toLink_eq_ok hm
    have hid : m.id = supply.id 0 := by rw [hm]
    have hpin : m.pinned = true := by rw [hm]; exact hp
    refine ⟨insert links m, inserted links m, hvault, ?_, hid, hpin, insert_perm links m, ?_, fun hids => ⟨?_, ?_⟩⟩
    · show _ = VaultReply.created m.id
      rw [hid]
    · exact pins_insert_of_lastRank hpin
    · exact filter_pins_insert hpin hids
    · exact lastRank_of_insert hpin hids

/-- A vault is unlocked with a pin of a rank that leaves a gap before it, and a link that is pinned
then is shown before it. -/
theorem not_every_new_pin_shown_last :
    ¬ ∀ (supply : Supply) (storage : Storage) (password id : String) (links : List Link) (l : Link),
      (run Cipher.standard supply .locked storage (.unlock password)).vault = .unlocked password links →
      links.find? (·.id == id) = some l → l.pinned = false →
      let outcome := run Cipher.standard supply (.unlocked password links) storage (.edit (.togglePin id))
      ∀ reply next, outcome.answer = .ok reply → outcome.vault = .unlocked password next →
        ((pins next).getLast?).map (·.id) = some id := by
  intro h
  let a : Link := ⟨"a", "https://a.example", "A", none, "private", none, true, some 0, some 5, 0⟩
  let b : Link := ⟨"b", "https://b.example", "B", none, "private", none, false, some 1, none, 0⟩
  let supply : Supply := ⟨fun _ => "", 7, Supply.cut 16 [], Supply.cut 12 []⟩
  let token : String := Payload.codec.sealText Cipher.standard "pw" supply.salt supply.nonce ⟨[a, b]⟩
  let storage : Storage := Storage.empty.put Storage.tokenKey (some token)
  have hstorable : ∀ l ∈ (⟨[a, b]⟩ : Payload).links, l.Storable := by decide
  have hopens : openStored Cipher.standard "pw" (storage.stored Storage.tokenKey) = some ⟨[a, b]⟩ := by
    rw [Storage.stored_put_self]
    exact openStored_sealText Cipher.standard_lawful "pw" supply.salt supply.nonce hstorable
  have hunlocked : (run Cipher.standard supply .locked storage (.unlock "pw")).vault = .unlocked "pw" [a, b] := by
    rw [Session.run_unlock rfl hopens]
  let next : List Link := [{ b with pinned := true, pinnedOrder := some 0 }, { a with pinnedOrder := some 1 }]
  have hperform : VaultCommand.perform supply [a, b] (.togglePin "b") = .ok (next, .done) := by decide
  let outcome := run Cipher.standard supply (.unlocked "pw" [a, b]) storage (.edit (.togglePin "b"))
  have hrun : outcome.answer = .ok .done ∧ outcome.vault = .unlocked "pw" next := by
    have hedit : ¬ ((VaultCommand.togglePin "b").isReorder = true ∧ next = [a, b]) := fun hplace => nomatch hplace.1
    show (run _ _ _ _ _).answer = _ ∧ (run _ _ _ _ _).vault = _
    rw [run_edit_eq, hperform]
    dsimp only
    rw [if_neg hedit, writeToken_eq]
    exact ⟨rfl, rfl⟩
  have hlast := h supply storage "pw" "b" [a, b] b hunlocked (by decide) rfl .done next hrun.1 hrun.2
  exact absurd hlast (by decide)

end Bookmarks.Vault
