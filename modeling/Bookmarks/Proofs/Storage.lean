import Bookmarks.Storage

/-! # What a write does

An accepted write puts a text under its key, a refused one changes nothing that is
stored; either is the latest attempt afterwards, and nothing else is refused because of
it.
-/
namespace Bookmarks.Storage

variable {s : Storage} {key : String} {text : Option String}

theorem stored_write_of_accepted (h : s.refusesWrites = false) : (s.write key text).2.stored key = text := by
  unfold write
  rw [if_neg (by simp [h])]
  exact stored_put_self s key text

theorem stored_write_of_refused (h : s.refusesWrites = true) (key' : String) :
    (s.write key text).2.stored key' = s.stored key' := by
  unfold write
  rw [if_pos h]
  rfl

theorem stored_write_of_ne {key' : String} (h : key' ≠ key) : (s.write key text).2.stored key' = s.stored key' := by
  unfold write
  split
  · rfl
  · exact stored_put_of_ne h s text

theorem stored_write_congr {a b : Storage} (hw : a.refusesWrites = b.refusesWrites)
    (hs : a.stored key = b.stored key) : (a.write key text).2.stored key = (b.write key text).2.stored key := by
  cases hb : b.refusesWrites with
  | true => rw [stored_write_of_refused (hw.trans hb), stored_write_of_refused hb, hs]
  | false => rw [stored_write_of_accepted (hw.trans hb), stored_write_of_accepted hb]

theorem refusesReads_write : (s.write key text).2.refusesReads = s.refusesReads := by
  unfold write
  split <;> rfl

theorem refusesWrites_write : (s.write key text).2.refusesWrites = s.refusesWrites := by
  unfold write
  split <;> rfl

/-- The attempt to write that a storage has seen since it was in another state. -/
def newAttempt? (before after : Storage) : Option Attempt :=
  if after.attempts.length = before.attempts.length then none else after.attempts.head?

theorem newAttempt?_self (s : Storage) : newAttempt? s s = none := if_pos rfl

theorem newAttempt?_write (s : Storage) (key : String) (text : Option String) :
    newAttempt? s (s.write key text).2 = some ⟨key, text, !s.refusesWrites⟩ := by
  unfold newAttempt? write
  cases s.refusesWrites <;> simp

end Bookmarks.Storage
