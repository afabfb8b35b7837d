/-! # Fields

A text, or any other sequence, taken apart at every occurrence of a separator, and
put together again.  An empty text is one empty field.
-/
namespace Bookmarks.Text

variable {α : Type} [DecidableEq α]

/-- The fields between separators. -/
def splitAt (separator : α) : List α → List (List α)
  | [] => [[]]
  | c :: cs =>
    if c = separator then [] :: splitAt separator cs
    else
      match splitAt separator cs with
      | [] => [[c]]
      | field :: fields => (c :: field) :: fields

/-- The fields with a separator between any two. -/
def joinWith (separator : α) : List (List α) → List α
  | [] => []
  | [field] => field
  | field :: fields => field ++ separator :: joinWith separator fields

/-- The fields of a text. -/
def fields (separator : Char) (s : String) : List String :=
  (splitAt separator s.toList).map String.ofList

theorem splitAt_ne_nil (separator : α) (cs : List α) : splitAt separator cs ≠ [] := by
  induction cs with
  | nil => simp [splitAt]
  | cons c cs ih =>
    unfold splitAt
    split
    · simp
    · split <;> simp

/-- Putting the fields together gives the text back. -/
theorem joinWith_splitAt (separator : α) (cs : List α) :
    joinWith separator (splitAt separator cs) = cs := by
  induction cs with
  | nil => rfl
  | cons c cs ih =>
    have hne := splitAt_ne_nil separator cs
    unfold splitAt
    split
    · next h =>
      cases hs : splitAt separator cs with
      | nil => exact absurd hs hne
      | cons f fs => rw [hs] at ih; simp [joinWith, ih, h]
    · cases hs : splitAt separator cs with
      | nil => exact absurd hs hne
      | cons f fs =>
        rw [hs] at ih
        cases fs with
        | nil => simpa [joinWith] using ih
        | cons g gs => simpa [joinWith] using ih

end Bookmarks.Text
