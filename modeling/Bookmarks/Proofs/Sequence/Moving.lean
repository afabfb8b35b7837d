import Bookmarks.Proofs.Sequence
import Mathlib.Data.List.InsertIdx

/-! # Moving an element

Where both places exist, moving takes an element out at one and puts it back at the other
(`move_eq`).  So **without the element that was moved the list is the one it was**
(`eraseIdx_move`), and all else is read off that: the elements between the two places are one
place nearer to where the element came from (`getElem?_pred_move`, `getElem?_succ_move`), those
outside stay, and moving it back restores the list (`move_move`).
-/
namespace Bookmarks.Sequence

variable {α β : Type} {source target k : Nat} {x : α} {xs : List α}

theorem move_of_not_inside (h : source = target ∨ xs.length ≤ source ∨ xs.length ≤ target) :
    move source target xs = xs :=
  if_pos h

/-- Where both places are there, the element at the one is taken out and put back at the
other. -/
theorem move_eq (hsource : xs[source]? = some x) (htarget : target < xs.length) :
    move source target xs = (xs.eraseIdx source).insertIdx target x := by
  obtain ⟨hlt, rfl⟩ := List.getElem?_eq_some_iff.mp hsource
  unfold move
  by_cases heq : source = target
  · subst heq
    rw [if_pos (Or.inl rfl), List.insertIdx_eraseIdx_getElem hlt]
  · have hin : ¬ (source = target ∨ xs.length ≤ source ∨ xs.length ≤ target) := by omega
    rw [if_neg hin, hsource]

theorem map_move (f : α → β) (source target : Nat) (xs : List α) :
    (move source target xs).map f = move source target (xs.map f) := by
  unfold move
  rw [List.length_map]
  split
  · rfl
  · rw [List.getElem?_map]
    cases xs[source]? with
    | none => rfl
    | some x => simp only [Option.map_some, List.map_insertIdx, List.eraseIdx_map]

@[simp] theorem length_move (source target : Nat) (xs : List α) : (move source target xs).length = xs.length :=
  (move_perm source target xs).length_eq

/-- The others keep their order. -/
theorem eraseIdx_move (hsource : source < xs.length) (htarget : target < xs.length) :
    (move source target xs).eraseIdx target = xs.eraseIdx source := by
  rw [move_eq (List.getElem?_eq_getElem hsource) htarget]
  exact List.eraseIdx_insertIdx_self _

/-- What stands at a place of the list without the element that was moved. -/
theorem getElem?_eraseIdx_move (hsource : source < xs.length) (htarget : target < xs.length) (k : Nat) :
    (if k < target then (move source target xs)[k]? else (move source target xs)[k + 1]?) =
      if k < source then xs[k]? else xs[k + 1]? := by
  rw [← List.getElem?_eraseIdx, ← List.getElem?_eraseIdx, eraseIdx_move hsource htarget]

/-- What stood between the two places, or at the target, moves down when an element is moved
up. -/
theorem getElem?_pred_move (htarget : target < xs.length) (hk : source < k) (hkt : k ≤ target) :
    (move source target xs)[k - 1]? = xs[k]? := by
  have h := getElem?_eraseIdx_move (by omega : source < xs.length) htarget (k - 1)
  have hpred : k - 1 + 1 = k := by omega
  rwa [if_pos (by omega), if_neg (by omega), hpred] at h

/-- What stood between the two places, or at the target, moves up when an element is moved
down. -/
theorem getElem?_succ_move (hsource : source < xs.length) (hk : target ≤ k) (hks : k < source) :
    (move source target xs)[k + 1]? = xs[k]? := by
  have h := getElem?_eraseIdx_move hsource (by omega : target < xs.length) k
  rwa [if_neg (by omega), if_pos hks] at h

/-- What stood before or behind both places stays. -/
theorem getElem?_move_of_outside (hsource : source < xs.length) (htarget : target < xs.length)
    (hk : k < source ∧ k < target ∨ source < k ∧ target < k) : (move source target xs)[k]? = xs[k]? := by
  rcases hk with ⟨hks, hkt⟩ | ⟨hks, hkt⟩
  · have h := getElem?_eraseIdx_move hsource htarget k
    rwa [if_pos hkt, if_pos hks] at h
  · have h := getElem?_eraseIdx_move hsource htarget (k - 1)
    have hpred : k - 1 + 1 = k := by omega
    rwa [if_neg (by omega), if_neg (by omega), hpred] at h

/-- Moving an element back restores the list. -/
theorem move_move (source target : Nat) (xs : List α) : move target source (move source target xs) = xs := by
  by_cases h : source = target ∨ xs.length ≤ source ∨ xs.length ≤ target
  · rw [move_of_not_inside h, move_of_not_inside (by omega)]
  · have hsource : source < xs.length := by omega
    have htarget : target < xs.length := by omega
    have hback : (move source target xs)[target]? = some xs[source] := by
      rw [getElem?_move hsource htarget, List.getElem?_eq_getElem hsource]
    rw [move_eq hback (by rwa [length_move]), eraseIdx_move hsource htarget]
    exact List.insertIdx_eraseIdx_getElem hsource

/-- **Moving takes one element to another place and leaves the others in their order.**  Where
the places are the same or one of them does not exist, nothing happens.  Otherwise the elements
are kept, the one at the source stands at the target, and the others follow one another as
before: those between the two places stand one place nearer to the source, and those before
or behind both stay.  Moving back restores the list in any case. -/
theorem one_moved_and_moved_back (source target : Nat) (xs : List α) :
    (source = target ∨ xs.length ≤ source ∨ xs.length ≤ target → move source target xs = xs) ∧
    (source ≠ target → source < xs.length → target < xs.length →
      (move source target xs).Perm xs ∧
      (move source target xs)[target]? = xs[source]? ∧
      (move source target xs).eraseIdx target = xs.eraseIdx source ∧
      (∀ k, source < k → k ≤ target → (move source target xs)[k - 1]? = xs[k]?) ∧
      (∀ k, target ≤ k → k < source → (move source target xs)[k + 1]? = xs[k]?) ∧
      ∀ k, k < source ∧ k < target ∨ source < k ∧ target < k → (move source target xs)[k]? = xs[k]?) ∧
    move target source (move source target xs) = xs := by
  refine ⟨move_of_not_inside, fun _ hsource htarget => ?_, move_move source target xs⟩
  exact ⟨move_perm source target xs, getElem?_move hsource htarget, eraseIdx_move hsource htarget,
    fun k => getElem?_pred_move htarget, fun k => getElem?_succ_move hsource,
    fun k => getElem?_move_of_outside hsource htarget⟩

/-- The first of four letters at the third place, the last at the first, and one that has no
place to go to. -/
theorem letters_moved_up_and_down :
    let letters := ['a', 'b', 'c', 'd']
    ((move 0 2 letters)[2]? = letters[0]? ∧ (move 0 2 letters)[1 - 1]? = letters[1]? ∧
      (move 0 2 letters)[3]? = letters[3]?) ∧
    ((move 3 0 letters)[0]? = letters[3]? ∧ (move 3 0 letters)[0 + 1]? = letters[0]?) ∧
    move 1 4 letters = letters := by
  intro letters
  obtain ⟨-, hup, -⟩ := one_moved_and_moved_back 0 2 letters
  obtain ⟨-, hfirst, -, hpred, -, hstay⟩ := hup (by decide) (by decide) (by decide)
  obtain ⟨-, hdown, -⟩ := one_moved_and_moved_back 3 0 letters
  obtain ⟨-, hlast, -, -, hsucc, -⟩ := hdown (by decide) (by decide) (by decide)
  obtain ⟨hoff, -, -⟩ := one_moved_and_moved_back 1 4 letters
  exact ⟨⟨hfirst, hpred 1 (by decide) (by decide), hstay 3 (by decide)⟩,
    ⟨hlast, hsucc 0 (by decide) (by decide)⟩, hoff (by decide)⟩

end Bookmarks.Sequence
