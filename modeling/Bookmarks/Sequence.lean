/-! # Sequences

Four operations on lists that know nothing of links: a stable sort, moving one
element to the place of another, changing the first element that fits, and giving
ranks to the elements at chosen places.
-/
namespace Bookmarks.Sequence

variable {α : Type}

/-! ## Sorting -/

/-- A list with one more element, before the first that it may stand before. -/
def insertSorted (le : α → α → Bool) (x : α) : List α → List α
  | [] => [x]
  | y :: ys => if le x y then x :: y :: ys else y :: insertSorted le x ys

/-- The elements in order; elements that may stand either way keep their order. -/
def sortBy (le : α → α → Bool) : List α → List α
  | [] => []
  | x :: xs => insertSorted le x (sortBy le xs)

@[simp] theorem sortBy_nil (le : α → α → Bool) : sortBy le [] = [] := rfl

theorem insertSorted_perm (le : α → α → Bool) (x : α) (xs : List α) :
    (insertSorted le x xs).Perm (x :: xs) := by
  induction xs with
  | nil => exact .refl _
  | cons y ys ih =>
    unfold insertSorted
    split
    · exact .refl _
    · exact (ih.cons y).trans (.swap x y ys)

/-- Sorting neither loses nor invents an element. -/
theorem sortBy_perm (le : α → α → Bool) (xs : List α) : (sortBy le xs).Perm xs := by
  induction xs with
  | nil => exact .refl _
  | cons x xs ih => exact (insertSorted_perm le x _).trans (ih.cons x)

@[simp] theorem length_sortBy (le : α → α → Bool) (xs : List α) :
    (sortBy le xs).length = xs.length :=
  (sortBy_perm le xs).length_eq

@[simp] theorem mem_sortBy {le : α → α → Bool} {xs : List α} {x : α} : x ∈ sortBy le xs ↔ x ∈ xs :=
  (sortBy_perm le xs).mem_iff

/-! ## Moving -/

/-- Takes the element at `source` out and puts it back at `target`.  Nothing
happens where one of the places does not exist. -/
def move (source target : Nat) (xs : List α) : List α :=
  if source = target ∨ xs.length ≤ source ∨ xs.length ≤ target then xs
  else
    match xs[source]? with
    | some x => (xs.eraseIdx source).insertIdx target x
    | none => xs

/-! ## Changing one element -/

/-- The list with the first element that fits changed, if one does. -/
def modifyFirst? (fits : α → Bool) (change : α → α) : List α → Option (List α)
  | [] => none
  | x :: xs => if fits x then some (change x :: xs) else (modifyFirst? fits change xs).map (x :: ·)

/-- There is an element to change exactly when one fits. -/
theorem modifyFirst?_isSome (fits : α → Bool) (change : α → α) (xs : List α) :
    (modifyFirst? fits change xs).isSome = xs.any fits := by
  induction xs with
  | nil => rfl
  | cons x xs ih =>
    unfold modifyFirst?
    by_cases h : fits x <;> simp [h, ih]

/-! ## Ranks -/

/-- The elements that count, each with its index, in the order of their ranks. -/
def ranked (counts : α → Bool) (rank : α → Int) (xs : List α) : List (α × Nat) :=
  sortBy (fun p q => decide (rank p.1 ≤ rank q.1)) (xs.zipIdx.filter fun p => counts p.1)

/-- Gives the element at the index that stands `k`-th in `places` the rank `k`,
and leaves the elements at other indices alone. -/
def renumber (assign : Nat → α → α) (places : List Nat) (xs : List α) : List α :=
  xs.mapIdx fun i x =>
    match places.idxOf? i with
    | some k => assign k x
    | none => x

@[simp] theorem length_renumber (assign : Nat → α → α) (places : List Nat) (xs : List α) :
    (renumber assign places xs).length = xs.length := by
  simp [renumber]

end Bookmarks.Sequence
