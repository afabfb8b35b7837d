import Bookmarks.Text.Fields

/-! # Taking fields apart

Fields that do not hold the separator are taken apart as they were put together, whether
it stands between any two of them or behind each of them.
-/
namespace Bookmarks.Text

variable {α : Type} [DecidableEq α] {separator : α}

theorem splitAt_of_not_mem {field : List α} (h : separator ∉ field) : splitAt separator field = [field] := by
  induction field with
  | nil => rfl
  | cons c field ih =>
    have hc : c ≠ separator := Ne.symm (List.ne_of_not_mem_cons h)
    rw [splitAt, if_neg hc, ih (List.not_mem_of_not_mem_cons h)]

theorem splitAt_append {field : List α} (h : separator ∉ field) (rest : List α) :
    splitAt separator (field ++ separator :: rest) = field :: splitAt separator rest := by
  induction field with
  | nil => rw [List.nil_append, splitAt, if_pos rfl]
  | cons c field ih =>
    have hc : c ≠ separator := Ne.symm (List.ne_of_not_mem_cons h)
    rw [List.cons_append, splitAt, if_neg hc, ih (List.not_mem_of_not_mem_cons h)]

/-- **Fields are taken apart as they were put together.** -/
theorem splitAt_joinWith {fields : List (List α)} (hne : fields ≠ []) (h : ∀ field ∈ fields, separator ∉ field) :
    splitAt separator (joinWith separator fields) = fields := by
  induction fields with
  | nil => exact absurd rfl hne
  | cons field fields ih =>
    obtain ⟨hfield, hfields⟩ := List.forall_mem_cons.mp h
    cases fields with
    | nil => exact splitAt_of_not_mem hfield
    | cons next fields =>
      rw [joinWith, splitAt_append hfield, ih (by simp) hfields]
      intro h
      cases h

omit [DecidableEq α] in
theorem joinWith_forall {P : α → Prop} {fields : List (List α)} (hseparator : P separator)
    (h : ∀ field ∈ fields, ∀ c ∈ field, P c) : ∀ c ∈ joinWith separator fields, P c := by
  induction fields with
  | nil => nofun
  | cons field fields ih =>
    obtain ⟨hfield, hfields⟩ := List.forall_mem_cons.mp h
    cases fields with
    | nil => exact hfield
    | cons next fields =>
      intro c hc
      rcases List.mem_append.mp hc with hc | hc
      · exact hfield c hc
      · rcases List.mem_cons.mp hc with rfl | hc
        · exact hseparator
        · exact ih hfields c hc

/-- **Lines are taken apart as they were ended**, with nothing behind the last end. -/
theorem splitAt_flatMap {fields : List (List α)} (h : ∀ field ∈ fields, separator ∉ field) :
    splitAt separator (fields.flatMap (· ++ [separator])) = fields ++ [[]] := by
  induction fields with
  | nil => rfl
  | cons field fields ih =>
    obtain ⟨hfield, hfields⟩ := List.forall_mem_cons.mp h
    rw [List.flatMap_cons, List.append_assoc, List.singleton_append, splitAt_append hfield, ih hfields]
    rfl

end Bookmarks.Text
