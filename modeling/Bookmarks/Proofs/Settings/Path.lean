import Bookmarks.Json.Basic
import Bookmarks.Settings.Path
import Mathlib.Data.List.Basic

/-! # Where a value can be put

A key is taken apart into the members on the way to a place, and no two keys name the same way
(`fields_injective`).  **A value can be put exactly where a way leads already**
(`exists_replaceBelow_iff`): nothing is added to a document, and nothing has members but an
object.
-/
namespace Bookmarks

theorem Text.fields_injective (separator : Char) : Function.Injective (Text.fields separator) := by
  intro s t h
  have hfields : Text.splitAt separator s.toList = Text.splitAt separator t.toList :=
    List.map_injective_iff.mpr (fun _ _ => String.ofList_inj.mp) h
  rw [← String.toList_inj, ← Text.joinWith_splitAt separator s.toList, hfields, Text.joinWith_splitAt]

namespace Json

/-- What a way through the members of objects leads to. -/
def at? : List String → Json → Option Json
  | [], document => some document
  | segment :: way, document => (document.get? segment).bind (at? way)

theorem isSome_replaceMember? (key : String) (value : Json) (members : List (String × Json)) :
    (replaceMember? key value members).isSome = (lookup key members).isSome := by
  induction members with
  | nil => rfl
  | cons m members ih =>
    obtain ⟨k, v⟩ := m
    unfold replaceMember? lookup
    split
    · rfl
    · rw [Option.isSome_map, ih]

end Json

namespace Path

open Json

variable {leaf key : String} {value document : Json}

/-- The way to a member of the document itself. -/
theorem exists_replaceBelow_nil_iff :
    (∃ next, replaceBelow leaf value [] document = .ok next) ↔ ∃ member, document.get? leaf = some member := by
  cases document with
  | object members =>
    have hsome := isSome_replaceMember? leaf value members
    unfold replaceBelow
    simp only [get?]
    cases hreplaced : replaceMember? leaf value members with
    | none =>
      rw [hreplaced, eq_comm, Option.isSome_none, Option.isSome_eq_false_iff, Option.isNone_iff_eq_none] at hsome
      simp only [hsome, reduceCtorEq, exists_false]
    | some replaced =>
      rw [hreplaced, eq_comm, Option.isSome_some] at hsome
      exact ⟨fun _ => Option.isSome_iff_exists.mp hsome, fun _ => ⟨_, rfl⟩⟩
  | _ => simp only [replaceBelow, get?, reduceCtorEq, exists_false]

/-- **A value can be put exactly where the way leads to something.**  By induction on the
members on the way; whatever was put below, the way back up is open. -/
theorem exists_replaceBelow_iff {parents : List String} :
    (∃ next, replaceBelow leaf value parents document = .ok next) ↔
      ∃ old, document.at? (parents ++ [leaf]) = some old := by
  induction parents generalizing document with
  | nil =>
    rw [exists_replaceBelow_nil_iff, List.nil_append, at?, show at? [] = some from rfl, Option.bind_fun_some]
  | cons segment parents ih =>
    rw [List.cons_append, at?]
    cases document with
    | object members =>
      simp only [get?]
      cases hchild : lookup segment members with
      | none =>
        simp only [replaceBelow, hchild, reduceCtorEq, exists_false, Option.bind_none]
      | some child =>
        rw [Option.bind_some, ← ih]
        cases hbelow : replaceBelow leaf value parents child with
        | error fault =>
          simp only [replaceBelow, hchild, hbelow, reduceCtorEq, exists_false]
        | ok below =>
          have hsome := isSome_replaceMember? segment below members
          rw [hchild] at hsome
          obtain ⟨replaced, hreplaced⟩ := Option.isSome_iff_exists.mp hsome
          simp only [replaceBelow, hchild, hbelow, hreplaced]
          exact ⟨fun _ => ⟨below, rfl⟩, fun _ => ⟨_, rfl⟩⟩
    | _ => simp only [replaceBelow, get?, reduceCtorEq, exists_false, Option.bind_none]

/-- The members on the way of a key, the last one included. -/
theorem parents_append_leaf (key : String) : (ofKey key).parents ++ [(ofKey key).leaf] = Text.fields '.' key := by
  have hne : Text.fields '.' key ≠ [] := fun h =>
    Text.splitAt_ne_nil '.' key.toList (List.map_eq_nil_iff.mp h)
  show (Text.fields '.' key).dropLast ++ [(Text.fields '.' key).getLastD ""] = _
  rw [List.getLastD_eq_getLast?, List.getLast?_eq_some_getLast hne, Option.getD_some,
    List.dropLast_concat_getLast]

/-- A value can be put exactly where the fields of the key lead to something. -/
theorem exists_replace_iff : (∃ next, (ofKey key).replace value document = .ok next) ↔
    ∃ old, document.at? (Text.fields '.' key) = some old := by
  rw [← parents_append_leaf]
  exact exists_replaceBelow_iff

end Path

end Bookmarks
