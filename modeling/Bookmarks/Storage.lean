/-! # Storage

What is kept from one run to the next is a table of whole texts under fixed keys.
A storage may refuse to be read and may refuse to be written; a refused write
leaves the table as it was.

The storage also keeps a record of the attempts to write to it.  What an
operation wrote, and that it wrote nothing, can be read off from there.
-/
namespace Bookmarks

/-- Why a storage gives no answer. -/
inductive StorageError where
  | backend (reason : String)
  deriving DecidableEq, Repr

namespace StorageError

/-- The wording of the reason. -/
def message : StorageError → String
  | .backend reason => "Key-value store error: " ++ reason

/-- The answer to a read that is refused. -/
def readRefused : StorageError := .backend "read refused"

/-- The answer to a write that is refused. -/
def writeRefused : StorageError := .backend "write refused"

end StorageError

/-- An attempt to put a text, or nothing, under a key. -/
structure Attempt where
  key : String
  text : Option String
  accepted : Bool
  deriving DecidableEq, Repr

/-- A table of texts, with what it refuses and what was tried so far. -/
structure Storage where
  entries : List (String × String)
  refusesReads : Bool
  refusesWrites : Bool
  /-- The attempts to write, the latest first. -/
  attempts : List Attempt
  deriving DecidableEq, Repr

namespace Storage

/-- The key of the collection. -/
def dataKey : String := "linkdeck_data_cache_v2"

/-- The key of the sealed vault. -/
def tokenKey : String := "linkdeck_private_vault"

/-- The key of the flags of the vault. -/
def flagsKey : String := "linkdeck_private_vault_flags"

/-- A storage that holds nothing and refuses nothing. -/
def empty : Storage := ⟨[], false, false, []⟩

/-- The text under a key. -/
def stored (s : Storage) (key : String) : Option String :=
  s.entries.lookup key

/-- The table with a text, or nothing, under a key. -/
def replaceEntry (entries : List (String × String)) (key : String) (text : Option String) :
    List (String × String) :=
  let others := entries.filter (·.1 != key)
  match text with
  | some t => (key, t) :: others
  | none => others

/-- The storage with a text, or nothing, under a key, whatever it refuses. -/
def put (s : Storage) (key : String) (text : Option String) : Storage :=
  { s with entries := replaceEntry s.entries key text }

/-- Asks for the text under a key. -/
def read (s : Storage) (key : String) : Except StorageError (Option String) :=
  if s.refusesReads then .error .readRefused else .ok (s.stored key)

/-- Tries to put a text, or nothing, under a key. -/
def write (s : Storage) (key : String) (text : Option String) : Except StorageError Unit × Storage :=
  if s.refusesWrites then
    (.error .writeRefused, { s with attempts := ⟨key, text, false⟩ :: s.attempts })
  else
    (.ok (), { s.put key text with attempts := ⟨key, text, true⟩ :: s.attempts })

/-- The number of accepted writes under a key. -/
def acceptedWrites (s : Storage) (key : String) : Nat :=
  s.attempts.countP fun a => a.key == key && a.accepted

/-- The version of the layout of a storage; zero stands for one without any. -/
def layoutVersion : Nat := 1

theorem lookup_filter_self (key : String) (entries : List (String × String)) :
    (entries.filter (·.1 != key)).lookup key = none := by
  rw [List.lookup_eq_none_iff]
  intro p hp
  have hne : p.1 ≠ key := by simpa using (List.mem_filter.mp hp).2
  exact bne_iff_ne.mpr (Ne.symm hne)

theorem lookup_filter_ne {key key' : String} (h : key' ≠ key) (entries : List (String × String)) :
    (entries.filter (·.1 != key)).lookup key' = entries.lookup key' := by
  induction entries with
  | nil => rfl
  | cons p entries ih =>
    obtain ⟨k, v⟩ := p
    by_cases hk : k = key
    · subst hk
      have hb : (key' == k) = false := beq_eq_false_iff_ne.mpr h
      simpa [List.lookup_cons, hb] using ih
    · have hb : (k != key) = true := by simpa using hk
      simp only [List.filter_cons, hb, if_true, List.lookup_cons, ih]

/-- What was put under a key is stored there. -/
@[simp] theorem stored_put_self (s : Storage) (key : String) (text : Option String) :
    (s.put key text).stored key = text := by
  unfold stored put replaceEntry
  cases text with
  | some t => simp only [List.lookup_cons, beq_self_eq_true]
  | none => exact lookup_filter_self key s.entries

/-- Another key keeps its text. -/
theorem stored_put_of_ne {key key' : String} (h : key' ≠ key) (s : Storage) (text : Option String) :
    (s.put key text).stored key' = s.stored key' := by
  unfold stored put replaceEntry
  cases text with
  | some t => simp only [List.lookup_cons, beq_eq_false_iff_ne.mpr h, lookup_filter_ne h]
  | none => exact lookup_filter_ne h s.entries

end Storage

end Bookmarks
