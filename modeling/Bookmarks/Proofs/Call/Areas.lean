import Bookmarks.Call.Basic

/-! # What a request is about

A method has the name of an area in front.  Here the names are tied to the calls: **a
request that is understood asks for a call of the area that its method names**
(`ofRequest_area`), whatever its parameters are.  What is proved of the calls of an area
is then known of every request with its name in front.
-/
namespace Bookmarks

/-- The part of the application that a call is about. -/
inductive Area where
  | collection
  | settings
  | vault
  /-- No part of it. -/
  | nothing
  deriving DecidableEq, Repr

/-- A method has a name in front. -/
def IsUnder (name method : String) : Prop := name.toList <+: method.toList

instance (name method : String) : Decidable (IsUnder name method) :=
  inferInstanceAs (Decidable (_ <+: _))

namespace Area

/-- The method has the name of the collection, or of a part of it, in front. -/
def IsOfCollection (method : String) : Prop :=
  IsUnder "link." method ∨ IsUnder "category." method ∨ IsUnder "data." method

instance (method : String) : Decidable (IsOfCollection method) :=
  inferInstanceAs (Decidable (_ ∨ _))

/-- The area that a method names. -/
def ofMethod (method : String) : Area :=
  if IsUnder "vault." method then .vault
  else if IsOfCollection method then .collection
  else if IsUnder "settings." method then .settings
  else .nothing

/-- Of two names in front of one method, one is in front of the other. -/
theorem isUnder_or_isUnder {name name' method : String} (h : IsUnder name method) (h' : IsUnder name' method) :
    IsUnder name name' ∨ IsUnder name' name :=
  List.prefix_or_prefix_of_prefix h h'

theorem not_isUnder_vault {method : String} (h : IsOfCollection method) : ¬ IsUnder "vault." method := by
  intro hvault
  rcases h with h | h | h
  · exact absurd (isUnder_or_isUnder hvault h) (by decide)
  · exact absurd (isUnder_or_isUnder hvault h) (by decide)
  · exact absurd (isUnder_or_isUnder hvault h) (by decide)

theorem ofMethod_of_vault {method : String} (h : IsUnder "vault." method) : ofMethod method = .vault :=
  if_pos h

theorem ofMethod_of_collection {method : String} (h : IsOfCollection method) : ofMethod method = .collection := by
  rw [ofMethod, if_neg (not_isUnder_vault h), if_pos h]

theorem ofMethod_ne_vault {method : String} (h : ¬ IsUnder "vault." method) : ofMethod method ≠ .vault := by
  rw [ofMethod, if_neg h]
  split
  · exact Area.noConfusion
  · split <;> exact Area.noConfusion

end Area

namespace Call

/-- The area of a call. -/
def area : Call → Area
  | .ping => .nothing
  | .listLinks _ | .listPinned | .change _ | .listCategories | .exportData => .collection
  | .getSettings | .setSetting _ _ => .settings
  | .vaultStatus | .callVault _ | .lockVault | .vaultLinks | .getFlags | .setFlags _ => .vault

/-- The methods that only tell something. -/
def tellingMethods : List String :=
  ["ping", "link.list", "link.pinned", "category.list", "data.export", "settings.get", "vault.status",
    "vault.links", "vault.flags.get"]

/-- The methods that are refused while the vault is switched off. -/
def gatedMethods : List String :=
  ["vault.unlock", "vault.changePassword", "vault.add", "vault.update", "vault.delete", "vault.togglePin",
    "vault.reorder", "vault.reorderPinned"]

/-- All methods. -/
def methods : List String :=
  tellingMethods ++ gatedMethods ++
    ["link.add", "link.update", "link.delete", "link.togglePin", "link.reorder", "link.reorderPinned",
      "category.add", "category.update", "category.delete", "data.import", "settings.set", "vault.lock",
      "vault.flags.set"]

/-! ## Requests -/

/-- A request that is understood asks for a call with a property. -/
def Asks (P : Call → Prop) (request : Except CallError Call) : Prop :=
  ∀ call, request = .ok call → P call

variable {P : Call → Prop}

theorem asks_ok {call : Call} (h : P call) : Asks P (.ok call) := by
  rintro _ ⟨⟩
  exact h

theorem asks_error (e : CallError) : Asks P (.error e) := by
  rintro call ⟨⟩

/-- A parameter is read first. -/
theorem asks_bind {α : Type} {read : Except CallError α} {ask : α → Except CallError Call}
    (h : ∀ x, Asks P (ask x)) : Asks P (read >>= ask) := by
  cases read with
  | error e => exact asks_error e
  | ok x => exact h x

/-- **A request asks for a call of the area that its method names.** -/
theorem ofRequest_area (method : String) (params : Json) :
    Asks (·.area = Area.ofMethod method) (ofRequest method params) := by
  unfold ofRequest
  split
  -- A branch ends in its call after no, one or two reads; only the value of a setting,
  -- which may be anything, is looked up and not read.
  all_goals first
    | exact asks_ok rfl
    | exact asks_error _
    | exact asks_bind fun _ => asks_ok rfl
    | exact asks_bind fun _ => asks_bind fun _ => asks_ok rfl
    | refine asks_bind fun _ => ?_
      split
      · exact asks_ok rfl
      · exact asks_error _

/-- A call that only tells something. -/
def Tells : Call → Prop
  | .ping | .listLinks _ | .listPinned | .listCategories | .exportData | .getSettings | .vaultStatus | .vaultLinks
  | .getFlags => True
  | _ => False

theorem ofRequest_tells {method : String} (h : method ∈ tellingMethods) (params : Json) :
    Asks Tells (ofRequest method params) := by
  simp only [tellingMethods, List.mem_cons, List.not_mem_nil, or_false] at h
  rcases h with rfl | rfl | rfl | rfl | rfl | rfl | rfl | rfl | rfl <;> exact asks_ok trivial

/-- A call that may need a key. -/
def IsGated (call : Call) : Prop := ∃ vaultCall, call = .callVault vaultCall

theorem ofRequest_gated {method : String} (h : method ∈ gatedMethods) (params : Json) :
    Asks IsGated (ofRequest method params) := by
  simp only [gatedMethods, List.mem_cons, List.not_mem_nil, or_false] at h
  rcases h with rfl | rfl | rfl | rfl | rfl | rfl | rfl | rfl <;> exact asks_bind fun _ => asks_ok ⟨_, rfl⟩

theorem ofRequest_unknown {method : String} (h : method ∉ methods) (params : Json) :
    ofRequest method params = .error (.unknownMethod method) := by
  unfold ofRequest
  split
  all_goals first
    | exact absurd (by decide) h
    | rfl

end Call

end Bookmarks
