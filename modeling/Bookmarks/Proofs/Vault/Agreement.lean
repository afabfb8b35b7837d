import Bookmarks.Proofs.Vault.Counterpart

/-! # The vault and the store stay in agreement

A vault and a store *agree* when the vault is unlocked with the links of the store, and
those are private links of a store that has their category.  A command to the vault and
its counterpart to the store keep them in agreement and are answered alike, as long as
both storages take what is written (`Agree.step`); so two runs of such commands show the
same links after every call (`vault_and_store_agree`).

The links need not be in order, nor have ids of their own.
-/
namespace Bookmarks

/-- The answers say the same: the call is done, or made something under the same id, or
fails for the same cause, with the same text inside. -/
inductive Corresponds : Except VaultError VaultReply → Except StoreError Reply → Prop where
  | done : Corresponds (.ok .done) (.ok .done)
  | created (id : String) : Corresponds (.ok (.created id)) (.ok (.created id))
  | linkNotFound (id : String) : Corresponds (.error (.linkNotFound id)) (.error (.linkNotFound id))
  | invalidLink (reason : String) : Corresponds (.error (.invalidLink reason)) (.error (.invalidLink reason))

theorem corresponds_ofLink (e : LinkError) : Corresponds (.error (.ofLink e)) (.error (.ofLink e)) := by
  cases e with
  | notFound id => exact .linkNotFound id
  | invalid reason => exact .invalidLink reason.message

theorem VaultCommand.corresponds_reply {supply : Supply} {links next : Shelf} {command : VaultCommand}
    {reply : VaultReply} (hp : command.perform supply links = .ok (next, reply)) :
    Corresponds (.ok reply) (.ok reply.counterpart) := by
  rcases perform_reply hp with rfl | ⟨id, rfl⟩
  · exact .done
  · exact .created id

/-- The vault holds the links of the store, and both storages take what is written. -/
structure Agree (password : String) (vault : Vault) (vaultStorage : Storage) (store : Store) (storage : Storage) :
    Prop where
  vault : vault = .unlocked password store.links
  isPrivate : ∀ l ∈ store.links, l.IsPrivate
  known : Category.isKnown store.categories Category.privateId = true
  vaultWrites : vaultStorage.refusesWrites = false
  storeWrites : storage.refusesWrites = false

section Step
variable {password : String} {vault : Vault} {vaultStorage storage : Storage} {store : Store}

/-- **A command and its counterpart are answered alike and keep the agreement.** -/
theorem Agree.step (h : Agree password vault vaultStorage store storage) (cipher : Cipher) (supply : Supply)
    (command : VaultCommand) :
    let v := vault.run cipher supply vaultStorage (.edit command)
    let s := store.run supply storage command.counterpart
    Corresponds v.answer s.answer ∧ Agree password v.vault v.storage s.store s.storage := by
  obtain ⟨rfl, hprivate, hknown, hvault, hstore⟩ := h
  intro v s
  have hv : v = _ := Vault.run_edit_eq cipher supply password store.links vaultStorage command
  have hperform := Collection.perform_counterpart hprivate hknown supply command
  cases hp : command.perform supply store.links with
  | error e =>
    rw [show store.collection.links = store.links from rfl, hp] at hperform
    have hs : s = _ := Store.run_of_rejected hperform storage
    rw [hp] at hv
    rw [hv, hs]
    exact ⟨corresponds_ofLink e, rfl, hprivate, hknown, hvault, hstore⟩
  | ok done =>
    obtain ⟨next, reply⟩ := done
    have hreply := VaultCommand.corresponds_reply hp
    rw [show store.collection.links = store.links from rfl, hp] at hperform
    rw [hp] at hv
    by_cases hsame : command.isReorder ∧ next = store.links
    · -- Neither writes an order that is there already.
      dsimp only at hperform hv
      rw [if_pos hsame] at hperform hv
      have hs : s = _ := Store.run_of_no_change hperform storage
      rw [hv, hs]
      exact ⟨hreply, rfl, hprivate, hknown, hvault, hstore⟩
    · dsimp only at hperform hv
      rw [if_neg hsame] at hperform hv
      have hs : s = _ := Store.run_of_change hperform storage
      rw [hv, hs, Vault.writeToken_eq, hvault, hstore]
      refine ⟨hreply, rfl, VaultCommand.perform_isPrivate hprivate hp, hknown, ?_, ?_⟩
      · exact Storage.refusesWrites_write.trans hvault
      · exact Storage.refusesWrites_write.trans hstore

end Step

/-! ## Runs -/

/-- What a vault answers to commands, one after the other, and its links after each. -/
def Vault.trace (cipher : Cipher) : Vault → Storage → List (Supply × VaultCommand) →
    List (Except VaultError VaultReply × Except VaultError (List Link))
  | _, _, [] => []
  | vault, storage, (supply, command) :: commands =>
    let outcome := vault.run cipher supply storage (.edit command)
    (outcome.answer, outcome.vault.links) :: trace cipher outcome.vault outcome.storage commands

/-- What a store answers to commands, one after the other, and its links after each. -/
def Store.trace : Store → Storage → List (Supply × Command) → List (Except StoreError Reply × List Link)
  | _, _, [] => []
  | store, storage, (supply, command) :: commands =>
    let outcome := store.run supply storage command
    (outcome.answer, outcome.store.links) :: trace outcome.store outcome.storage commands

theorem Agree.traces {password : String} {vault : Vault} {vaultStorage storage : Storage} {store : Store}
    (h : Agree password vault vaultStorage store storage) (cipher : Cipher) (commands : List (Supply × VaultCommand)) :
    List.Forall₂ (fun v s => Corresponds v.1 s.1 ∧ v.2 = .ok s.2) (vault.trace cipher vaultStorage commands)
      (store.trace storage (commands.map fun c => (c.1, c.2.counterpart))) := by
  induction commands generalizing vault vaultStorage store storage with
  | nil => exact .nil
  | cons c commands ih =>
    obtain ⟨hanswers, hagree⟩ := h.step cipher c.1 c.2
    refine .cons ⟨hanswers, ?_⟩ (ih hagree)
    dsimp only
    rw [hagree.vault]
    rfl

/-- **The vault and the store perform the same changes of links.**  An unlocked vault and a
store that has the private category hold the same links, in the private category and with
their addresses in the stored form.  Then whatever commands are given to the vault and, as
their counterparts, to the store, with the same supplies and with every write accepted:
after each of them both hold the same links, and either both have succeeded or both have
failed, because there is no such link or because the link would be invalid, with the same
text inside. -/
theorem vault_and_store_agree (cipher : Cipher) (password : String) (store : Store) (vaultStorage storage : Storage)
    (hvault : vaultStorage.refusesWrites = false) (hstore : storage.refusesWrites = false)
    (hurl : ∀ l ∈ store.links, Url.IsNormal l.url) (hcategory : ∀ l ∈ store.links, l.categoryId = "private")
    (hknown : ∃ c ∈ store.categories, c.id = "private") (commands : List (Supply × VaultCommand)) :
    List.Forall₂ (fun v s => Corresponds v.1 s.1 ∧ v.2 = .ok s.2)
      ((Vault.unlocked password store.links).trace cipher vaultStorage commands)
      (store.trace storage (commands.map fun c => (c.1, c.2.counterpart))) := by
  have hagree : Agree password (.unlocked password store.links) vaultStorage store storage :=
    { vault := rfl
      isPrivate := fun l hl => ⟨hurl l hl, hcategory l hl⟩
      known := Category.isKnown_iff.mpr hknown
      vaultWrites := hvault
      storeWrites := hstore }
  exact hagree.traces cipher commands

/-- Two links with one id that are not in order; the first of them is pinned, and then an
update of a link that is not there is asked for. -/
theorem agree_on_links_of_one_id :
    let supply : Supply := ⟨fun _ => "93a0e5d7-2c48-4b1f-8e6d-000000000000", 4, Supply.cut 16 [], Supply.cut 12 []⟩
    let link (url : String) (order : Int) : Link :=
      ⟨"twin", url, "Twin", none, "private", none, false, some order, none, 0⟩
    let store : Store := ⟨⟨[link "https://a.example" 7, link "https://b.example" 2],
      [Category.common, ⟨"private", "Private", "Lock"⟩]⟩, .persisted, false⟩
    let unknown : Update := ⟨"nobody", none, some "Title", none, none, none, none⟩
    List.Forall₂ (fun v s => Corresponds v.1 s.1 ∧ v.2 = .ok s.2)
      ((Vault.unlocked "pw" store.links).trace .standard Storage.empty [(supply, .togglePin "twin"), (supply, .update unknown)])
      (store.trace Storage.empty [(supply, .togglePin "twin"), (supply, .updateLink unknown)]) := by
  intro supply link store unknown
  exact vault_and_store_agree .standard "pw" store Storage.empty Storage.empty rfl rfl (by decide) (by decide)
    ⟨⟨"private", "Private", "Lock"⟩, by decide, rfl⟩ [(supply, .togglePin "twin"), (supply, .update unknown)]

end Bookmarks
