import Bookmarks.Proofs.Collection.Storable
import Bookmarks.Proofs.Vault.Sealing
import Bookmarks.Vault.Call

/-! # The private links and their token

The private links are sealed as one payload.  **Links that can be stored are opened
from the token they were sealed in**, links that were opened can be stored, and so can
those that a command makes of them.
-/
namespace Bookmarks

open Json Record

namespace Payload

/-- The members that a payload is written with. -/
def members (p : Payload) : List (String × Json) :=
  [("links", Link.codec.list.encode p.links)]

theorem codec_keeps {p : Payload} (h : ∀ l ∈ p.links, l.Storable) : codec.Keeps p := by
  have hlinks : Link.codec.list.Keeps p.links := Link.codec_list_keeps h
  have hkeys : (p.members.map Prod.fst).Nodup := by simp [members]
  have hrecord : record.ofMembers (toDocumentMembers p.members) = .ok (Payload.mk p.links) :=
    ofMembers_field (ofMembers_make _ _) (fieldOfMembers_of_lookup hkeys rfl hlinks.read)
  refine ⟨wholeMembers_iff.mpr ?_, read_object hrecord "PrivateVaultPayload"⟩
  simp only [List.forall_mem_cons, List.not_mem_nil, false_implies, implies_true, and_true]
  exact hlinks.whole

theorem codec_readsBack {p : Payload} (h : ∀ l ∈ p.links, l.Storable) : codec.ReadsBack p := by
  have hrecord : record.Steady := (steady_make Payload.mk).field Link.steady_read.readList
  refine (codec_keeps h).readsBack (hrecord.read "PrivateVaultPayload") ?_
  refine ⟨by simp, unambiguousMembers_iff.mpr ?_⟩
  simp only [List.forall_mem_cons, List.not_mem_nil, false_implies, implies_true, and_true]
  exact Codec.unambiguous_list fun l _ => Link.unambiguous_encode l

theorem storable_of_read {d : Document} {p : Payload} (h : codec.read d = .ok p) : ∀ l ∈ p.links, l.Storable := by
  have hrecord : record.Yields fun p => ∀ l ∈ p.links, l.Storable := by
    refine Yields.field (yields_make ?_) (fun _ _ => Link.storable_of_readList) nofun nofun
    exact fun links h => h
  exact hrecord.of_read h

theorem storable_of_openText {cipher : Cipher} {password text : String} {p : Payload}
    (h : codec.openText cipher password text = .ok p) : ∀ l ∈ p.links, l.Storable := by
  unfold Codec.openText at h
  obtain ⟨token, -, h⟩ := ok_of_bind h
  obtain ⟨bytes, -, h⟩ := ok_of_bind h
  split at h
  · next q hbytes =>
    obtain rfl := Except.ok.inj h
    obtain ⟨d, hread⟩ := Codec.read_of_ofSymbols hbytes
    exact storable_of_read hread
  · cases h

/-- A token that lets a payload in has been decrypted. -/
theorem plainBytes_of_accept {cipher : Cipher} {password text : String} {t : Token} {p : Payload}
    (ht : Token.ofText text = .ok t) (h : accept (codec.openText cipher password text) = some p) :
    ∃ bytes, Codec.plainBytes cipher password t = .ok bytes := by
  cases hplain : Codec.plainBytes cipher password t with
  | ok bytes => exact ⟨bytes, rfl⟩
  | error e =>
    have hopen : codec.openText cipher password text = .error e := by
      unfold Codec.openText
      rw [ht]
      simp only [Bind.bind, Except.bind, hplain]
    rw [hopen] at h
    -- neither of the two faults of decrypting is that of a payload
    unfold Codec.plainBytes Cipher.reveal at hplain
    split at hplain
    · obtain rfl := Except.error.inj hplain
      cases h
    · split at hplain
      · cases hplain
      · obtain rfl := Except.error.inj hplain
        cases h

end Payload

namespace Vault

variable {cipher : Cipher}

/-- **What is sealed under a password is what it opens.** -/
theorem openStored_sealText (hcipher : cipher.Lawful) (password : String) (salt : Octets 16) (nonce : Octets 12)
    {p : Payload} (h : ∀ l ∈ p.links, l.Storable) :
    openStored cipher password (some (Payload.codec.sealText cipher password salt nonce p)) = some p := by
  have hopen := (Payload.codec_keeps h).openText_sealText hcipher password salt nonce
  simp only [openStored, hopen, Payload.accept]

theorem storable_of_openStored {password : String} {stored : Option String} {p : Payload}
    (h : openStored cipher password stored = some p) : ∀ l ∈ p.links, l.Storable := by
  cases stored with
  | none =>
    obtain rfl := Option.some.inj h
    nofun
  | some token =>
    unfold openStored Payload.accept at h
    dsimp only at h
    split at h
    · next hopen =>
      obtain rfl := Option.some.inj h
      exact Payload.storable_of_openText hopen
    · obtain rfl := Option.some.inj h
      nofun
    · cases h

end Vault

/-! ## Commands on the private links -/

namespace VaultCommand

/-- What an edit makes of a private link: everything but these fields stays. -/
theorem editLink_eq_ok {u : Update} {l m : Link} (h : editLink u l = .ok m) : ∃ url title, m = { l with
    url := url, title := title
    description := Update.replaced u.description l.description
    icon := Update.replaced u.icon l.icon } := by
  unfold editLink at h
  -- with the two given fields known, an edit is one check after the other
  cases hurl : u.url <;> cases htitle : u.title <;>
  · simp only [hurl, htitle] at h
    obtain ⟨url, -, h⟩ := ok_of_bind h
    obtain ⟨title, -, h⟩ := ok_of_bind h
    exact ⟨url, title, (Except.ok.inj h).symm⟩

section
variable {supply : Supply} {links next : Shelf} {command : VaultCommand} {reply : VaultReply}

/-- What a command makes of private links. -/
inductive Becomes (supply : Supply) (links : Shelf) : VaultCommand → Shelf → Prop where
  | add {draft : Draft} {l : Link} (h : draft.toLink (supply.id 0) supply.now Category.privateId = .ok l) :
    Becomes supply links (.add draft) (Shelf.insert links l)
  | update {u : Update} {next : Shelf} (h : Shelf.update links u (editLink u) = .ok next) :
    Becomes supply links (.update u) next
  | delete {id : String} {next : Shelf} (h : Shelf.remove? links id = some next) :
    Becomes supply links (.delete id) next
  | togglePin {id : String} {next : Shelf} (h : Shelf.togglePin? links id = some next) :
    Becomes supply links (.togglePin id) next
  | reorder (activeId overId : String) : Becomes supply links (.reorder activeId overId)
    (Shelf.reorder links activeId overId (.category Category.privateId))
  | reorderPinned (activeId overId : String) : Becomes supply links (.reorderPinned activeId overId)
    (Shelf.reorder links activeId overId .pinned)

theorem perform_becomes (hp : command.perform supply links = .ok (next, reply)) :
    Becomes supply links command next := by
  cases command with
  | add draft =>
    obtain ⟨links', ha, heq⟩ := ok_of_map hp
    obtain ⟨rfl, -⟩ := Prod.mk.inj heq
    obtain ⟨l, hl, rfl⟩ := Shelf.add_eq_ok ha
    exact .add hl
  | update u =>
    obtain ⟨links', hu, heq⟩ := ok_of_map hp
    obtain ⟨rfl, -⟩ := Prod.mk.inj heq
    exact .update hu
  | delete id =>
    obtain ⟨links', hd, heq⟩ := ok_of_map hp
    obtain ⟨rfl, -⟩ := Prod.mk.inj heq
    exact .delete (Shelf.delete_eq_ok hd)
  | togglePin id =>
    obtain ⟨links', ht, heq⟩ := ok_of_map hp
    obtain ⟨rfl, -⟩ := Prod.mk.inj heq
    exact .togglePin (Shelf.togglePin_eq_ok ht)
  | reorder activeId overId =>
    obtain ⟨rfl, -⟩ := Prod.mk.inj (Except.ok.inj hp)
    exact .reorder activeId overId
  | reorderPinned activeId overId =>
    obtain ⟨rfl, -⟩ := Prod.mk.inj (Except.ok.inj hp)
    exact .reorderPinned activeId overId

/-- **What holds of links, new ones and edited ones, holds of the links after a command**, if
ranks make no difference to it: a command does to them what the operation on the shelf does
that it stands for. -/
theorem forall_perform {P : Link → Prop} {bound : Nat} (hP : Shelf.RankFree bound P) (hlen : links.length ≤ bound)
    (hlinks : ∀ l ∈ links, P l)
    (hnew : ∀ (draft : Draft) l, draft.toLink (supply.id 0) supply.now Category.privateId = .ok l →
      P (Shelf.inserted links l))
    (hedit : ∀ u l m, P l → editLink u l = .ok m → P m) (hp : command.perform supply links = .ok (next, reply)) :
    ∀ l ∈ next, P l := by
  cases perform_becomes hp with
  | add hl => exact Shelf.RankFree.insert hlinks (hnew _ _ hl)
  | @update u next hu => exact hP.update hlen hlinks (hedit u) hu
  | delete hd => exact hP.remove? hlen hlinks hd
  | togglePin ht => exact hP.togglePin? hlen hlinks ht
  | reorder activeId overId => exact hP.reorder hlen hlinks _ _ _
  | reorderPinned activeId overId => exact hP.reorder hlen hlinks _ _ _

theorem perform_storable (hlinks : ∀ l ∈ links, l.Storable) (hnow : IsRank supply.now)
    (hlen : links.length ≤ rankCount) (hp : command.perform supply links = .ok (next, reply)) :
    ∀ l ∈ next, l.Storable := by
  refine forall_perform Shelf.rankFree_storable hlen hlinks (fun draft l hl => ?_) (fun u l m hl he => ?_) hp
  · obtain ⟨url, title, rfl⟩ := Draft.toLink_eq_ok hl
    exact Shelf.inserted_storable hlinks hlen hnow
  · obtain ⟨url, title, rfl⟩ := editLink_eq_ok he
    exact hl

end

end VaultCommand

end Bookmarks
