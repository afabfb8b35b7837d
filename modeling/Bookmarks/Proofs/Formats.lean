import Bookmarks.Proofs.Collection.Codec
import Bookmarks.Proofs.Link.EditCodec
import Bookmarks.Proofs.Settings.Codec
import Bookmarks.Proofs.Vault.Payload

/-! # Everything written is read back

What is kept in the storage, sealed in the vault, written to the settings file or sent to
a host is of one of eight types.  **No value of any of them is lost or altered by writing
it**: not the texts, whatever characters they are made of, not the ranks and times, which
are numbers of sixty-four bits, and not which of the optional fields are absent.
-/
namespace Bookmarks

/-- **Every value is given back by each of its written forms**: by its compact text, by its
pretty text, and by the value in memory, whose members stand in the order of their keys.
Of the links it is asked that their ranks and times have sixty-four bits. -/
theorem every_value_reads_back :
    (∀ l : Link, l.Storable → Link.codec.ReadsBack l) ∧
    (∀ c : Category, Category.codec.ReadsBack c) ∧
    (∀ d : Draft, Draft.codec.ReadsBack d) ∧
    (∀ u : Update, Update.codec.ReadsBack u) ∧
    (∀ c : Collection, c.Storable → Collection.codec.ReadsBack c) ∧
    (∀ p : Payload, (∀ l ∈ p.links, l.Storable) → Payload.codec.ReadsBack p) ∧
    (∀ s : Settings, Settings.codec.ReadsBack s) ∧
    (∀ f : VaultFlags, VaultFlags.codec.ReadsBack f) :=
  ⟨fun _ => Link.codec_readsBack, Category.codec_readsBack, Draft.codec_readsBack, Update.codec_readsBack,
    fun _ => Collection.codec_readsBack, fun _ => Payload.codec_readsBack, Settings.codec_readsBack,
    VaultFlags.codec_readsBack⟩

/-- A collection with a link whose texts need escapes and whose ranks are the least and the
greatest, beside one that has none of its optional fields, and an update that tells what is
absent from what is empty. -/
theorem read_back_with_hard_texts_and_ranks :
    let l : Link := ⟨"1", "https://lean-lang.org/?q=\"\\", "Zoë 🔒\t\u0001\u2028", some "", "common", none, true,
      some minRank, some maxRank, minRank⟩
    let m : Link := ⟨"", "", "", none, "", some "\u0000", false, none, none, maxRank⟩
    let c : Collection := ⟨[l, m], [.common, ⟨"\"", "\\\n", ""⟩]⟩
    let u : Update := ⟨"\"", none, some "\u001f", some "", none, some "\x7f\\u0041", some false⟩
    (Link.codec.ofText (Link.codec.compact l) = .ok l ∧
      Collection.codec.ofText (Collection.codec.pretty c) = .ok c ∧
      Collection.codec.ofValue (Collection.codec.toValue c) = .ok c) ∧
      Payload.codec.ofText (Payload.codec.compact ⟨[l, m]⟩) = .ok ⟨[l, m]⟩ ∧
      Update.codec.ofValue (Update.codec.toValue u) = .ok u := by
  intro l m c u
  obtain ⟨hlink, -, -, hupdate, hcollection, hpayload, -, -⟩ := every_value_reads_back
  have hl : l.Storable := by decide
  have hlinks : ∀ k ∈ [l, m], k.Storable := by decide
  exact ⟨⟨(hlink l hl).compact, (hcollection c hlinks).pretty, (hcollection c hlinks).value⟩,
    (hpayload ⟨[l, m]⟩ hlinks).compact, (hupdate u).value⟩

end Bookmarks
