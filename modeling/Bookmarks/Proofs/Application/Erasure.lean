import Bookmarks.Proofs.Application.Separation

/-! # Striking the vault out of a run

Applications that differ in their vaults alone are `Alike`: they have the same store over
the same snapshot, and the same settings.  Alike applications answer every call outside
the vault the same and are alike afterwards (`answer_alike`), and a call to the vault
takes an application to one that is alike.  A run and the run without its calls to the
vault therefore stay alike, which is the induction of `answers_filter`.
-/
namespace Bookmarks.Application

/-- The applications differ in their vaults alone. -/
structure Alike (a b : Application) : Prop where
  store : a.store = b.store
  settingsFile : a.settingsFile = b.settingsFile
  snapshot : a.storage.stored Storage.dataKey = b.storage.stored Storage.dataKey

variable {cipher : Cipher} {a b c : Application}

theorem Alike.refl (a : Application) : Alike a a := ⟨rfl, rfl, rfl⟩

theorem Alike.trans (h : Alike a b) (h' : Alike b c) : Alike a c :=
  ⟨h.store.trans h'.store, h.settingsFile.trans h'.settingsFile, h.snapshot.trans h'.snapshot⟩

theorem Alike.under (h : Alike a b) (e : Event) : Alike (a.under e) (b.under e) :=
  ⟨h.store, h.settingsFile, h.snapshot⟩

/-! ## Calls -/

theorem run_alike (h : Alike a b) (hw : a.storage.refusesWrites = b.storage.refusesWrites) (supply : Supply)
    (command : Command) :
    (a.run supply command).1 = (b.run supply command).1 ∧ Alike (a.run supply command).2 (b.run supply command).2 := by
  obtain ⟨hanswer, hstore, hstored⟩ := Store.run_congr hw h.snapshot a.store supply command
  simp only [run]
  rw [← h.store]
  exact ⟨hanswer, hstore, h.settingsFile, hstored⟩

theorem set_alike (h : Alike a b) (hplace : a.place = b.place) (key : String) (value : Json) :
    (a.set key value).1 = (b.set key value).1 ∧ Alike (a.set key value).2 (b.set key value).2 := by
  simp only [set, h.settingsFile, hplace]
  cases (b.settingsFile.set b.place key value).answer with
  | error e => exact ⟨rfl, h.store, rfl, h.snapshot⟩
  | ok u =>
    -- Whether the vault is locked then makes no difference between alike applications.
    refine ⟨rfl, ?_⟩
    dsimp only
    split <;> split <;> exact ⟨h.store, rfl, h.snapshot⟩

/-- What is told of the collection and the settings is the same. -/
theorem told_alike (h : Alike a b) (supply : Supply) {call : Call} (hcall : call.area ≠ .vault) (htells : call.Tells) :
    (a.perform cipher supply call).1 = (b.perform cipher supply call).1 := by
  cases call with
  | ping => rfl
  | listLinks categoryId => cases categoryId <;> simp only [perform, h.store]
  | listPinned | listCategories | exportData => simp only [perform, h.store]
  | getSettings => simp only [perform, h.settingsFile]
  | change | setSetting => exact htells.elim
  | _ => exact absurd rfl hcall

/-- Alike applications answer a call outside the vault the same, and are alike then. -/
theorem perform_alike (h : Alike a b) (hplace : a.place = b.place)
    (hw : a.storage.refusesWrites = b.storage.refusesWrites) (supply : Supply) {call : Call}
    (hcall : call.area ≠ .vault) :
    (a.perform cipher supply call).1 = (b.perform cipher supply call).1 ∧
      Alike (a.perform cipher supply call).2 (b.perform cipher supply call).2 := by
  by_cases htells : call.Tells
  · rw [perform_of_tells cipher supply a htells, perform_of_tells cipher supply b htells]
    exact ⟨told_alike h supply hcall htells, h⟩
  cases call with
  | change command =>
    obtain ⟨hanswer, halike⟩ := run_alike h hw supply command
    rw [perform_change, perform_change, hanswer]
    exact ⟨rfl, halike⟩
  | setSetting key value =>
    obtain ⟨hanswer, halike⟩ := set_alike h hplace key value
    rw [perform_setSetting, perform_setSetting, hanswer]
    exact ⟨rfl, halike⟩
  | callVault | lockVault | setFlags => exact absurd rfl hcall
  | _ => exact absurd trivial htells

theorem answer_alike (h : Alike a b) (hplace : a.place = b.place)
    (hw : a.storage.refusesWrites = b.storage.refusesWrites) (supply : Supply) {method : String}
    (hmethod : ¬ IsUnder "vault." method) (params : Json) :
    (a.answer cipher supply method params).1 = (b.answer cipher supply method params).1 ∧
      Alike (a.answer cipher supply method params).2 (b.answer cipher supply method params).2 := by
  have harea := Call.ofRequest_area method params
  unfold answer
  cases hcall : Call.ofRequest method params with
  | error e => exact ⟨rfl, h⟩
  | ok call =>
    have hother : call.area ≠ .vault := by
      rw [harea call hcall]
      exact Area.ofMethod_ne_vault hmethod
    exact perform_alike h hplace hw supply hother

/-! ## Runs -/

/-- A request to the vault. -/
def Event.IsVault (e : Event) : Prop := IsUnder "vault." e.method

instance (e : Event) : Decidable e.IsVault := inferInstanceAs (Decidable (IsUnder _ _))

/-- The requests of a run with their answers. -/
def answers (cipher : Cipher) : Application → List Event → List (Event × Except CallError Json)
  | _, [] => []
  | app, e :: events =>
    (e, ((app.under e).answer cipher e.supply e.method e.params).1) :: answers cipher (app.step cipher e) events

/-- A request to the vault does not show outside of it. -/
theorem step_alike_self (app : Application) {e : Event} (he : e.IsVault) : Alike (app.step cipher e) app := by
  obtain ⟨hcollection, hsettings⟩ := answer_of_vault cipher e.supply (app.under e) he e.params
  exact ⟨hcollection.store, hsettings.settingsFile, hcollection.snapshot⟩

/-- Any other request is answered the same by alike applications. -/
theorem step_alike (h : Alike a b) {e : Event} (he : ¬ e.IsVault) :
    ((a.under e).answer cipher e.supply e.method e.params).1 = ((b.under e).answer cipher e.supply e.method e.params).1 ∧
      Alike (a.step cipher e) (b.step cipher e) :=
  answer_alike (h.under e) rfl rfl e.supply he e.params

theorem answers_filter (h : Alike a b) (events : List Event) :
    (a.answers cipher events).filter (fun r => ¬ r.1.IsVault) =
        b.answers cipher (events.filter fun e => ¬ e.IsVault) ∧
      Alike (a.after cipher events) (b.after cipher (events.filter fun e => ¬ e.IsVault)) := by
  induction events generalizing a b with
  | nil => exact ⟨rfl, h⟩
  | cons e events ih =>
    by_cases he : e.IsVault
    · obtain ⟨hanswers, hafter⟩ := ih ((step_alike_self a he).trans h)
      rw [answers, List.filter_cons_of_neg (by simpa using he), List.filter_cons_of_neg (by simpa using he)]
      exact ⟨hanswers, hafter⟩
    · obtain ⟨hanswer, hstep⟩ := step_alike h he
      obtain ⟨hanswers, hafter⟩ := ih hstep
      rw [answers, List.filter_cons_of_pos (by simpa using he), List.filter_cons_of_pos (by simpa using he), answers,
        hanswer, hanswers]
      exact ⟨rfl, hafter⟩

/-- **The areas of an application are kept apart.**  A request to the vault, whatever its
parameters and whether or not there is such a method, keeps the collection with its
snapshot and the settings; one to the collection keeps the vault, its token, its flags
and the settings.  Requests that only ask for something to be told, requests for unknown
methods and requests that are turned down change nothing, and neither do the eight gated
ones while the vault is switched off, when all of them fail.  So **the requests to the
vault can be struck out of any run**: all others are answered as before, each with its
own supply, and the snapshot is the same at the end. -/
theorem areas_kept_apart (cipher : Cipher) (app : Application) :
    (∀ supply method params,
      let next := (app.answer cipher supply method params).2
      (IsUnder "vault." method → app.KeepsCollection next ∧ app.KeepsSettings next) ∧
      (Area.IsOfCollection method → app.KeepsVault next ∧ app.KeepsSettings next) ∧
      (method ∈ Call.tellingMethods → next = app) ∧
      (method ∉ Call.methods → app.answer cipher supply method params = (.error (.unknownMethod method), app)) ∧
      (∀ e, (app.answer cipher supply method params).1 = .error e → e.IsRejection → next = app) ∧
      (app.vaultEnabled = false → method ∈ Call.gatedMethods →
        ∃ e, app.answer cipher supply method params = (.error e, app))) ∧
    ∀ events : List Event,
      let others := events.filter fun e => ¬ e.IsVault
      (app.answers cipher events).filter (fun r => ¬ r.1.IsVault) = app.answers cipher others ∧
      (app.after cipher events).storage.stored Storage.dataKey =
        (app.after cipher others).storage.stored Storage.dataKey := by
  constructor
  · intro supply method params next
    refine ⟨fun h => answer_of_vault cipher supply app h params, fun h => answer_of_collection cipher supply app h params,
      fun h => answer_of_telling cipher supply app h params, fun h => answer_of_unknown cipher supply app h params,
      fun e h he => answer_of_rejected h he, fun hoff h => answer_of_gated cipher supply hoff h params⟩
  · intro events others
    obtain ⟨hanswers, hafter⟩ := answers_filter (Alike.refl app) events
    exact ⟨hanswers, hafter.snapshot⟩

/-- With the vault switched off its links are asked for between two requests for those of
the collection, after a link is added and while the storage refuses to be written. -/
theorem links_listed_around_vault_requests :
    let supply : Supply := ⟨fun _ => "c41f6d2e-5a07-4e9b-b3d8-000000000000", 9, Supply.cut 16 [], Supply.cut 12 []⟩
    let request (method : String) (params : Json) : Event := ⟨supply, method, params, false, true, .vacant⟩
    let defaults := Settings.defaults
    let app := start Storage.empty ⟨"settings.json", { defaults with vault := { defaults.vault with enabled := false } }⟩
      .vacant
    let add := request "link.add" (.object [("url", .string "https://lean-lang.org"), ("title", .string "Lean")])
    let list := request "link.list" (.object [])
    let next (method : String) := (app.answer .standard supply method (.object [])).2
    app.KeepsCollection (next "vault.flags.set") ∧ app.KeepsVault (next "category.add") ∧
      next "vault.status" = app ∧ next "vault.open" = app ∧ next "link.delete" = app ∧ next "vault.unlock" = app ∧
      (app.answers .standard [add, list, request "vault.unlock" (.object [("password", .string "pw")]), list]).filter
          (fun r => ¬ r.1.IsVault) = app.answers .standard [add, list, list] := by
  intro supply request defaults app add list next
  obtain ⟨hcalls, hruns⟩ := areas_kept_apart .standard app
  have hcall (method : String) := hcalls supply method (.object [])
  have hoff : app.vaultEnabled = false := rfl
  have hmissing : (app.answer .standard supply "link.delete" (.object [])).1 = .error (.missing "id") := rfl
  refine ⟨((hcall "vault.flags.set").1 (by decide)).1, ((hcall "category.add").2.1 (by decide)).1,
    (hcall "vault.status").2.2.1 (by decide), ?_, (hcall "link.delete").2.2.2.2.1 _ hmissing trivial, ?_, ?_⟩
  · exact congrArg Prod.snd ((hcall "vault.open").2.2.2.1 (by decide))
  · obtain ⟨e, heq⟩ := (hcall "vault.unlock").2.2.2.2.2 hoff (by decide)
    exact congrArg Prod.snd heq
  · have hothers : [add, list, request "vault.unlock" (.object [("password", .string "pw")]), list].filter
        (fun e => ¬ e.IsVault) = [add, list, list] := by
      rw [List.filter_cons_of_pos (by decide), List.filter_cons_of_pos (by decide), List.filter_cons_of_neg (by decide),
        List.filter_cons_of_pos (by decide), List.filter_nil]
    rw [← hothers]
    exact (hruns _).1

end Bookmarks.Application
