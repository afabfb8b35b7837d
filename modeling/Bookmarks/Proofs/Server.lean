import Bookmarks.Proofs.Json.OneLine
import Bookmarks.Proofs.Text.Fields
import Bookmarks.Server
import Mathlib.Data.List.Forall2

/-! # Lines of a session

A host writes lines and reads lines, and has to tell which answer belongs to which
request.  **The server answers every line that is not blank with one line**, in order,
under the id of the request; no answer has a line break inside, whatever the request or
the collection holds, so the host takes the output apart into just these lines.
-/
namespace Bookmarks.Server

variable {cipher : Cipher} {explain : String → String} {s : Server} {a : Arrival}

/-- The id that a line asks to be answered under; null for a line that is no JSON value,
no object or has no id. -/
def requestId (line : String) : Json :=
  ((Json.ofText? line).bind (Json.get? "id")).getD .null

/-- The value answers under an id: it has the id and either a result or an error. -/
inductive IsAnswer (id : Json) : Json → Prop where
  | result (result : Json) : IsAnswer id (.object [("id", id), ("result", result)])
  | error (message : String) : IsAnswer id (.object [("error", .string message), ("id", id)])

/-- The text is the compact text of an answer under an id. -/
def Answers (id : Json) (text : String) : Prop := ∃ answer, IsAnswer id answer ∧ text = answer.compact

theorem Answers.inline {id : Json} {text : String} (h : Answers id text) : Inline text.toList := by
  obtain ⟨answer, -, rfl⟩ := h
  exact Json.inline_compact answer

/-! ## One line -/

theorem respond_isAnswer (cipher : Cipher) (s : Server) (now : Nat) (supply : Supply) (request : Json) :
    IsAnswer ((request.get? "id").getD .null) (s.respond cipher now supply request).1 := by
  rw [respond]
  generalize s.limiter.check now = checked
  obtain ⟨allowed, limiter⟩ := checked
  cases allowed with
  | false => exact .error limitMessage
  | true =>
    dsimp only
    rw [if_pos rfl]
    split
    · exact .result _
    · exact .error _

/-- A request that the limiter refuses does not come to the application. -/
theorem respond_of_refused {now : Nat} (h : (s.limiter.check now).1 = false) (cipher : Cipher) (supply : Supply)
    (request : Json) : (s.respond cipher now supply request).2.app = s.app := by
  rw [respond]
  generalize s.limiter.check now = checked at h ⊢
  obtain ⟨allowed, limiter⟩ := checked
  obtain rfl : allowed = false := h
  rfl

theorem receive_of_blank (h : Text.isBlankText a.line = true) (cipher : Cipher) (explain : String → String)
    (s : Server) :
    s.receive cipher explain a = (none, s) :=
  if_pos h

theorem receive_of_garbled (h : Text.isBlankText a.line = false) (hline : Json.ofText? a.line = none) (cipher : Cipher)
    (explain : String → String) (s : Server) :
    s.receive cipher explain a = (some (errorJson .null (parseErrorMessage (explain a.line))).compact, s) := by
  rw [receive, if_neg (Bool.eq_false_iff.mp h), hline]

theorem receive_of_request {request answer : Json} {next : Server} (h : Text.isBlankText a.line = false)
    (hline : Json.ofText? a.line = some request) (hrespond : s.respond cipher a.now a.supply request = (answer, next)) :
    s.receive cipher explain a = (some answer.compact, next) := by
  -- The kernel must not look for the answer here: it would count to the length of a window.
  obtain ⟨respondTo, hrespondTo⟩ : ∃ respondTo, s.respond cipher a.now a.supply = respondTo := ⟨_, rfl⟩
  rw [hrespondTo] at hrespond
  rw [receive, if_neg (Bool.eq_false_iff.mp h), hrespondTo, hline]
  simp only [hrespond]

/-- A line that is not blank is answered, under its id. -/
theorem receive_answers (h : Text.isBlankText a.line = false) (cipher : Cipher) (explain : String → String)
    (s : Server) :
    ∃ text next, s.receive cipher explain a = (some text, next) ∧ Answers (requestId a.line) text := by
  cases hline : Json.ofText? a.line with
  | none =>
    rw [receive_of_garbled h hline, requestId, hline]
    exact ⟨_, s, rfl, _, .error (parseErrorMessage (explain a.line)), rfl⟩
  | some request =>
    have hanswer := respond_isAnswer cipher s a.now a.supply request
    obtain ⟨⟨answer, next⟩, hrespond⟩ : ∃ r, s.respond cipher a.now a.supply request = r := ⟨_, rfl⟩
    rw [hrespond] at hanswer
    rw [receive_of_request h hline hrespond, requestId, hline]
    exact ⟨answer.compact, next, rfl, answer, hanswer, rfl⟩

/-- A line that is no JSON value or that the limiter refuses leaves the application as it
is. -/
theorem receive_app (cipher : Cipher) (explain : String → String)
    (h : Json.ofText? a.line = none ∨ (s.limiter.check a.now).1 = false) :
    (s.receive cipher explain a).2.app = s.app := by
  cases hblank : Text.isBlankText a.line with
  | true => rw [receive_of_blank hblank]
  | false =>
    cases hline : Json.ofText? a.line with
    | none => rw [receive_of_garbled hblank hline]
    | some request =>
      rcases h with hnone | hrefused
      · rw [hline] at hnone
        cases hnone
      · have hsame := respond_of_refused hrefused cipher a.supply request
        obtain ⟨⟨answer, next⟩, hrespond⟩ : ∃ r, s.respond cipher a.now a.supply request = r := ⟨_, rfl⟩
        rw [hrespond] at hsame
        rw [receive_of_request hblank hline hrespond]
        exact hsame

/-! ## All lines -/

/-- The lines that are answered. -/
def answered (arrivals : List Arrival) : List Arrival :=
  arrivals.filter fun a => !Text.isBlankText a.line

theorem receiveAll_cons {answer : Option String} {next : Server} (h : s.receive cipher explain a = (answer, next))
    (arrivals : List Arrival) :
    (s.receiveAll cipher explain (a :: arrivals)).1 = answer.toList ++ (next.receiveAll cipher explain arrivals).1 := by
  rw [receiveAll, h]

/-- Every line that is not blank has its answer, in order. -/
theorem receiveAll_answers (cipher : Cipher) (explain : String → String) (s : Server) (arrivals : List Arrival) :
    List.Forall₂ (fun a text => Answers (requestId a.line) text) (answered arrivals)
      (s.receiveAll cipher explain arrivals).1 := by
  induction arrivals generalizing s with
  | nil => exact .nil
  | cons a arrivals ih =>
    cases hblank : Text.isBlankText a.line with
    | true =>
      rw [receiveAll_cons (receive_of_blank hblank cipher explain s), answered, List.filter_cons_of_neg (by simp [hblank])]
      exact ih s
    | false =>
      obtain ⟨text, next, hreceive, hanswers⟩ := receive_answers hblank cipher explain s
      rw [receiveAll_cons hreceive, answered, List.filter_cons_of_pos (by simp [hblank])]
      exact .cons hanswers (ih next)

theorem inline_of_answers {arrivals : List Arrival} {texts : List String}
    (h : List.Forall₂ (fun a text => Answers (requestId a.line) text) arrivals texts) :
    ∀ text ∈ texts, Inline text.toList := by
  induction h with
  | nil => nofun
  | cons hanswer _ ih => exact List.forall_mem_cons.mpr ⟨hanswer.inline, ih⟩

/-! ## The host's side -/

/-- The text that the server writes. -/
def output (written : List String) : String :=
  String.join (written.map (· ++ "\n"))

theorem toList_output (written : List String) :
    (output written).toList = (written.map String.toList).flatMap (· ++ ['\n']) := by
  simp [output, String.toList_join, List.flatMap_map]

/-- **Inline texts are read back line by line.** -/
theorem lines_output {written : List String} (h : ∀ text ∈ written, Inline text.toList) :
    lines (output written) = written := by
  have hsplit : Text.splitAt '\n' (output written).toList = written.map String.toList ++ [[]] := by
    rw [toList_output]
    apply Text.splitAt_flatMap
    intro cs hcs
    obtain ⟨text, htext, rfl⟩ := List.mem_map.mp hcs
    exact (h text htext).not_mem_lineFeed
  have hkeep : ∀ text ∈ written,
      String.ofList (if text.toList.getLast? = some '\r' then text.toList.dropLast else text.toList) = text := by
    intro text htext
    have hlast : text.toList.getLast? ≠ some '\r' :=
      fun hlast => (h text htext).not_mem_carriageReturn (List.mem_of_getLast? hlast)
    rw [if_neg hlast, String.ofList_toList]
  unfold lines
  rw [hsplit]
  simp only [List.dropLast_concat, List.getLastD_concat, List.isEmpty_nil, if_true, List.append_nil, List.map_map]
  exact (List.map_congr_left hkeep).trans (List.map_id written)

/-- **The server answers every line that is not blank with one line.**  It writes first that
it is ready, and then an answer for each such line, in order, under the id of the line:
an object with either a result or an error.  No line that it writes has a line break
inside, so the host reads these lines back, whatever words explain what is wrong with a line.
At no time does a line that is no JSON value, or one that the limiter refuses, change the
application. -/
theorem one_answer_for_each_line (cipher : Cipher) (explain : String → String) (app : Application) (now : Nat)
    (arrivals : List Arrival) :
    let written := (serve cipher explain app now arrivals).1
    (∃ answers, written = readyLine :: answers ∧
      List.Forall₂ (fun a text => Answers (requestId a.line) text) (answered arrivals) answers) ∧
    (∀ text ∈ written, Inline text.toList) ∧ lines (output written) = written ∧
    ∀ (s : Server) (a : Arrival), (Json.ofText? a.line = none ∨ (s.limiter.check a.now).1 = false) →
      (s.receive cipher explain a).2.app = s.app := by
  intro written
  have hanswers := receiveAll_answers cipher explain (start app now) arrivals
  have hinline : ∀ text ∈ written, Inline text.toList :=
    List.forall_mem_cons.mpr ⟨Json.inline_compact _, inline_of_answers hanswers⟩
  exact ⟨⟨_, rfl, hanswers⟩, hinline, lines_output hinline, fun s a h => receive_app cipher explain h⟩

/-- A line that is no JSON value, and a request after the limiter has let through all that
it lets through. -/
theorem app_same_after_unserved_lines :
    let supply : Supply := ⟨fun _ => "7e21c8f0-1b64-4d39-a5c2-000000000000", 3, Supply.cut 16 [], Supply.cut 12 []⟩
    let app := Application.start Storage.empty (.new "settings.json") .vacant
    let garbled : Arrival := ⟨"ping", 0, supply⟩
    let request : Arrival := ⟨"\x7b\"method\":\"vault.lock\"\x7d", 0, supply⟩
    let explain : String → String := fun _ => "expected value at line 1 column 1"
    ((start app 0).receive .standard explain garbled).2.app = app ∧
      ((Server.mk app ⟨requestLimit, 0, requestLimit⟩).receive .standard explain request).2.app = app := by
  intro supply app garbled request explain
  obtain ⟨-, -, -, hsame⟩ := one_answer_for_each_line .standard explain app 0 [garbled, request]
  exact ⟨hsame (start app 0) garbled (.inl (by decide)), hsame ⟨app, _⟩ request (.inr (by decide))⟩

end Bookmarks.Server
