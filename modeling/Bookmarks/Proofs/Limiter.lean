import Bookmarks.Proofs.Sequence
import Bookmarks.Server
import Mathlib.Data.List.Induction

/-! # Windows of requests

A window that is over ends only when a request comes that finds it over, and that request
opens the next one.  All that is said of a limiter is said of the log of a run: the requests in
the order in which they came, each with the start of the window that it fell into, and whether
it was let through.

As long as a window has fewer requests than can be counted, **a request is let through exactly
if fewer than the limit came before it in its window** (`accepted_iff`); those that were refused
count too.  Windows start at least a second apart, and a request comes before its window is
over.  So the requests of one second fall into two windows at most (`exists_two_windows`), and
no more than twice the limit of them are let through.
-/
namespace Bookmarks.Limiter

/-- A request, as the clock sees it: it is read when the request comes, and once more if the
request opens a window. -/
structure Request where
  came : Nat
  opened : Nat
  deriving DecidableEq, Repr

/-- The start of the window that a request falls into, after a window that started at a time. -/
def Request.start (r : Request) (start : Nat) : Nat :=
  if start + window ≤ r.came then r.opened else start

/-- The clock does not go back from a time on. -/
def Steady (now : Nat) (rs : List Request) : Prop :=
  (now :: rs.flatMap fun r => [r.came, r.opened]).Pairwise (· ≤ ·)

instance (now : Nat) (rs : List Request) : Decidable (Steady now rs) :=
  inferInstanceAs (Decidable ((now :: rs.flatMap fun r => [r.came, r.opened]).Pairwise (· ≤ ·)))

/-- What became of a request. -/
structure Entry where
  request : Request
  windowStart : Nat
  accepted : Bool
  deriving DecidableEq, Repr

/-- The log of a limiter from a time at which a window started. -/
def logFrom (l : Limiter) (start : Nat) : List Request → List Entry
  | [] => []
  | r :: rs =>
    let (accepted, l) := l.checkAt r.came r.opened
    ⟨r, r.start start, accepted⟩ :: logFrom l (r.start start) rs

/-- The log of a limiter that was created at a time. -/
def log (limit : UInt32) (created : Nat) (rs : List Request) : List Entry :=
  (new limit created).logFrom created rs

/-- The start of the window that is current after a part of a log. -/
def currentStart (created : Nat) (log : List Entry) : Nat :=
  (log.map Entry.windowStart).getLastD created

/-- The number of requests that fell into a window. -/
def countIn (start : Nat) (log : List Entry) : Nat :=
  log.countP fun e => e.windowStart == start

/-- The number of requests that were let through in a window. -/
def acceptedIn (start : Nat) (log : List Entry) : Nat :=
  log.countP fun e => e.windowStart == start && e.accepted

/-- The part of a log that belongs to the second from a time on. -/
def within (t : Nat) (log : List Entry) : List Entry :=
  log.filter fun e => decide (t ≤ e.request.came ∧ e.request.came < t + window)

/-- The number of requests that were let through in the second from a time on. -/
def acceptedWithin (t : Nat) (log : List Entry) : Nat :=
  (within t log).countP Entry.accepted

variable {l : Limiter} {r : Request} {rs : List Request} {e : Entry} {before after past : List Entry}
  {limit : UInt32} {start now t : Nat}

theorem window_pos : 0 < window := by decide

theorem start_of_over (h : start + window ≤ r.came) : r.start start = r.opened :=
  if_pos h

theorem start_of_not_over (h : ¬ start + window ≤ r.came) : r.start start = start :=
  if_neg h

theorem fst_checkAt (l : Limiter) (now again : Nat) : (l.checkAt now again).1 =
    decide ((l.advance now again).count + 1 ≤ (l.advance now again).limit) :=
  rfl

theorem snd_checkAt (l : Limiter) (now again : Nat) : (l.checkAt now again).2 =
    ⟨(l.advance now again).limit, (l.advance now again).windowStart, (l.advance now again).count + 1⟩ :=
  rfl

theorem logFrom_cons (l : Limiter) (start : Nat) (r : Request) (rs : List Request) :
    l.logFrom start (r :: rs) = ⟨r, r.start start, (l.checkAt r.came r.opened).1⟩ ::
      (l.checkAt r.came r.opened).2.logFrom (r.start start) rs :=
  rfl

/-! ## The clock -/

theorem Steady.le_came (h : Steady now rs) (hr : r ∈ rs) : now ≤ r.came :=
  (List.pairwise_cons.mp h).1 r.came (List.mem_flatMap.mpr ⟨r, hr, List.mem_cons_self⟩)

theorem Steady.of_le (h : Steady now rs) (hstart : start ≤ now) : Steady start rs := by
  obtain ⟨hnow, hrs⟩ := List.pairwise_cons.mp h
  exact List.pairwise_cons.mpr ⟨fun t ht => Nat.le_trans hstart (hnow t ht), hrs⟩

theorem Steady.came_le_opened (h : Steady now (r :: rs)) : r.came ≤ r.opened :=
  (List.pairwise_cons.mp (List.pairwise_cons.mp h).2).1 r.opened List.mem_cons_self

theorem Steady.opened (h : Steady now (r :: rs)) : Steady r.opened rs :=
  (List.pairwise_cons.mp (List.pairwise_cons.mp h).2).2

theorem Steady.start_le_opened (h : Steady start (r :: rs)) : r.start start ≤ r.opened := by
  by_cases hover : start + window ≤ r.came
  · exact Nat.le_of_eq (start_of_over hover)
  · rw [start_of_not_over hover]
    exact Nat.le_trans (h.le_came List.mem_cons_self) h.came_le_opened

/-- A window is followed by itself, or by one that starts when it is over. -/
theorem Steady.start_eq_or_le (h : Steady start (r :: rs)) :
    r.start start = start ∨ start + window ≤ r.start start ∧ start + window ≤ r.came := by
  by_cases hover : start + window ≤ r.came
  · rw [start_of_over hover]
    exact Or.inr ⟨Nat.le_trans hover h.came_le_opened, hover⟩
  · exact Or.inl (start_of_not_over hover)

theorem Steady.next (h : Steady start (r :: rs)) : Steady (r.start start) rs :=
  h.opened.of_le h.start_le_opened

/-! ## Windows in a log -/

theorem map_request_logFrom (l : Limiter) (start : Nat) (rs : List Request) :
    (l.logFrom start rs).map Entry.request = rs := by
  induction rs generalizing l start with
  | nil => rfl
  | cons r rs ih => rw [logFrom_cons, List.map_cons, ih]

theorem request_mem_of_mem_logFrom (he : e ∈ l.logFrom start rs) : e.request ∈ rs := by
  rw [← map_request_logFrom l start rs]
  exact List.mem_map_of_mem he

/-- A request falls into the window that started last, or into one that starts when that is
over. -/
theorem windowStart_eq_or_le (h : Steady start rs) (he : e ∈ l.logFrom start rs) :
    e.windowStart = start ∨ start + window ≤ e.windowStart ∧ start + window ≤ e.request.came := by
  induction rs generalizing l start with
  | nil => cases he
  | cons r rs ih =>
    rcases List.mem_cons.mp he with rfl | he
    · exact h.start_eq_or_le
    · have hcame : r.opened ≤ e.request.came := h.opened.le_came (request_mem_of_mem_logFrom he)
      have hopened := h.came_le_opened
      rcases ih h.next he with heq | ⟨hstart, hover⟩
      · rw [heq]
        exact h.start_eq_or_le.imp_right fun ⟨hnext, hover⟩ => ⟨hnext, by omega⟩
      · rcases h.start_eq_or_le with hnext | ⟨hnext, -⟩
        · rw [hnext] at hstart hover
          exact Or.inr ⟨hstart, hover⟩
        · exact Or.inr ⟨by omega, by omega⟩

/-- A request comes before its window is over. -/
theorem came_lt (h : Steady start rs) (he : e ∈ l.logFrom start rs) : e.request.came < e.windowStart + window := by
  induction rs generalizing l start with
  | nil => cases he
  | cons r rs ih =>
    rcases List.mem_cons.mp he with rfl | he
    · have hopened := h.came_le_opened
      have hpos := window_pos
      dsimp only
      by_cases hover : start + window ≤ r.came
      · rw [start_of_over hover]
        omega
      · rw [start_of_not_over hover]
        omega
    · exact ih h.next he

/-- Of two windows the later one starts when the other is over, and its requests come then. -/
theorem windows_apart (h : Steady start rs) : (l.logFrom start rs).Pairwise fun p q =>
    q.windowStart = p.windowStart ∨
      p.windowStart + window ≤ q.windowStart ∧ p.windowStart + window ≤ q.request.came := by
  induction rs generalizing l start with
  | nil => exact List.Pairwise.nil
  | cons r rs ih =>
    exact List.pairwise_cons.mpr ⟨fun q hq => windowStart_eq_or_le h.next hq, ih h.next⟩

theorem mem_within {log : List Entry} :
    e ∈ within t log ↔ e ∈ log ∧ t ≤ e.request.came ∧ e.request.came < t + window := by
  rw [within, List.mem_filter, decide_eq_true_eq]

/-- **The requests of one second fall into two windows at most**: the one of the first of them
and the one of the last. -/
theorem exists_two_windows (h : Steady start rs) (t : Nat) : ∃ first last, ∀ e ∈ within t (l.logFrom start rs),
    e.windowStart = first ∨ e.windowStart = last := by
  by_cases hnone : within t (l.logFrom start rs) = []
  · rw [hnone]
    exact ⟨0, 0, nofun⟩
  obtain ⟨first, hfirst, last, hlast, hbetween⟩ := Sequence.exists_ends ((windows_apart h).sublist List.filter_sublist) hnone
  refine ⟨first.windowStart, last.windowStart, fun e he => ?_⟩
  rcases hbetween e he with rfl | rfl | ⟨hleft, hright⟩
  · exact Or.inl rfl
  · exact Or.inr rfl
  rcases hleft with hleft | ⟨hleft, -⟩
  · exact Or.inl hleft
  rcases hright with hright | ⟨-, hright⟩
  · exact Or.inr hright.symm
  · -- a third window between the two would keep their requests a second apart
    obtain ⟨hfirst, hfrom, -⟩ := mem_within.mp hfirst
    obtain ⟨-, -, hto⟩ := mem_within.mp hlast
    have hbefore := came_lt h hfirst
    omega

/-! ## Counting -/

theorem countIn_append (start : Nat) (log log' : List Entry) :
    countIn start (log ++ log') = countIn start log + countIn start log' :=
  List.countP_append

theorem countIn_singleton (start : Nat) (r : Request) (accepted : Bool) : countIn start [⟨r, start, accepted⟩] = 1 :=
  List.countP_singleton.trans (if_pos (beq_self_eq_true start))

theorem countIn_succ_lt {n : Nat} (h : countIn e.windowStart (before ++ e :: after) < n) :
    countIn e.windowStart before + 1 < n := by
  have hone : countIn e.windowStart [e] = 1 := countIn_singleton e.windowStart e.request e.accepted
  rw [List.append_cons, countIn_append, countIn_append, hone] at h
  omega

theorem countIn_eq_zero (h : ∀ e ∈ past, e.windowStart < start) : countIn start past = 0 :=
  List.countP_eq_zero.mpr fun e he heq => Nat.ne_of_lt (h e he) (eq_of_beq heq)

/-- What a limiter knows of the requests so far: the start of the current window and how many of
them fell into it. -/
structure Counted (limit : UInt32) (start : Nat) (past : List Entry) (l : Limiter) : Prop where
  limit_eq : l.limit = limit
  windowStart_eq : l.windowStart = start
  count_eq : l.count.toNat = countIn start past
  windowStart_le : ∀ e ∈ past, e.windowStart ≤ start

theorem counted_new (limit : UInt32) (created : Nat) : Counted limit created [] (new limit created) :=
  ⟨rfl, rfl, rfl, nofun⟩

/-- No request so far fell into a window that only opens. -/
theorem Counted.countIn_opened (h : Counted limit start past l) (hr : r.came ≤ r.opened)
    (hover : start + window ≤ r.came) : countIn r.opened past = 0 := by
  refine countIn_eq_zero fun e he => ?_
  have hle := h.windowStart_le e he
  have hpos := window_pos
  omega

theorem Counted.advance (h : Counted limit start past l) (hr : r.came ≤ r.opened) :
    Counted limit (r.start start) past (l.advance r.came r.opened) := by
  by_cases hover : start + window ≤ r.came
  · rw [start_of_over hover, Limiter.advance, h.windowStart_eq, if_pos hover]
    refine ⟨h.limit_eq, rfl, (h.countIn_opened hr hover).symm, fun e he => ?_⟩
    have hle := h.windowStart_le e he
    omega
  · rw [start_of_not_over hover, Limiter.advance, h.windowStart_eq, if_neg hover]
    exact h

/-- One more can be counted up to the greatest count. -/
theorem toNat_succ {n : UInt32} (hn : n.toNat + 1 < 2 ^ 32) : (n + 1).toNat = n.toNat + 1 := by
  rw [UInt32.toNat_add]
  exact Nat.mod_eq_of_lt hn

/-- Counting a request in the current window. -/
theorem Counted.succ (h : Counted limit start past l) (hroom : countIn start past + 1 < 2 ^ 32) (r : Request)
    (accepted : Bool) :
    Counted limit start (past ++ [⟨r, start, accepted⟩]) ⟨l.limit, l.windowStart, l.count + 1⟩ where
  limit_eq := h.limit_eq
  windowStart_eq := h.windowStart_eq
  count_eq := by
    rw [countIn_append, countIn_singleton, ← h.count_eq]
    exact toNat_succ (by rwa [h.count_eq])
  windowStart_le e he := by
    rcases List.mem_append.mp he with he | he
    · exact h.windowStart_le e he
    · exact Nat.le_of_eq (congrArg Entry.windowStart (List.mem_singleton.mp he))

/-- There is room for one more exactly if fewer than the limit were counted. -/
theorem Counted.count_succ_le_iff (h : Counted limit start past l) (hroom : countIn start past + 1 < 2 ^ 32) :
    l.count + 1 ≤ l.limit ↔ countIn start past < limit.toNat := by
  rw [UInt32.le_iff_toNat_le, toNat_succ (by rwa [h.count_eq]), h.count_eq, h.limit_eq]
  rfl

/-- **What one request changes**: it counts in its window, whether it is let through or not. -/
theorem Counted.checkAt (h : Counted limit start past l) (hr : r.came ≤ r.opened)
    (hroom : countIn (r.start start) past + 1 < 2 ^ 32) (accepted : Bool) :
    Counted limit (r.start start) (past ++ [⟨r, r.start start, accepted⟩]) (l.checkAt r.came r.opened).2 := by
  rw [snd_checkAt]
  exact (h.advance hr).succ hroom r accepted

/-- A request is let through if its window has room. -/
theorem Counted.fst_checkAt_iff (h : Counted limit start past l) (hr : r.came ≤ r.opened)
    (hroom : countIn (r.start start) past + 1 < 2 ^ 32) :
    (l.checkAt r.came r.opened).1 ↔ countIn (r.start start) past < limit.toNat := by
  rw [fst_checkAt, decide_eq_true_eq]
  exact (h.advance hr).count_succ_le_iff hroom

/-- **At every point of a run** the limiter that meets a request has counted the requests before
it. -/
theorem Counted.of_split (h : Counted limit start past l) (hclock : Steady start rs)
    (hfew : ∀ start', countIn start' (past ++ l.logFrom start rs) < 2 ^ 32)
    (hsplit : l.logFrom start rs = before ++ e :: after) :
    e.request.came ≤ e.request.opened ∧ e.windowStart = e.request.start (currentStart start before) ∧
      ∃ l', Counted limit (currentStart start before) (past ++ before) l' ∧
        e.accepted = (l'.checkAt e.request.came e.request.opened).1 := by
  induction before generalizing l start rs past with
  | nil =>
    cases rs with
    | nil => cases hsplit
    | cons r rs =>
      rw [logFrom_cons] at hsplit
      obtain ⟨rfl, -⟩ := List.cons.inj hsplit
      exact ⟨hclock.came_le_opened, rfl, l, by rwa [List.append_nil], rfl⟩
  | cons e' before ih =>
    cases rs with
    | nil => cases hsplit
    | cons r rs =>
      rw [logFrom_cons] at hsplit hfew
      obtain ⟨rfl, hrest⟩ := List.cons.inj hsplit
      have hroom : countIn (r.start start) past + 1 < 2 ^ 32 :=
        countIn_succ_lt (e := ⟨r, r.start start, _⟩) (hfew (r.start start))
      rw [List.append_cons] at hfew
      have hih := ih (h.checkAt hclock.came_le_opened hroom _) hclock.next hfew hrest
      rw [← List.append_cons] at hih
      rwa [currentStart, List.map_cons, List.getLastD_cons]

/-! ## Requests that are let through -/

theorem acceptedIn_within_le (start t : Nat) (log : List Entry) : acceptedIn start (within t log) ≤ acceptedIn start log :=
  List.filter_sublist.countP_le

/-- Where a request is let through only while its window has room, no more than the room are. -/
theorem acceptedIn_le_of_room {m : Nat} {log : List Entry}
    (h : ∀ before e after, log = before ++ e :: after → e.accepted → countIn e.windowStart before < m) :
    acceptedIn start log ≤ m := by
  induction log using List.reverseRecOn with
  | nil => exact Nat.zero_le _
  | append_singleton log e ih =>
    have hlog : acceptedIn start log ≤ m := by
      refine ih fun before e' after hsplit => h before e' (after ++ [e]) ?_
      rw [hsplit, List.append_assoc, List.cons_append]
    rw [acceptedIn, List.countP_append, List.countP_singleton]
    split
    · next hcounts =>
      obtain ⟨hstart, haccepted⟩ := Bool.and_eq_true_iff.mp hcounts
      have hroom := h log e [] rfl haccepted
      rw [eq_of_beq hstart] at hroom
      have hle : acceptedIn start log ≤ countIn start log :=
        List.countP_mono_left fun e' _ he' => (Bool.and_eq_true_iff.mp he').1
      unfold acceptedIn at hle
      omega
    · exact hlog

section Accepted
variable {created : Nat} (hclock : Steady created rs) (hfew : ∀ start, countIn start (log limit created rs) < 2 ^ 32)
include hclock hfew

theorem counted_of_split (hsplit : log limit created rs = before ++ e :: after) :
    e.request.came ≤ e.request.opened ∧ e.windowStart = e.request.start (currentStart created before) ∧
      ∃ l, Counted limit (currentStart created before) before l ∧
        e.accepted = (l.checkAt e.request.came e.request.opened).1 :=
  (counted_new limit created).of_split hclock hfew hsplit

/-- **A request is let through exactly if fewer than the limit came before it in its window.** -/
theorem accepted_iff (hsplit : log limit created rs = before ++ e :: after) :
    e.accepted ↔ countIn e.windowStart before < limit.toNat := by
  obtain ⟨hopened, hstart, l, hcounted, haccepted⟩ := counted_of_split hclock hfew hsplit
  have hroom : countIn e.windowStart before + 1 < 2 ^ 32 := countIn_succ_lt (hsplit ▸ hfew e.windowStart)
  rw [hstart] at hroom ⊢
  rw [haccepted]
  exact hcounted.fst_checkAt_iff hopened hroom

/-- A request that comes when the current window is over has the next one to itself. -/
theorem accepted_of_over (hsplit : log limit created rs = before ++ e :: after)
    (hover : currentStart created before + window ≤ e.request.came) (hlimit : 0 < limit) : e.accepted := by
  obtain ⟨hopened, hstart, l, hcounted, -⟩ := counted_of_split hclock hfew hsplit
  rw [accepted_iff hclock hfew hsplit, hstart, start_of_over hover, hcounted.countIn_opened hopened hover]
  exact UInt32.lt_iff_toNat_lt.mp hlimit

/-- No more than the limit are let through in a window. -/
theorem acceptedIn_le (start : Nat) : acceptedIn start (log limit created rs) ≤ limit.toNat :=
  acceptedIn_le_of_room fun _ _ _ hsplit => (accepted_iff hclock hfew hsplit).mp

/-- No more than twice the limit are let through within a second. -/
theorem acceptedWithin_le (t : Nat) : acceptedWithin t (log limit created rs) ≤ 2 * limit.toNat := by
  obtain ⟨first, last, htwo⟩ := exists_two_windows (l := new limit created) hclock t
  have hsum : acceptedWithin t (log limit created rs) ≤
      acceptedIn first (log limit created rs) + acceptedIn last (log limit created rs) := by
    have hcover : acceptedWithin t (log limit created rs) ≤
        acceptedIn first (within t (log limit created rs)) + acceptedIn last (within t (log limit created rs)) := by
      refine Sequence.countP_le_add fun e he haccepted => ?_
      rw [haccepted, Bool.and_true, Bool.and_true, beq_iff_eq, beq_iff_eq]
      exact htwo e he
    exact Nat.le_trans hcover (Nat.add_le_add (acceptedIn_within_le first t _) (acceptedIn_within_le last t _))
  have hfirst := acceptedIn_le hclock hfew first
  have hlast := acceptedIn_le hclock hfew last
  omega

end Accepted

/-- **No window and no second has more than its share.**  The clock does not go back, and no
window has more requests than can be counted.  Every request is answered.  It falls into the
current window, which started with the limiter or with a request, or opens the next one if it
comes a second or more after the start.  It is let through exactly if fewer than the limit came
before it in its window, and so in any case if it opens one and the limit is not zero.  So no
more than the limit are let through in a window, and no more than twice the limit within a
second from any time on. -/
theorem limit_kept_in_windows_and_seconds (limit : UInt32) (created : Nat) (rs : List Request)
    (hclock : Steady created rs) (hfew : ∀ start, countIn start (log limit created rs) < 2 ^ 32) :
    (log limit created rs).map Entry.request = rs ∧
    (∀ before e after, log limit created rs = before ++ e :: after →
      e.windowStart = (if currentStart created before + window ≤ e.request.came then e.request.opened
        else currentStart created before) ∧
      (e.accepted ↔ countIn e.windowStart before < limit.toNat) ∧
      (currentStart created before + window ≤ e.request.came → 0 < limit → e.accepted)) ∧
    (∀ start, acceptedIn start (log limit created rs) ≤ limit.toNat) ∧
    ∀ t, acceptedWithin t (log limit created rs) ≤ 2 * limit.toNat := by
  refine ⟨map_request_logFrom _ created rs, fun before e after hsplit => ?_, acceptedIn_le hclock hfew,
    acceptedWithin_le hclock hfew⟩
  obtain ⟨-, hstart, -⟩ := counted_of_split hclock hfew hsplit
  exact ⟨hstart, accepted_iff hclock hfew hsplit, accepted_of_over hclock hfew hsplit⟩

/-- Three requests at the end of a window and three in the next one, which is opened by the first
of them: within that second twice the limit are let through, and no more. -/
theorem limit_kept_around_opened_window :
    let late : Request := ⟨900000000, 900000000⟩
    let rs := [late, late, late, ⟨1000000000, 1000000007⟩, ⟨1500000000, 1500000000⟩, ⟨1899999999, 1899999999⟩]
    Steady 0 rs ∧ (∀ start, countIn start (log 2 0 rs) < 2 ^ 32) ∧
      (log 2 0 rs).map Entry.accepted = [true, true, false, true, true, false] ∧
      acceptedWithin 900000000 (log 2 0 rs) = 4 ∧ acceptedWithin 900000000 (log 2 0 rs) ≤ 2 * (2 : UInt32).toNat := by
  intro late rs
  have hclock : Steady 0 rs := by decide
  have hfew : ∀ start, countIn start (log 2 0 rs) < 2 ^ 32 := by
    intro start
    have hlength : (log 2 0 rs).length = 6 := by decide
    have hle : countIn start (log 2 0 rs) ≤ (log 2 0 rs).length := List.countP_le_length
    omega
  obtain ⟨-, -, -, hwithin⟩ := limit_kept_in_windows_and_seconds 2 0 rs hclock hfew
  exact ⟨hclock, hfew, by decide, by decide, hwithin 900000000⟩

end Bookmarks.Limiter
