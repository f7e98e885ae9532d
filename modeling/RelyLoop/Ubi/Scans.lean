import Mathlib.Data.List.Basic
import Mathlib.Tactic.Common

/-!
# Scans with a cursor

The page loops of the reader over the scans of an adapter. A scan brings its pages one by one, with
a cursor for all but the last. On Elasticsearch and OpenSearch it holds a point in time meanwhile,
and the fetch of any page may raise.
-/

namespace RelyLoop.Ubi.Scans

/-- What a fetch raises: an `Exception`, or the `CancelledError` of a cancelled job, which is no
`Exception`. -/
inductive Failure where
  | error
  | cancelled
  deriving DecidableEq, Repr

/-- The hits of a page, and what its fetch raises if it does. -/
structure Page (Hit : Type) where
  hits : List Hit
  failure : Option Failure

/-- What comes of opening a point in time. Solr has none, like an engine that does not support
them. -/
inductive Opening where
  | opened
  | unsupported
  | failed (failure : Failure)
  deriving DecidableEq, Repr

/-- A scan of an index: its pages, of which the last one is terminal. -/
structure Scan (Hit : Type) where
  opening : Opening
  pages : List (Page Hit)
  ne_nil : pages ≠ []

/-- What happens to the point in time of a scan. -/
inductive Event where
  | opened
  | searched
  | closed
  deriving DecidableEq, Repr

/-- `ScanPage`, with a cursor or without. -/
structure ScanPage (Hit : Type) where
  hits : List Hit
  cursor : Bool

variable {Hit Row : Type}

/-- `_close_pit_best_effort`. -/
def closePitBestEffort (opening : Opening) : List Event :=
  if opening = .opened then [.closed] else []

/-- `close_scan`. -/
def closeScan (opening : Opening) (cursor : Bool) : List Event :=
  if cursor then closePitBestEffort opening else []

/-- `scan_all`, of which only `Exception`s are caught. -/
def scanAll (opening : Opening) (cursor terminal : Bool) (page : Page Hit) :
    Except Failure (ScanPage Hit) × List Event :=
  match opening, cursor with
  | .failed failure, false => (.error failure, [])
  | _, _ =>
    let events := if opening = .opened ∧ cursor = false then [.opened, .searched] else [.searched]
    match page.failure with
    | some .cancelled => (.error .cancelled, events)
    | some .error => (.error .error, events ++ closePitBestEffort opening)
    | none =>
      if terminal then (.ok ⟨page.hits, false⟩, events ++ closePitBestEffort opening)
      else (.ok ⟨page.hits, true⟩, events)

/-- The variables of a page loop when it ends. -/
structure LoopEnd (Hit : Type) where
  taken : List Hit
  remaining : ℕ
  cursor : Bool
  ceilingHit : Bool
  raised : Option Failure
  events : List Event

/-- The page loop of `_scan_ubi_queries`, and of a batch in `_scan_ubi_events`. -/
def pageLoop (opening : Opening) (remaining : ℕ) (cursor : Bool) : List (Page Hit) → LoopEnd Hit
  | [] => ⟨[], remaining, cursor, false, none, []⟩
  | page :: pages =>
    if remaining = 0 then ⟨[], 0, cursor, false, none, []⟩
    else
      match scanAll opening cursor pages.isEmpty page with
      | (.error failure, events) => ⟨[], remaining, cursor, false, some failure, events⟩
      | (.ok scanPage, events) =>
        let take := scanPage.hits.take remaining
        if scanPage.cursor = false then
          ⟨take, remaining - take.length, false, false, none, events⟩
        else if take.length < scanPage.hits.length then
          ⟨take, remaining - take.length, true, true, none, events⟩
        else
          let rest := pageLoop opening (remaining - take.length) true pages
          { rest with taken := take ++ rest.taken, events := events ++ rest.events }

/-- The events of a scan, with those of the `finally` block. -/
def LoopEnd.log (loop : LoopEnd Hit) (opening : Opening) : List Event :=
  loop.events ++ closeScan opening loop.cursor

/-- A ceiling in the middle of a page, or at its end with a cursor. -/
def LoopEnd.truncated (loop : LoopEnd Hit) : Bool :=
  loop.ceilingHit || (loop.remaining = 0 && loop.cursor)

/-- `_scan_ubi_queries`: the rows and whether a truncation is reported. -/
def scanUbiQueries (extract : Hit → Option Row) (scan : Scan Hit) (maxQueries : ℕ) :
    Except Failure (List Row × Bool) × List Event :=
  let loop := pageLoop scan.opening maxQueries false scan.pages
  match loop.raised with
  | some failure => (.error failure, loop.log scan.opening)
  | none => (.ok (loop.taken.filterMap extract, loop.truncated), loop.log scan.opening)

/-- `_scan_ubi_events`, with the scans of its batches. -/
def scanUbiEvents (source : Hit → Option Row) (remaining : ℕ) :
    List (Scan Hit) → Except Failure (List Row × Bool) × List (List Event)
  | [] => (.ok ([], false), [])
  | scan :: scans =>
    if remaining = 0 then (.ok ([], true), [])
    else
      let loop := pageLoop scan.opening remaining false scan.pages
      match loop.raised with
      | some failure => (.error failure, [loop.log scan.opening])
      | none =>
        let rest := scanUbiEvents source loop.remaining scans
        (rest.1.map fun (rows, truncated) =>
          (loop.taken.filterMap source ++ rows, loop.truncated || truncated),
          loop.log scan.opening :: rest.2)

/-! ## One page -/

variable {opening : Opening} {cursor terminal : Bool} {page : Page Hit} {pages : List (Page Hit)}
  {remaining : ℕ} {failure : Failure}

/-- The first page of a scan fails when its point in time cannot be opened. -/
def Unopened (opening : Opening) (cursor : Bool) : Prop :=
  ∃ failure, opening = .failed failure ∧ cursor = false

theorem scanAll_ok (terminal : Bool) (hopen : ¬Unopened opening cursor) (hpage : page.failure = none) :
    (scanAll opening cursor terminal page).1 = .ok ⟨page.hits, !terminal⟩ := by
  unfold scanAll
  split
  · exact absurd ⟨_, rfl, rfl⟩ hopen
  · dsimp only
    rw [hpage]
    cases terminal <;> rfl

theorem scanAll_error (h : (scanAll opening cursor terminal page).1 = .error failure) :
    opening = .failed failure ∨ page.failure = some failure := by
  unfold scanAll at h
  split at h
  · left
    rw [Except.error.inj h]
  · dsimp only at h
    right
    cases hpage : page.failure with
    | none =>
      rw [hpage] at h
      cases terminal <;> cases h
    | some raised =>
      rw [hpage] at h
      cases raised <;> rw [← Except.error.inj h]

theorem scanAll_failure (opening : Opening) (cursor terminal : Bool) (h : page.failure = some failure) :
    ∃ raised, (scanAll opening cursor terminal page).1 = .error raised := by
  unfold scanAll
  split
  · exact ⟨_, rfl⟩
  · dsimp only
    rw [h]
    cases failure <;> exact ⟨_, rfl⟩

/-! ## The page loop -/

/-- The rows of some pages, in order. -/
def rows (pages : List (Page Hit)) : List Hit := pages.flatMap Page.hits

/-- How many rows stand on pages with a cursor. -/
def held (pages : List (Page Hit)) : ℕ := (rows pages.dropLast).length

/-- The fetch of a page fails before the budget is used up. -/
def PageFails (remaining : ℕ) (pages : List (Page Hit)) : Prop :=
  ∃ before page after, pages = before ++ page :: after ∧ (rows before).length < remaining ∧
    page.failure ≠ none

theorem rows_cons (page : Page Hit) (pages : List (Page Hit)) :
    rows (page :: pages) = page.hits ++ rows pages := List.flatMap_cons

theorem held_singleton (page : Page Hit) : held [page] = 0 := rfl

theorem held_cons (page next : Page Hit) (pages : List (Page Hit)) :
    held (page :: next :: pages) = page.hits.length + held (next :: pages) := by
  rw [held, List.dropLast_cons_cons, rows_cons, List.length_append]
  rfl

theorem pageFails_cons : PageFails remaining (page :: pages) ↔
    0 < remaining ∧ (page.failure ≠ none ∨ PageFails (remaining - page.hits.length) pages) := by
  constructor
  · rintro ⟨before, failing, after, hpages, hbefore, hfailing⟩
    constructor
    · omega
    · cases before with
      | nil =>
        obtain ⟨rfl, -⟩ := List.cons.inj hpages
        exact Or.inl hfailing
      | cons first before =>
        obtain ⟨rfl, rfl⟩ := List.cons.inj hpages
        rw [rows_cons, List.length_append] at hbefore
        exact Or.inr ⟨before, failing, after, rfl, by omega, hfailing⟩
  · rintro ⟨hpos, hpage | ⟨before, failing, after, rfl, hbefore, hfailing⟩⟩
    · exact ⟨[], page, pages, rfl, hpos, hpage⟩
    · refine ⟨page :: before, failing, after, rfl, ?_, hfailing⟩
      rw [rows_cons, List.length_append]
      omega

/-- What a page loop does when no fetch fails. -/
structure Reads (remaining : ℕ) (cursor : Bool) (pages : List (Page Hit))
    (loop : LoopEnd Hit) : Prop where
  raised : loop.raised = none
  taken : loop.taken = (rows pages).take remaining
  budget : loop.remaining = remaining - (rows pages).length
  truncated : loop.truncated = true ↔ (0 < remaining ∨ cursor = true) ∧ remaining ≤ held pages

theorem reads_zero (hne : pages ≠ []) (opening : Opening) (cursor : Bool) :
    Reads 0 cursor pages (pageLoop opening 0 cursor pages) := by
  obtain ⟨page, pages, rfl⟩ := List.exists_cons_of_ne_nil hne
  rw [pageLoop, if_pos rfl]
  constructor
  · rfl
  · rw [List.take_zero]
  · simp
  · simp [LoopEnd.truncated]

theorem reads_pageLoop (hne : pages ≠ []) (hopen : ¬Unopened opening cursor)
    (hfails : ¬PageFails remaining pages) :
    Reads remaining cursor pages (pageLoop opening remaining cursor pages) := by
  induction pages generalizing remaining cursor with
  | nil => exact absurd rfl hne
  | cons page pages ih =>
    rcases Nat.eq_zero_or_pos remaining with rfl | hpos
    · exact reads_zero hne opening cursor
    rw [pageFails_cons, not_and, not_or, not_not] at hfails
    obtain ⟨hpage, hlater⟩ := hfails hpos
    have hok := scanAll_ok pages.isEmpty hopen hpage
    obtain ⟨events, hscan⟩ : ∃ events, scanAll opening cursor pages.isEmpty page =
        (.ok ⟨page.hits, !pages.isEmpty⟩, events) := ⟨_, Prod.ext hok rfl⟩
    rw [pageLoop, if_neg (by omega), hscan]
    cases pages with
    | nil =>
      constructor
      · rfl
      · simp [rows]
      · simp [rows]
        omega
      · simp [LoopEnd.truncated, held_singleton]
        omega
    | cons next pages =>
      have hlength : (page.hits.take remaining).length = min remaining page.hits.length :=
        List.length_take
      dsimp only [List.isEmpty_cons, Bool.not_false]
      rw [if_neg (by decide), hlength]
      split_ifs with hcut
      · constructor
        · rfl
        · rw [rows_cons, List.take_append_of_le_length (by omega)]
        · rw [rows_cons, List.length_append]
          dsimp only
          omega
        · rw [held_cons]
          simp [LoopEnd.truncated]
          omega
      · have hmin : min remaining page.hits.length = page.hits.length := by omega
        rw [hmin]
        have hopened : ¬Unopened opening true := by
          rintro ⟨failure, -, hcursor⟩
          cases hcursor
        have hrest := ih (List.cons_ne_nil next pages)
          hopened hlater
        constructor
        · exact hrest.raised
        · dsimp only
          rw [hrest.taken, rows_cons page, List.take_append]
        · dsimp only
          rw [hrest.budget, rows_cons page, List.length_append]
          omega
        · rw [held_cons]
          refine Iff.trans hrest.truncated ?_
          simp
          omega

/-- A fetch that fails before the budget is used up is raised. -/
theorem raised_pageLoop (h : (0 < remaining ∧ pages ≠ [] ∧ Unopened opening cursor) ∨
    PageFails remaining pages) : (pageLoop opening remaining cursor pages).raised ≠ none := by
  induction pages generalizing remaining cursor with
  | nil =>
    rcases h with ⟨-, hne, -⟩ | ⟨before, page, after, hpages, -⟩
    · exact absurd rfl hne
    · cases before <;> cases hpages
  | cons page pages ih =>
    have hpos : 0 < remaining := by
      rcases h with ⟨hpos, -⟩ | hfails
      · exact hpos
      · exact (pageFails_cons.mp hfails).1
    rw [pageLoop, if_neg (by omega)]
    cases hscan : scanAll opening cursor pages.isEmpty page with
    | mk result events =>
      cases result with
      | error failure => exact Option.some_ne_none failure
      | ok scanPage =>
        have hresult : (scanAll opening cursor pages.isEmpty page).1 = .ok scanPage := by rw [hscan]
        have hopen : ¬Unopened opening cursor := by
          rintro ⟨failure, rfl, rfl⟩
          cases hresult
        have hpage : page.failure = none := by
          cases hfailure : page.failure with
          | none => rfl
          | some failure =>
            obtain ⟨raised, hraised⟩ := scanAll_failure opening cursor pages.isEmpty hfailure
            rw [hraised] at hresult
            cases hresult
        have hfails : PageFails (remaining - page.hits.length) pages := by
          rcases h with ⟨-, -, hunopened⟩ | hfails
          · exact absurd hunopened hopen
          · exact (pageFails_cons.mp hfails).2.resolve_left (not_not.mpr hpage)
        obtain ⟨before, failing, after, rfl, hbefore, -⟩ := id hfails
        rw [scanAll_ok _ hopen hpage] at hresult
        obtain rfl := Except.ok.inj hresult
        have hmin : min remaining page.hits.length = page.hits.length := by omega
        have hmore : (!(before ++ failing :: after).isEmpty) = true := by simp
        dsimp only
        rw [hmore, if_neg (by decide), List.length_take, hmin, if_neg (by omega)]
        exact ih (Or.inr hfails)

/-- Only what a fetch raises is raised. -/
theorem raised_cases (h : (pageLoop opening remaining cursor pages).raised = some failure) :
    opening = .failed failure ∨ ∃ page ∈ pages, page.failure = some failure := by
  induction pages generalizing remaining cursor with
  | nil => cases h
  | cons page pages ih =>
    rw [pageLoop] at h
    split at h
    · cases h
    · cases hscan : scanAll opening cursor pages.isEmpty page with
      | mk result events =>
        rw [hscan] at h
        cases result with
        | error raised =>
          obtain rfl := Option.some.inj h
          have herror : (scanAll opening cursor pages.isEmpty page).1 = .error raised := by
            rw [hscan]
          rcases scanAll_error herror with hopening | hpage
          · exact Or.inl hopening
          · exact Or.inr ⟨page, List.mem_cons_self, hpage⟩
        | ok scanPage =>
          dsimp only at h
          split_ifs at h
          · rcases ih h with hopening | ⟨later, hlater, hfailure⟩
            · exact Or.inl hopening
            · exact Or.inr ⟨later, List.mem_cons_of_mem page hlater, hfailure⟩

/-! ## What happens to the point in time -/

/-- A point in time that was opened is closed at the end. -/
def Released (events : List Event) : Prop :=
  Event.opened ∈ events → events.getLast? = some .closed

/-- The first fetch is cancelled between opening the point in time and the first page. -/
def LosesPointInTime (opening : Opening) (remaining : ℕ) (pages : List (Page Hit)) : Prop :=
  opening = .opened ∧ 0 < remaining ∧ ∃ page ∈ pages.head?, page.failure = some .cancelled

theorem closePitBestEffort_of_ne (h : opening ≠ .opened) : closePitBestEffort opening = [] :=
  if_neg h

/-- Only the first fetch opens a point in time. -/
theorem opened_not_mem_scanAll (terminal : Bool) (page : Page Hit) (h : opening ≠ .opened ∨ cursor = true) :
    Event.opened ∉ (scanAll opening cursor terminal page).2 := by
  have hclose : Event.opened ∉ closePitBestEffort opening := by
    unfold closePitBestEffort
    split <;> simp
  have hopen : ¬(opening = .opened ∧ cursor = false) := by
    rintro ⟨hopened, hcursor⟩
    rcases h with h | h
    · exact h hopened
    · rw [h] at hcursor
      cases hcursor
  unfold scanAll
  split
  · exact List.not_mem_nil
  · dsimp only
    rw [if_neg hopen]
    split
    · simp
    · simpa using hclose
    · cases terminal
      · simp
      · simpa using hclose

theorem opened_not_mem_log (h : opening ≠ .opened) (remaining : ℕ) (cursor : Bool)
    (pages : List (Page Hit)) :
    Event.opened ∉ (pageLoop opening remaining cursor pages).log opening := by
  have hclose (cursor : Bool) : closeScan opening cursor = [] := by
    rw [closeScan, closePitBestEffort_of_ne h, ite_self]
  rw [LoopEnd.log, hclose, List.append_nil]
  induction pages generalizing remaining cursor with
  | nil => exact List.not_mem_nil
  | cons page pages ih =>
    have hnone : opening ≠ .opened ∨ cursor = true := Or.inl h
    have hevents := opened_not_mem_scanAll pages.isEmpty page hnone
    rw [pageLoop]
    split
    · exact List.not_mem_nil
    · split
      · rename_i hscan
        rwa [hscan] at hevents
      · rename_i hscan
        rw [hscan] at hevents
        dsimp only
        split_ifs
        · exact hevents
        · exact hevents
        · rw [List.mem_append, not_or]
          exact ⟨hevents, ih _ _⟩

/-- Before the page of a point in time. -/
def begun (cursor : Bool) : List Event := if cursor then [.searched] else [.opened, .searched]

theorem scanAll_opened_page (cursor terminal : Bool) (h : page.failure = none) :
    scanAll .opened cursor terminal page =
      (.ok ⟨page.hits, !terminal⟩, begun cursor ++ if terminal then [.closed] else []) := by
  cases cursor <;> cases terminal <;> simp [scanAll, h, begun, closePitBestEffort]

theorem scanAll_opened_error (cursor terminal : Bool) (h : page.failure = some .error) :
    scanAll .opened cursor terminal page = (.error .error, begun cursor ++ [.closed]) := by
  cases cursor <;> simp [scanAll, h, begun, closePitBestEffort]

theorem scanAll_opened_cancelled (cursor terminal : Bool) (h : page.failure = some .cancelled) :
    scanAll .opened cursor terminal page = (.error .cancelled, begun cursor) := by
  cases cursor <;> simp [scanAll, h, begun]

/-- The last event of a scan that has begun, unless its first fetch is cancelled. -/
theorem getLast?_log (hbegun : cursor = true ∨
      (0 < remaining ∧ ∃ page ∈ pages.head?, page.failure ≠ some .cancelled)) :
    ((pageLoop .opened remaining cursor pages).log .opened).getLast? = some .closed := by
  have hlast (events : List Event) : (events ++ [Event.closed]).getLast? = some .closed :=
    List.getLast?_concat
  induction pages generalizing remaining cursor with
  | nil =>
    rcases hbegun with rfl | ⟨-, page, hpage, -⟩
    · rfl
    · cases hpage
  | cons page pages ih =>
    rw [LoopEnd.log, pageLoop]
    split_ifs with hzero
    · rcases hbegun with rfl | ⟨hpos, -⟩
      · rfl
      · omega
    · cases hfailure : page.failure with
      | none =>
        rw [scanAll_opened_page cursor _ hfailure]
        cases pages with
        | nil => simp [closeScan]
        | cons next pages =>
          simp only [List.isEmpty_cons, Bool.not_false, Bool.false_eq_true, Bool.true_eq_false,
            if_false, List.append_nil]
          split_ifs
          · exact hlast _
          · rw [List.append_assoc, List.getLast?_append]
            exact Option.or_eq_some_iff.mpr (Or.inl (ih (Or.inl rfl)))
      | some failure =>
        cases failure with
        | error =>
          rw [scanAll_opened_error cursor _ hfailure]
          cases cursor
          · simp [closeScan]
          · exact hlast _
        | cancelled =>
          rw [scanAll_opened_cancelled cursor _ hfailure]
          rcases hbegun with rfl | ⟨-, first, hfirst, hne⟩
          · exact hlast _
          · obtain rfl := Option.some.inj hfirst
            exact absurd hfailure hne

/-- Only a cancellation of the first fetch loses a point in time. -/
theorem released_iff (opening : Opening) (remaining : ℕ) (hne : pages ≠ []) :
    Released ((pageLoop opening remaining false pages).log opening) ↔
      ¬LosesPointInTime opening remaining pages := by
  obtain ⟨page, pages, rfl⟩ := List.exists_cons_of_ne_nil hne
  constructor
  · rintro hreleased ⟨rfl, hpos, first, hfirst, hcancelled⟩
    obtain rfl := Option.some.inj hfirst
    rw [pageLoop, if_neg (by omega), scanAll_opened_cancelled _ _ hcancelled] at hreleased
    have hlast := hreleased (by simp [LoopEnd.log, begun])
    cases hlast
  · intro hkept hopened
    by_cases hopening : opening = .opened
    · subst hopening
      rcases Nat.eq_zero_or_pos remaining with rfl | hpos
      · rw [pageLoop, if_pos rfl] at hopened
        cases hopened
      · apply getLast?_log
        refine Or.inr ⟨hpos, page, rfl, fun hcancelled => ?_⟩
        exact hkept ⟨rfl, hpos, page, rfl, hcancelled⟩
    · exact absurd hopened (opened_not_mem_log hopening _ _ _)

end RelyLoop.Ubi.Scans
