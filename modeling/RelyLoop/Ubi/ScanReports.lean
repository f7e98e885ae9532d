import RelyLoop.Ubi.Reader
import RelyLoop.Ubi.Scans

/-!
# What the scans report

A scan should return the first rows of its stream, report a truncation if it leaves rows unread,
and leave no point in time open. It does so except at one row count, for a cut through a terminal
page, without a budget, and for a cancellation.
-/

namespace RelyLoop.Ubi.Scans

variable {Hit Row Row' : Type}

/-! ## What a scan should do -/

/-- The rows of some scans, one scan after another. -/
def stream (scans : List (Scan Hit)) : List Hit := scans.flatMap fun scan => rows scan.pages

/-- The first rows of a stream within a budget, and whether there are more. -/
structure Delivers (extract : Hit → Option Row) (budget : ℕ) (hits : List Hit)
    (result : List Row × Bool) : Prop where
  rows : result.1 = (hits.take (min budget hits.length)).filterMap extract
  report : result.2 = true ↔ budget < hits.length

/-- A fetch of the scan raises. -/
def Scan.Raises (scan : Scan Hit) (failure : Failure) : Prop :=
  scan.opening = .failed failure ∨ ∃ page ∈ scan.pages, page.failure = some failure

/-- The rows are delivered unless a fetch raises, and every scan is closed. -/
structure ScansRight (extract : Hit → Option Row) (budget : ℕ) (scans : List (Scan Hit))
    (outcome : Except Failure (List Row × Bool)) (logs : List (List Event)) : Prop where
  delivers : ∀ result, outcome = .ok result → Delivers extract budget (stream scans) result
  raises : ∀ failure, outcome = .error failure → ∃ scan ∈ scans, scan.Raises failure
  released : ∀ events ∈ logs, Released events

/-- `_scan_ubi_queries` does what it should. -/
def QueriesRight (extract : Hit → Option Row) (budget : ℕ) (scan : Scan Hit) : Prop :=
  ScansRight extract budget [scan] (scanUbiQueries extract scan budget).1
    [(scanUbiQueries extract scan budget).2]

/-- `_scan_ubi_events` does what it should. -/
def EventsRight (source : Hit → Option Row) (budget : ℕ) (scans : List (Scan Hit)) : Prop :=
  ScansRight source budget scans (scanUbiEvents source budget scans).1
    (scanUbiEvents source budget scans).2

/-! ## When it does it -/

/-- A fetch fails before the budget is used up. -/
def Scan.Fails (budget : ℕ) (scan : Scan Hit) : Prop :=
  (0 < budget ∧ ∃ failure, scan.opening = .failed failure) ∨ PageFails budget scan.pages

/-- A fetch of one of the scans fails before the budget is used up. -/
def Fails (budget : ℕ) (scans : List (Scan Hit)) : Prop :=
  ∃ before scan after, scans = before ++ scan :: after ∧
    scan.Fails (budget - (stream before).length)

/-- The first search in a point in time is cancelled. -/
def Loses (budget : ℕ) (scans : List (Scan Hit)) : Prop :=
  ∃ before scan after, scans = before ++ scan :: after ∧ ¬Fails budget before ∧
    LosesPointInTime scan.opening (budget - (stream before).length) scan.pages

/-- How many rows there are without those of the last terminal page. -/
def heldRows : List (Scan Hit) → ℕ
  | [] => 0
  | [scan] => held scan.pages
  | scan :: next :: scans => (rows scan.pages).length + heldRows (next :: scans)

/-- The budget is used up by the last row, and the last terminal page is empty. -/
def SpentByLastRow (budget : ℕ) (scans : List (Scan Hit)) : Prop :=
  budget = (stream scans).length ∧ heldRows scans = (stream scans).length

/-- The budget is used up within the last terminal page. -/
def SpentOnTerminalPage (budget : ℕ) (scans : List (Scan Hit)) : Prop :=
  heldRows scans < budget ∧ budget < (stream scans).length

/-! ## Scans one after another -/

variable {budget : ℕ} {scan : Scan Hit} {scans : List (Scan Hit)} {extract : Hit → Option Row}

theorem stream_cons (scan : Scan Hit) (scans : List (Scan Hit)) :
    stream (scan :: scans) = rows scan.pages ++ stream scans := List.flatMap_cons

theorem fails_cons : Fails budget (scan :: scans) ↔
    scan.Fails budget ∨ Fails (budget - (rows scan.pages).length) scans := by
  constructor
  · rintro ⟨before, failing, after, hscans, hfails⟩
    cases before with
    | nil =>
      obtain ⟨rfl, -⟩ := List.cons.inj hscans
      exact Or.inl hfails
    | cons first before =>
      obtain ⟨rfl, rfl⟩ := List.cons.inj hscans
      rw [stream_cons, List.length_append, ← Nat.sub_sub] at hfails
      exact Or.inr ⟨before, failing, after, rfl, hfails⟩
  · rintro (hfails | ⟨before, failing, after, rfl, hfails⟩)
    · exact ⟨[], scan, scans, rfl, hfails⟩
    · refine ⟨scan :: before, failing, after, rfl, ?_⟩
      rwa [stream_cons, List.length_append, ← Nat.sub_sub]

theorem loses_cons : Loses budget (scan :: scans) ↔
    LosesPointInTime scan.opening budget scan.pages ∨
      (¬scan.Fails budget ∧ Loses (budget - (rows scan.pages).length) scans) := by
  constructor
  · rintro ⟨before, losing, after, hscans, hbefore, hloses⟩
    cases before with
    | nil =>
      obtain ⟨rfl, -⟩ := List.cons.inj hscans
      exact Or.inl hloses
    | cons first before =>
      obtain ⟨rfl, rfl⟩ := List.cons.inj hscans
      rw [fails_cons, not_or] at hbefore
      rw [stream_cons, List.length_append, ← Nat.sub_sub] at hloses
      exact Or.inr ⟨hbefore.1, before, losing, after, rfl, hbefore.2, hloses⟩
  · rintro (hloses | ⟨hscan, before, losing, after, rfl, hbefore, hloses⟩)
    · refine ⟨[], scan, scans, rfl, ?_, hloses⟩
      rintro ⟨before, failing, after, hnil, -⟩
      cases before <;> cases hnil
    · refine ⟨scan :: before, losing, after, rfl, ?_, ?_⟩
      · rw [fails_cons, not_or]
        exact ⟨hscan, hbefore⟩
      · rwa [stream_cons, List.length_append, ← Nat.sub_sub]

theorem not_fails_nil : ¬Fails budget ([] : List (Scan Hit)) := by
  rintro ⟨before, scan, after, hscans, -⟩
  cases before <;> cases hscans

theorem not_loses_nil : ¬Loses budget ([] : List (Scan Hit)) := by
  rintro ⟨before, scan, after, hscans, -⟩
  cases before <;> cases hscans

/-- Nothing is fetched without a budget. -/
theorem Fails.pos (h : Fails budget scans) : 0 < budget := by
  obtain ⟨before, scan, after, -, ⟨hpos, -⟩ | ⟨earlier, page, later, -, hpos, -⟩⟩ := h
  · omega
  · omega

theorem Loses.pos (h : Loses budget scans) : 0 < budget := by
  obtain ⟨before, scan, after, -, -, -, hpos, -⟩ := h
  omega

theorem held_le (pages : List (Page Hit)) : held pages ≤ (rows pages).length := by
  induction pages with
  | nil => exact Nat.le_refl 0
  | cons page pages ih =>
    cases pages with
    | nil =>
      rw [held_singleton]
      exact Nat.zero_le _
    | cons next pages =>
      rw [held_cons, rows_cons page, List.length_append]
      omega

theorem heldRows_le (scans : List (Scan Hit)) : heldRows scans ≤ (stream scans).length := by
  induction scans with
  | nil => exact Nat.le_refl 0
  | cons scan scans ih =>
    have hheld := held_le scan.pages
    cases scans with
    | nil =>
      rw [heldRows, stream_cons, List.length_append]
      omega
    | cons next scans =>
      rw [heldRows, stream_cons scan, List.length_append]
      omega

/-! ## One scan -/

theorem raised_iff : (pageLoop scan.opening budget false scan.pages).raised ≠ none ↔
    scan.Fails budget := by
  constructor
  · intro hraised
    by_contra hfails
    rw [Scan.Fails, not_or, not_and] at hfails
    obtain ⟨hopen, hpages⟩ := hfails
    rcases Nat.eq_zero_or_pos budget with rfl | hpos
    · exact hraised (reads_zero scan.ne_nil _ _).raised
    · refine hraised (reads_pageLoop scan.ne_nil ?_ hpages).raised
      exact fun ⟨failure, hopening, _⟩ => hopen hpos ⟨failure, hopening⟩
  · rintro (⟨hpos, failure, hopening⟩ | hpages)
    · exact raised_pageLoop (Or.inl ⟨hpos, scan.ne_nil, failure, hopening, rfl⟩)
    · exact raised_pageLoop (Or.inr hpages)

theorem reads_of_not_fails (h : ¬scan.Fails budget) :
    Reads budget false scan.pages (pageLoop scan.opening budget false scan.pages) := by
  rw [Scan.Fails, not_or, not_and] at h
  obtain ⟨hopen, hpages⟩ := h
  rcases Nat.eq_zero_or_pos budget with rfl | hpos
  · exact reads_zero scan.ne_nil _ _
  · exact reads_pageLoop scan.ne_nil
      (fun ⟨failure, hopening, _⟩ => hopen hpos ⟨failure, hopening⟩) hpages

theorem take_min_length (budget : ℕ) (hits : List Hit) :
    hits.take (min budget hits.length) = hits.take budget := by
  rw [List.take_eq_take_iff]
  omega

/-- Without a failure the rows are those of a stream that needs no fetches. -/
theorem taken_eq_takePages (h : ¬scan.Fails budget) :
    (pageLoop scan.opening budget false scan.pages).taken =
      takePages budget (scan.pages.map Page.hits) := by
  rw [(reads_of_not_fails h).taken, takePages_eq, rows, List.flatMap_def]

/-! ## The scan of the queries -/

theorem scanUbiQueries_ok (extract : Hit → Option Row) (h : ¬scan.Fails budget) : ∃ result,
    (scanUbiQueries extract scan budget).1 = .ok result ∧
      result.1 = ((rows scan.pages).take budget).filterMap extract ∧
      (result.2 = true ↔ 0 < budget ∧ budget ≤ held scan.pages) := by
  have hreads := reads_of_not_fails h
  have hreport := hreads.truncated
  refine ⟨((pageLoop scan.opening budget false scan.pages).taken.filterMap extract,
    (pageLoop scan.opening budget false scan.pages).truncated), ?_, ?_, ?_⟩
  · rw [scanUbiQueries, hreads.raised]
  · dsimp only
    rw [hreads.taken]
  · simpa using hreport

theorem scanUbiQueries_error (extract : Hit → Option Row) (h : scan.Fails budget) : ∃ failure,
    (scanUbiQueries extract scan budget).1 = .error failure ∧ scan.Raises failure := by
  obtain ⟨failure, hraised⟩ := Option.ne_none_iff_exists'.mp (raised_iff.mpr h)
  refine ⟨failure, ?_, raised_cases hraised⟩
  rw [scanUbiQueries, hraised]

theorem scanUbiQueries_log (extract : Hit → Option Row) (scan : Scan Hit) (budget : ℕ) :
    (scanUbiQueries extract scan budget).2 =
      (pageLoop scan.opening budget false scan.pages).log scan.opening := by
  rw [scanUbiQueries]
  split <;> rfl

/-! ## The scans of the events -/

theorem scanUbiEvents_ok (extract : Hit → Option Row) (h : ¬Fails budget scans) : ∃ result,
    (scanUbiEvents extract budget scans).1 = .ok result ∧
      result.1 = ((stream scans).take budget).filterMap extract ∧
      (result.2 = true ↔ scans ≠ [] ∧ budget ≤ heldRows scans) := by
  induction scans generalizing budget with
  | nil => exact ⟨([], false), rfl, by simp [stream], by simp⟩
  | cons scan scans ih =>
    rw [fails_cons, not_or] at h
    obtain ⟨hscan, hscans⟩ := h
    rw [scanUbiEvents]
    split_ifs with hzero
    · subst hzero
      exact ⟨([], true), rfl, by simp, by simp⟩
    · have hreads := reads_of_not_fails hscan
      obtain ⟨result, hresult, hrows, hreport⟩ := ih hscans
      dsimp only
      rw [hreads.raised, hreads.budget, hreads.taken, hresult]
      refine ⟨_, rfl, ?_, ?_⟩
      · dsimp only
        rw [hrows, stream_cons, List.take_append, List.filterMap_append]
      · dsimp only
        rw [Bool.or_eq_true, hreads.truncated, hreport]
        have hle := held_le scan.pages
        cases scans with
        | nil =>
          simp [heldRows]
          omega
        | cons next scans =>
          simp [heldRows]
          omega

theorem scanUbiEvents_error (extract : Hit → Option Row) (h : Fails budget scans) : ∃ failure,
    (scanUbiEvents extract budget scans).1 = .error failure ∧
      ∃ scan ∈ scans, scan.Raises failure := by
  induction scans generalizing budget with
  | nil => exact absurd h not_fails_nil
  | cons scan scans ih =>
    have hpos := h.pos
    rw [scanUbiEvents, if_neg (by omega)]
    dsimp only
    by_cases hscan : scan.Fails budget
    · obtain ⟨failure, hraised⟩ := Option.ne_none_iff_exists'.mp (raised_iff.mpr hscan)
      rw [hraised]
      exact ⟨failure, rfl, scan, List.mem_cons_self, raised_cases hraised⟩
    · have hreads := reads_of_not_fails hscan
      obtain ⟨failure, hfailure, later, hlater, hraises⟩ :=
        ih ((fails_cons.mp h).resolve_left hscan)
      rw [hreads.raised, hreads.budget, hfailure]
      exact ⟨failure, rfl, later, List.mem_cons_of_mem scan hlater, hraises⟩

/-- The scans are closed unless the first search in a point in time is cancelled. -/
theorem released_events_iff (extract : Hit → Option Row) (budget : ℕ) (scans : List (Scan Hit)) :
    (∀ events ∈ (scanUbiEvents extract budget scans).2, Released events) ↔
      ¬Loses budget scans := by
  induction scans generalizing budget with
  | nil => exact iff_of_true (fun events hevents => by cases hevents) not_loses_nil
  | cons scan scans ih =>
    have hlog := released_iff scan.opening budget scan.ne_nil
    rw [scanUbiEvents]
    split_ifs with hzero
    · exact iff_of_true (fun events hevents => by cases hevents) fun h => by
        have hpos := h.pos
        omega
    · dsimp only
      rw [loses_cons, not_or, ← hlog]
      by_cases hscan : scan.Fails budget
      · obtain ⟨failure, hraised⟩ := Option.ne_none_iff_exists'.mp (raised_iff.mpr hscan)
        rw [hraised]
        simp [hscan]
      · have hreads := reads_of_not_fails hscan
        rw [hreads.raised, hreads.budget]
        simp [hscan, ih]

/-! ## Both scans -/

theorem scansRight_of_ok {outcome : Except Failure (List Row × Bool)} {result : List Row × Bool}
    (houtcome : outcome = .ok result)
    (hrows : result.1 = ((stream scans).take budget).filterMap extract) (logs : List (List Event)) :
    ScansRight extract budget scans outcome logs ↔
      (result.2 = true ↔ budget < (stream scans).length) ∧ ∀ events ∈ logs, Released events := by
  subst houtcome
  constructor
  · rintro ⟨hdelivers, -, hreleased⟩
    exact ⟨(hdelivers result rfl).report, hreleased⟩
  · rintro ⟨hreport, hreleased⟩
    constructor
    · rintro result' hresult
      obtain rfl := Except.ok.inj hresult
      exact ⟨by rw [hrows, take_min_length], hreport⟩
    · rintro failure hfailure
      cases hfailure
    · exact hreleased

theorem scansRight_of_error {outcome : Except Failure (List Row × Bool)} {failure : Failure}
    (houtcome : outcome = .error failure) (hraises : ∃ scan ∈ scans, scan.Raises failure)
    (logs : List (List Event)) :
    ScansRight extract budget scans outcome logs ↔ ∀ events ∈ logs, Released events := by
  subst houtcome
  constructor
  · exact fun hright => hright.released
  · intro hreleased
    constructor
    · rintro result hresult
      cases hresult
    · rintro failure' hfailure
      obtain rfl := Except.error.inj hfailure
      exact hraises
    · exact hreleased

theorem queriesRight_iff (extract : Hit → Option Row) (budget : ℕ) (scan : Scan Hit) :
    QueriesRight extract budget scan ↔ ¬Loses budget [scan] ∧ (Fails budget [scan] ∨
      ((budget = 0 → rows scan.pages = []) ∧
        (0 < budget → ¬SpentByLastRow budget [scan] ∧ ¬SpentOnTerminalPage budget [scan]))) := by
  have hstream : stream [scan] = rows scan.pages := by simp [stream]
  have hfails : Fails budget [scan] ↔ scan.Fails budget := by
    rw [fails_cons]
    exact or_iff_left not_fails_nil
  have hreleased : (∀ events ∈ [(scanUbiQueries extract scan budget).2], Released events) ↔
      ¬Loses budget [scan] := by
    rw [loses_cons, List.forall_mem_singleton, scanUbiQueries_log, released_iff scan.opening budget scan.ne_nil]
    exact not_congr (or_iff_left fun h => not_loses_nil h.2).symm
  by_cases hscan : scan.Fails budget
  · obtain ⟨failure, houtcome, hraises⟩ := scanUbiQueries_error extract hscan
    rw [QueriesRight, scansRight_of_error houtcome ⟨scan, List.mem_singleton_self scan, hraises⟩,
      hreleased, hfails]
    exact (and_iff_left (Or.inl hscan)).symm
  · obtain ⟨result, houtcome, hrows, hreport⟩ := scanUbiQueries_ok extract hscan
    have hle := held_le scan.pages
    rw [← hstream] at hrows
    rw [QueriesRight, scansRight_of_ok houtcome hrows, hreleased, hreport, hfails,
      or_iff_right hscan, and_comm, SpentByLastRow, SpentOnTerminalPage, hstream, heldRows, ← List.length_eq_zero_iff]
    apply and_congr_right'
    omega

theorem eventsRight_iff (source : Hit → Option Row) (budget : ℕ) (scans : List (Scan Hit)) :
    EventsRight source budget scans ↔ ¬Loses budget scans ∧ (Fails budget scans ∨
      (scans ≠ [] → ¬SpentByLastRow budget scans ∧ ¬SpentOnTerminalPage budget scans)) := by
  have hreleased := released_events_iff source budget scans
  by_cases hfails : Fails budget scans
  · obtain ⟨failure, houtcome, hraises⟩ := scanUbiEvents_error source hfails
    rw [EventsRight, scansRight_of_error houtcome hraises, hreleased]
    exact (and_iff_left (Or.inl hfails)).symm
  · obtain ⟨result, houtcome, hrows, hreport⟩ := scanUbiEvents_ok source hfails
    have hle := heldRows_le scans
    rw [EventsRight, scansRight_of_ok houtcome hrows, hreleased, hreport, or_iff_right hfails,
      and_comm, SpentByLastRow, SpentOnTerminalPage]
    apply and_congr_right'
    by_cases hne : scans = []
    · subst hne
      simp [stream]
    · simp only [hne, ne_eq, not_false_eq_true, true_and, forall_const]
      omega

/-- The scans do what they should, except in these cases. -/
theorem scansRight_iff (extract : Hit → Option Row) (source : Hit → Option Row')
    (maxQueries maxEvents : ℕ) (scan : Scan Hit) (scans : List (Scan Hit)) :
    (QueriesRight extract maxQueries scan ↔ ¬Loses maxQueries [scan] ∧ (Fails maxQueries [scan] ∨
      ((maxQueries = 0 → rows scan.pages = []) ∧ (0 < maxQueries →
        ¬SpentByLastRow maxQueries [scan] ∧ ¬SpentOnTerminalPage maxQueries [scan])))) ∧
    (EventsRight source maxEvents scans ↔ ¬Loses maxEvents scans ∧ (Fails maxEvents scans ∨
      (scans ≠ [] → ¬SpentByLastRow maxEvents scans ∧ ¬SpentOnTerminalPage maxEvents scans))) :=
  ⟨queriesRight_iff extract maxQueries scan, eventsRight_iff source maxEvents scans⟩

/-- Two rows on a full page, and the empty page after it. -/
def fullPage : Scan ℕ := ⟨.opened, [⟨[1, 2], none⟩, ⟨[], none⟩], List.cons_ne_nil _ _⟩

/-- A scan whose first search is cancelled. -/
def cancelledSearch : Scan ℕ := ⟨.opened, [⟨[1], some .cancelled⟩], List.cons_ne_nil _ _⟩

/-- A clean full read is reported as truncated, and a cancelled scan is not closed. -/
theorem not_scansRight_fullPage : ¬QueriesRight some 2 fullPage ∧ ¬EventsRight some 2 [fullPage] ∧
    ¬QueriesRight some 2 cancelledSearch := by
  refine ⟨?_, ?_, ?_⟩
  · intro hright
    have hreport := (hright.delivers ([1, 2], true) rfl).report
    exact absurd (hreport.mp rfl) (by decide)
  · intro hright
    have hreport := (hright.delivers ([1, 2], true) rfl).report
    exact absurd (hreport.mp rfl) (by decide)
  · intro hright
    have hclosed := hright.released [.opened, .searched] List.mem_cons_self List.mem_cons_self
    cases hclosed

end RelyLoop.Ubi.Scans
